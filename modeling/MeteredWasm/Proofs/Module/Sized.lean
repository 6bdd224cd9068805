import MeteredWasm.Proofs.Module.Summary

/-!
# How much a decoded module holds

A list of a binary is written behind its length, a number of 32 bits, and there is one section of
each kind at most. So there are no more items of a kind than a word can count, and the summary of a
binary counts its types and functions right (`typeIndex_of_summary`, `hookIndex_of_summary`).
-/

set_option autoImplicit false

namespace MeteredWasm.Leb128

theorem readUnsigned_lt {width n : Nat} {input rest : Bytes}
    (h : readUnsigned width input = some (n, rest)) : n < 2 ^ width := by
  induction input generalizing width n with
  | nil => cases h
  | cons b input ih =>
    rw [readUnsigned] at h
    split at h
    · split at h
      · rename_i hlt
        cases h
        rwa [Nat.one_shiftLeft] at hlt
      · cases h
    · split at h
      · cases h
      · rename_i hwide
        split at h
        · rename_i k left hk
          cases h
          have hlt := ih hk
          have hbyte := b.toNat_lt
          have hpow : 2 ^ width = 128 * 2 ^ (width - 7) := by
            rw [show (128 : Nat) = 2 ^ 7 from rfl, ← Nat.pow_add]
            congr 1
            omega
          omega
        · cases h

theorem length_lt_of_readVec {α : Type} {item : Reader α} {input rest : Bytes} {xs : List α}
    (h : readVec item input = some (xs, rest)) : xs.length < 2 ^ 32 := by
  simp only [readVec, Reader.bind_apply, Option.bind_eq_some_iff, Prod.exists] at h
  obtain ⟨n, left, hn, htimes⟩ := h
  rw [Wasm.length_of_times htimes]
  exact readUnsigned_lt hn

end MeteredWasm.Leb128

namespace MeteredWasm.Wasm

open Leb128

section
variable {α : Type} {get : Section → List α} {kind : SectionKind} {sections : List Section}

/-- All items of a kind stand in one section, if there are any. -/
theorem items_of_ordered (P : List α → Prop) (other : ∀ s, s.kind? ≠ some kind → get s = [])
    (hord : Ordered sections) (hnil : P [])
    (hitems : ∀ s ∈ sections, s.kind? = some kind → P (get s)) : P (sections.flatMap get) := by
  induction sections with
  | nil => exact hnil
  | cons s rest ih =>
    obtain ⟨hbehind, hrest⟩ := ordered_cons.1 hord
    by_cases hkind : s.kind? = some kind
    · have hnone : rest.flatMap get = [] := by
        refine List.flatMap_eq_nil_iff.2 fun s' hs' => other s' fun hkind' => ?_
        exact Nat.lt_irrefl _ (hbehind kind hkind s' hs' kind hkind')
      rw [List.flatMap_cons, hnone, List.append_nil]
      exact hitems s (List.mem_cons_self ..) hkind
    · rw [List.flatMap_cons, other s hkind, List.nil_append]
      exact ih hrest fun s' hs' => hitems s' (List.mem_cons_of_mem _ hs')

end

section
variable {dialect : Dialect} {binary : Bytes} {m : Module}

/-- Every known section of a decoded module has been read from its contents. -/
theorem contents_of_decode (h : Module.decode? dialect binary = some m) {s : Section}
    (hs : s ∈ m.sections) {kind : SectionKind} (hkind : s.kind? = some kind) :
    ∃ contents, Section.ofContents? dialect kind contents = some s := by
  obtain ⟨raws, -, -, -, hraws⟩ := decode_eq_some h
  obtain ⟨raw, -, hraw⟩ := mem_of_mapM hraws hs
  cases raw with
  | custom => cases hraw; cases hkind
  | unknown => cases hraw
  | known kind' contents =>
    rw [Section.ofRaw?] at hraw
    have hsame := Section.kind_of_ofContents hraw
    rw [hkind] at hsame
    cases hsame
    exact ⟨contents, hraw⟩

/-- There are no more items of a kind than a word can count. -/
theorem length_items_lt {α : Type} {get : Section → List α} (kind : SectionKind)
    (h : Module.decode? dialect binary = some m) (other : ∀ s, s.kind? ≠ some kind → get s = [])
    (item : Reader α) (hread : ∀ contents s, Section.ofContents? dialect kind contents = some s →
      Reader.whole (readVec item) contents = some (get s)) :
    (m.sections.flatMap get).length < 2 ^ 32 := by
  refine items_of_ordered (·.length < 2 ^ 32) other (ordered_of_decode h) (Nat.two_pow_pos 32)
    fun s hs hkind => ?_
  obtain ⟨contents, hcontents⟩ := contents_of_decode h hs hkind
  exact length_lt_of_readVec (whole_eq_some.1 (hread contents s hcontents))

theorem length_types_lt (h : Module.decode? dialect binary = some m) : m.types.length < 2 ^ 32 := by
  refine length_items_lt .types h (fun s hs => ?_) TypeEntry.read fun contents s hs => ?_
  · cases s <;> first | rfl | exact absurd rfl hs
  · obtain ⟨items, hitems, rfl⟩ := Option.map_eq_some_iff.1 hs
    exact hitems

theorem length_imports_lt (h : Module.decode? dialect binary = some m) :
    m.imports.length < 2 ^ 32 := by
  refine length_items_lt .imports h (fun s hs => ?_) (Import.read dialect) fun contents s hs => ?_
  · cases s <;> first | rfl | exact absurd rfl hs
  · obtain ⟨items, hitems, rfl⟩ := Option.map_eq_some_iff.1 hs
    exact hitems

end

section
variable {binary : Bytes} {s : Summary} {m : Module} (hs : Summary.of binary = .ok s)
  (hm : Module.decode? .full binary = some m)
include hs hm

/-- The hook has its place behind the imported functions. -/
theorem hookIndex_of_summary : s.hookIndex.toNat = m.importedFuncs.length := by
  have hlt := length_imports_lt hm
  have hle : m.importedFuncs.length ≤ m.imports.length := List.length_filterMap_le ..
  rw [Summary.hookIndex, summary_functionImports hs hm, ← List.length_map (f := (·.type)),
    ← Module.importedFuncs_eq, Nat.toUInt32_eq, UInt32.toNat_ofNat']
  omega

/-- A type that is added has its place behind those that there are. -/
theorem typeIndex_of_summary : s.types.length.toUInt32.toNat = m.types.length := by
  have hlt := length_types_lt hm
  rw [summary_types hs hm, List.length_map, Nat.toUInt32_eq, UInt32.toNat_ofNat']
  omega

end

end MeteredWasm.Wasm
