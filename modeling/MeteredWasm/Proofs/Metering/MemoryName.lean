import Mathlib.Data.List.Nodup
import Mathlib.Data.List.Perm.Subperm
import Mathlib.Order.Bounds.Basic
import MeteredWasm.Instrument
import MeteredWasm.Proofs.Module.Metered
import MeteredWasm.Proofs.Module.References

/-!
# A free name for the memory

A memory that is not exported is exported under `memory` with as many underscores behind it as it
takes for the name to be free (`freeMemoryName_eq`). There are fewer names that are taken than names
that are tried, so one is free (`export_freeMemoryName`), and a search that nothing bounds ends at
the same name (`nameSearch_freeMemoryName`).

Which name a memory has and whether it is added are found out apart; the two agree whatever is
exported (`memoryNamed`), and the name is among those of the metered module (`exists_memoryExport`).
-/

set_option autoImplicit false

namespace MeteredWasm

open Wasm Metering

namespace Metering

/-- A name with underscores behind it. -/
def underscored (name : String) : Nat → String
  | 0 => name
  | k + 1 => underscored (name ++ "_") k

/-- The names that are tried, as text. -/
theorem underscored_eq (name : String) (k : Nat) :
    underscored name k = name ++ String.ofList (List.replicate k '_') := by
  induction k generalizing name with
  | zero => exact String.append_empty.symm
  | succ k ih =>
    rw [underscored, ih, String.append_assoc, List.replicate_succ,
      show "_" = String.ofList ['_'] from rfl, ← String.ofList_append]
    rfl

theorem utf8ByteSize_underscored (name : String) (k : Nat) :
    (underscored name k).utf8ByteSize = name.utf8ByteSize + k := by
  induction k generalizing name with
  | zero => rfl
  | succ k ih =>
    rw [underscored, ih, String.utf8ByteSize_append, show "_".utf8ByteSize = 1 from rfl]
    omega

theorem nodup_underscored (name : String) (n : Nat) :
    ((List.range n).map (underscored name)).Nodup := by
  refine List.nodup_range.map fun j k hsame => ?_
  have hsize := congrArg String.utf8ByteSize hsame
  rw [utf8ByteSize_underscored, utf8ByteSize_underscored] at hsize
  omega

/-- The underscores say nothing of how the name begins. -/
theorem head_underscored {name : String} (hname : name.toList ≠ []) (k : Nat) :
    (underscored name k).toList.head? = name.toList.head? := by
  induction k generalizing name with
  | zero => rfl
  | succ k ih =>
    have happend : (name ++ "_").toList = name.toList ++ "_".toList := String.toList_append
    rw [underscored, ih (by simp [happend]), happend, List.head?_append_of_ne_nil _ hname]

section
variable {s : Summary}

/-- All names with fewer underscores are taken, and if there are underscores left this one is
not. -/
theorem freeMemoryName_eq (s : Summary) (name : String) (n : Nat) :
    ∃ k ≤ n, freeMemoryName s name n = underscored name k ∧
      (∀ j < k, (s.export? (underscored name j)).isSome = true) ∧
      (k < n → s.export? (underscored name k) = none) := by
  induction n generalizing name with
  | zero => exact ⟨0, Nat.le_refl 0, rfl, fun _ h => absurd h (Nat.not_lt_zero _),
      fun h => absurd h (Nat.lt_irrefl 0)⟩
  | succ n ih =>
    rw [freeMemoryName]
    split
    · rename_i htaken
      obtain ⟨k, hk, hname, hbelow, hfree⟩ := ih (name ++ "_")
      refine ⟨k + 1, Nat.succ_le_succ hk, hname, fun j hj => ?_, fun hlt => ?_⟩
      · cases j with
        | zero => exact htaken
        | succ j => exact hbelow j (Nat.lt_of_succ_lt_succ hj)
      · exact hfree (Nat.lt_of_succ_lt_succ hlt)
    · rename_i hfree
      exact ⟨0, Nat.zero_le _, rfl, fun _ h => absurd h (Nat.not_lt_zero _),
        fun _ => Option.not_isSome_iff_eq_none.1 hfree⟩

theorem export_eq_none_iff {name : String} :
    s.export? name = none ↔ ∀ e ∈ s.exports, e.name ≠ name := by
  simp [Summary.export?, List.find?_eq_none]

theorem name_of_export {name : String} (h : (s.export? name).isSome = true) :
    name ∈ s.exports.map Export.name := by
  obtain ⟨e, he⟩ := Option.isSome_iff_exists.1 h
  have hname : e.name = name := by simpa using List.find?_some he
  exact List.mem_map.2 ⟨e, List.mem_of_find?_eq_some he, hname⟩

/-- Not all names with up to as many underscores as there are exports are taken. -/
theorem export_freeMemoryName (s : Summary) (name : String) :
    s.export? (freeMemoryName s name s.exports.length) = none := by
  obtain ⟨k, hk, hname, hbelow, hfree⟩ := freeMemoryName_eq s name s.exports.length
  rw [hname]
  rcases Nat.lt_or_eq_of_le hk with hlt | rfl
  · exact hfree hlt
  · cases htaken : s.export? (underscored name s.exports.length) with
    | none => rfl
    | some e =>
      have hall : (List.range (s.exports.length + 1)).map (underscored name) ⊆
          s.exports.map Export.name := by
        intro name' hname'
        obtain ⟨j, hj, rfl⟩ := List.mem_map.1 hname'
        refine name_of_export ?_
        rcases Nat.lt_or_eq_of_le (Nat.le_of_lt_succ (List.mem_range.1 hj)) with hlt | rfl
        · exact hbelow j hlt
        · rw [htaken]
          rfl
      have hcount := (List.subperm_of_subset (nodup_underscored name _) hall).length_le
      simp only [List.length_map, List.length_range] at hcount
      omega

/-! ## The search without a bound -/

/-- The search for a free name: as long as the name is taken, an underscore is put behind it. From
this name it ends with the name `found`, so many underscores later. -/
inductive NameSearch (s : Summary) : String → Nat → String → Prop
  | free {name : String} (free : s.export? name = none) : NameSearch s name 0 name
  | taken {name found : String} {k : Nat} (taken : (s.export? name).isSome = true)
      (rest : NameSearch s (name ++ "_") k found) : NameSearch s name (k + 1) found

/-- The search ends at the first name that is free. -/
theorem nameSearch_iff {name found : String} {k : Nat} : NameSearch s name k found ↔
    found = underscored name k ∧ IsLeast {j | s.export? (underscored name j) = none} k := by
  induction k generalizing name with
  | zero =>
    constructor
    · rintro ⟨hfree⟩
      exact ⟨rfl, hfree, fun _ _ => Nat.zero_le _⟩
    · rintro ⟨rfl, hfree, -⟩
      exact .free hfree
  | succ k ih =>
    constructor
    · intro h
      cases h with
      | taken htaken rest =>
        obtain ⟨hfound, hfree, hleast⟩ := ih.1 rest
        refine ⟨hfound, hfree, fun j hj => ?_⟩
        cases j with
        | zero => exact absurd hj (Option.isSome_iff_ne_none.1 htaken)
        | succ j => exact Nat.succ_le_succ (hleast hj)
    · rintro ⟨hfound, hfree, hleast⟩
      have htaken : s.export? name ≠ none := fun hnone =>
        absurd (hleast hnone) (Nat.not_succ_le_zero k)
      have hrest : IsLeast {j | s.export? (underscored (name ++ "_") j) = none} k :=
        ⟨hfree, fun j hj => Nat.le_of_succ_le_succ (hleast hj)⟩
      exact .taken (Option.isSome_iff_ne_none.2 htaken) (ih.2 ⟨hfound, hrest⟩)

theorem NameSearch.unique {name found found' : String} {k k' : Nat}
    (h : NameSearch s name k found) (h' : NameSearch s name k' found') :
    k = k' ∧ found = found' := by
  obtain ⟨rfl, hleast⟩ := nameSearch_iff.1 h
  obtain ⟨rfl, hleast'⟩ := nameSearch_iff.1 h'
  obtain rfl := hleast.unique hleast'
  exact ⟨rfl, rfl⟩

/-- The search ends, after no more steps than there are exports. -/
theorem nameSearch_freeMemoryName (s : Summary) (name : String) :
    ∃ k ≤ s.exports.length, NameSearch s name k (freeMemoryName s name s.exports.length) := by
  obtain ⟨k, hk, hname, hbelow, -⟩ := freeMemoryName_eq s name s.exports.length
  have hfree := export_freeMemoryName s name
  rw [hname] at hfree ⊢
  refine ⟨k, hk, nameSearch_iff.2 ⟨rfl, hfree, fun j hj => Nat.not_lt.1 fun hlt => ?_⟩⟩
  exact absurd hj (Option.isSome_iff_ne_none.1 (hbelow j hlt))

end

/-! ## The name that is chosen -/

/-- What is found out about a memory: the name that it can be reached under, and the one that is
added. -/
structure MemoryNamed (order : ExportOrder) (s : Summary) (memory : MemoryInfo) : Prop where
  /-- The memory of the host needs no name. -/
  imported : memory.isImported = true → memoryExportName order s memory = none
  exported : memory.isImported = false → (∃ e ∈ s.exports, e.kind = .memory) →
    ∃ e ∈ s.exports, e.kind = .memory ∧ memoryExportName order s memory = some e.name
  /-- The search for a new name ends, and it ends at the first name that no export has. -/
  unexported : memory.isImported = false → (∀ e ∈ s.exports, e.kind ≠ .memory) →
    ∃ k found, (∀ k' found', NameSearch s "memory" k' found' ↔ k' = k ∧ found' = found) ∧
      k ≤ s.exports.length ∧ found = "memory" ++ String.ofList (List.replicate k '_') ∧
      IsLeast {j | ∀ e ∈ s.exports, e.name ≠ "memory" ++ String.ofList (List.replicate j '_')} k ∧
      memoryExportName order s memory = some found
  /-- Only a name that has been searched for is added. -/
  added : ∀ name, Instrument.addedMemoryExport order s memory = some name ↔
    memory.isImported = false ∧ (∀ e ∈ s.exports, e.kind ≠ .memory) ∧
      memoryExportName order s memory = some name

section
variable {order : ExportOrder} {s : Summary} {memory : MemoryInfo}

theorem hasMemoryExport_eq_false :
    hasMemoryExport s = false ↔ ∀ e ∈ s.exports, e.kind ≠ .memory := by
  simp [hasMemoryExport]

theorem memoryExportName_of_unexported (himported : memory.isImported = false)
    (h : ∀ e ∈ s.exports, e.kind ≠ .memory) :
    memoryExportName order s memory = some (freeMemoryName s "memory" s.exports.length) := by
  have hfind : (order.1 s.exports).find? (·.kind = .memory) = none := by
    simpa [List.find?_eq_none, (order.2 s.exports).mem_iff] using h
  simp [memoryExportName, himported, hfind]

theorem memoryNamed (order : ExportOrder) (s : Summary) (memory : MemoryInfo) :
    MemoryNamed order s memory where
  imported h := if_pos h
  exported himported := by
    rintro ⟨e, he, hkind⟩
    have hperm := order.2 s.exports
    cases hfind : (order.1 s.exports).find? (·.kind = .memory) with
    | none => exact absurd hkind (by simpa using List.find?_eq_none.1 hfind e (hperm.mem_iff.2 he))
    | some first =>
      refine ⟨first, hperm.mem_iff.1 (List.mem_of_find?_eq_some hfind),
        by simpa using List.find?_some hfind, ?_⟩
      simp [memoryExportName, himported, hfind]
  unexported himported hkind := by
    obtain ⟨k, hk, hsearch⟩ := nameSearch_freeMemoryName s "memory"
    obtain ⟨hfound, hleast⟩ := nameSearch_iff.1 hsearch
    refine ⟨k, _, fun k' found' => ⟨fun h => h.unique hsearch, ?_⟩, hk, ?_, ?_,
      memoryExportName_of_unexported himported hkind⟩
    · rintro ⟨rfl, rfl⟩
      exact hsearch
    · rw [hfound, underscored_eq]
    · simpa only [underscored_eq, export_eq_none_iff] using hleast
  added name := by
    -- Whether there is an export is asked before, and the name is not looked at if there is one.
    rw [Instrument.addedMemoryExport]
    cases hexport : hasMemoryExport s with
    | true =>
      have hsome : ¬∀ e ∈ s.exports, e.kind ≠ .memory := by
        rw [← hasMemoryExport_eq_false, hexport]
        decide
      simp [hsome]
    | false =>
      have hkind := hasMemoryExport_eq_false.1 hexport
      cases himported : memory.isImported with
      | true => simp [memoryExportName, himported]
      | false => simpa using fun _ => hkind

end

end Metering

/-! ## The name that is added -/

/-- A name is only added for a memory of the module's own. -/
theorem Instrument.addedMemoryExport_eq {order : ExportOrder} {s : Summary} {memory : MemoryInfo} {name : String}
    (h : name ∈ addedMemoryExport order s memory) : memory.isImported = false ∧
      name = freeMemoryName s "memory" s.exports.length := by
  obtain ⟨himported, hkind, hname⟩ := ((memoryNamed order s memory).added name).1 h
  rw [memoryExportName_of_unexported himported hkind] at hname
  exact ⟨himported, (Option.some.inj hname).symm⟩

/-- It begins like the word `memory`. -/
theorem Instrument.head_addedMemoryExport {order : ExportOrder} {s : Summary}
    {memory : MemoryInfo} {name : String} (h : name ∈ addedMemoryExport order s memory) : name.toList.head? = some 'm' := by
  obtain ⟨k, -, hname, -⟩ := freeMemoryName_eq s "memory" s.exports.length
  rw [(addedMemoryExport_eq h).2, hname, head_underscored (by decide)]
  rfl

section
variable {binary : Bytes} {s : Summary} {m : Module} (hs : Summary.of binary = .ok s)
  (hm : Module.decode? .full binary = some m)
include hs hm

/-- What is exported under a name is in the summary under that name. -/
theorem isSome_export_of_mem {e : Export} (he : e ∈ m.exports) :
    (s.export? e.name).isSome = true := by
  have hkept (items exports : List Export) (h : e.name ∈ (exports ++ items).map Export.name) :
      e.name ∈ (items.foldl Summary.insertExport exports).map Export.name := by
    induction items generalizing exports with
    | nil => simpa using h
    | cons x items ih =>
      refine ih _ ?_
      simp only [Summary.insertExport, List.map_append, List.mem_append, List.map_cons,
        List.mem_cons, List.map_nil, List.not_mem_nil, or_false] at h ⊢
      by_cases hx : e.name = x.name
      · exact .inl (.inr hx)
      · refine h.imp (fun h => .inl ?_) fun h => h.resolve_left hx
        obtain ⟨e', he', hname⟩ := List.mem_map.1 h
        exact List.mem_map.2 ⟨e', List.mem_filter.2 ⟨he', by simpa [hname] using hx⟩, hname⟩
  have hname : e.name ∈ s.exports.map Export.name := by
    rw [summary_exports hs hm]
    exact hkept m.exports [] (List.mem_map_of_mem he)
  obtain ⟨e', he', hsame⟩ := List.mem_map.1 hname
  exact List.find?_isSome.2 ⟨e', he', decide_eq_true hsame⟩

/-- The name that the memory is exported under, if it has none, is not that of another export. -/
theorem Instrument.addedMemoryExport_free {order : ExportOrder} {memory : MemoryInfo} {name : String}
    (hname : name ∈ addedMemoryExport order s memory) : ∀ e ∈ m.exports, e.name ≠ name := by
  rintro e he rfl
  have htaken := isSome_export_of_mem hs hm he
  rw [(addedMemoryExport_eq hname).2, export_freeMemoryName] at htaken
  cases htaken

end

/-! ## In the metered module -/

namespace Metering

section
variable {binary : Bytes} {order : ExportOrder} {s : Summary} {memory : MemoryInfo} {rules : Rules}
  {m m' : Module}
  (hm : Module.decode? .full binary = some m)
  (hmeter : meterModule? (.of s rules (Instrument.addedMemoryExport order s memory)) m = some m')
include hm hmeter

theorem exports_of_meter : m'.exports = m.exports.map (Export.mapFunc (shift s.hookIndex)) ++
    (Instrument.addedMemoryExport order s memory).toList.map (⟨·, .memory, 0⟩) :=
  (items_of_meter (ordered_of_decode hm) hmeter).exports

/-- A memory of the module's own is exported by the metered module, under the name that has been
chosen for it. -/
theorem exists_memoryExport (hs : Summary.of binary = .ok s)
    (himported : memory.isImported = false) :
    ∃ e ∈ m'.exports, e.kind = .memory ∧ memoryExportName order s memory = some e.name := by
  have hnamed := memoryNamed order s memory
  rw [exports_of_meter hm hmeter]
  by_cases hexported : ∃ e ∈ s.exports, e.kind = .memory
  · obtain ⟨e, he, hkind, hname⟩ := hnamed.exported himported hexported
    refine ⟨e, List.mem_append_left _ (List.mem_map.2 ⟨e, ?_, ?_⟩), hkind, hname⟩
    · exact mem_exports_of_summary hs hm e he
    · exact Export.mapFunc_of_ne_func _ (by simp [hkind])
  · have hkind : ∀ e ∈ s.exports, e.kind ≠ .memory := by simpa using hexported
    have hname : memoryExportName order s memory = some _ :=
      memoryExportName_of_unexported himported hkind
    have hadded := (hnamed.added _).2 ⟨himported, hkind, hname⟩
    rw [hadded]
    exact ⟨_, List.mem_append_right _ (List.mem_singleton_self _), rfl, hname⟩

end

end Metering

end MeteredWasm
