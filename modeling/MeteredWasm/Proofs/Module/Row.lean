import Mathlib.Algebra.GroupWithZero.Nat
import MeteredWasm.Wasm.Module.Spaces

/-!
# The row of sections of a decoded module

What the outline of a binary demands of the row of its sections holds of the decoded sections: no
two are of one kind and they come in the standard order (`Ordered`), and there are as many bodies
as there are functions (`length_bodies`).

Both come from what each section adds to the progress through the row (`Passes`).
-/

set_option autoImplicit false

namespace MeteredWasm.Wasm

open Leb128

/-! ## Counts -/

theorem length_of_times {α : Type} {item : Reader α} {n : Nat} {input rest : Bytes} {xs : List α}
    (h : Reader.times n item input = some (xs, rest)) : xs.length = n := by
  induction n generalizing input rest xs with
  | zero =>
    simp only [Reader.times, Reader.pure_apply, Option.some.injEq, Prod.mk.injEq] at h
    simp [← h.1]
  | succ n ih =>
    simp only [Reader.times, Reader.bind_apply, Option.bind_eq_some_iff, Prod.exists,
      Reader.pure_apply, Option.some.injEq, Prod.mk.injEq] at h
    obtain ⟨x, _, -, ys, _, hy, rfl, -⟩ := h
    simp [ih hy]

theorem readUnsigned_of_readVec {α : Type} {item : Reader α} {input rest : Bytes} {xs : List α}
    (h : readVec item input = some (xs, rest)) :
    ((readUnsigned 32).run input).map Prod.fst = some xs.length := by
  simp only [readVec, Reader.bind_apply, Option.bind_eq_some_iff, Prod.exists] at h
  obtain ⟨n, left, hn, ht⟩ := h
  simp [StateT.run, hn, length_of_times ht]

theorem whole_eq_some {α : Type} {item : Reader α} {input : Bytes} {x : α} :
    Reader.whole item input = some x ↔ item input = some (x, []) := by
  unfold Reader.whole
  split <;> simp_all

theorem length_of_mapM {α β : Type} {f : α → Option β} {xs : List α} {ys : List β}
    (h : xs.mapM f = some ys) : ys.length = xs.length := by
  induction xs generalizing ys with
  | nil => simp_all
  | cons x xs ih =>
    simp only [List.mapM_cons, Option.pure_def, Option.bind_eq_bind, Option.bind_eq_some_iff,
      Option.some.injEq] at h
    obtain ⟨y, -, zs, hz, rfl⟩ := h
    simp [ih hz]

theorem getElem_of_mapM {α β : Type} {f : α → Option β} {xs : List α} {ys : List β}
    (h : xs.mapM f = some ys) {k : Nat} {y : β} (hy : ys[k]? = some y) :
    ∃ x, xs[k]? = some x ∧ f x = some y := by
  induction xs generalizing ys k with
  | nil =>
    cases h
    cases hy
  | cons x xs ih =>
    simp only [List.mapM_cons, Option.bind_eq_bind, Option.bind_eq_some_iff, Option.pure_def,
      Option.some.injEq] at h
    obtain ⟨z, hz, zs, hzs, rfl⟩ := h
    cases k with
    | zero =>
      cases hy
      exact ⟨x, rfl, hz⟩
    | succ k => exact ih hzs hy

/-- What can be read off each item and off what is made of it can be read off both lists. -/
theorem map_of_mapM {α β γ : Type} {f : α → Option β} {xs : List α} {ys : List β} {get : β → γ}
    {get' : α → γ} (h : xs.mapM f = some ys) (hf : ∀ x y, f x = some y → get y = get' x) :
    ys.map get = xs.map get' := by
  induction xs generalizing ys with
  | nil =>
    cases h
    rfl
  | cons x xs ih =>
    simp only [List.mapM_cons, Option.bind_eq_bind, Option.bind_eq_some_iff, Option.pure_def,
      Option.some.injEq] at h
    obtain ⟨y, hy, zs, hzs, rfl⟩ := h
    rw [List.map_cons, List.map_cons, hf x y hy, ih hzs]

theorem mem_of_mapM {α β : Type} {f : α → Option β} {xs : List α} {ys : List β}
    (h : xs.mapM f = some ys) {y : β} (hy : y ∈ ys) : ∃ x ∈ xs, f x = some y := by
  obtain ⟨k, hk⟩ := List.mem_iff_getElem?.1 hy
  obtain ⟨x, hx, hf⟩ := getElem_of_mapM h hk
  exact ⟨x, List.mem_of_getElem? hx, hf⟩

theorem exists_mapM {α β : Type} {f : α → Option β} {xs : List α}
    (h : ∀ x ∈ xs, ∃ y, f x = some y) : ∃ ys, xs.mapM f = some ys := by
  induction xs with
  | nil => exact ⟨[], rfl⟩
  | cons x xs ih =>
    obtain ⟨hx, hxs⟩ := List.forall_mem_cons.1 h
    obtain ⟨y, hy⟩ := hx
    obtain ⟨ys, hys⟩ := ih hxs
    exact ⟨y :: ys, by rw [List.mapM_cons, hy, hys]; rfl⟩

namespace Section

/-- How many functions a section declares. -/
def functionCount : Section → Nat
  | .functions indices => indices.length
  | _ => 0

/-- How many bodies a section holds. -/
def bodyCount : Section → Nat
  | .code bodies => bodies.length
  | _ => 0

variable {dialect : Dialect} {kind : SectionKind} {contents : Bytes} {s : Section}

theorem kind_of_ofContents (h : ofContents? dialect kind contents = some s) :
    s.kind? = some kind := by
  cases kind <;> simp only [ofContents?, Option.map_eq_some_iff] at h <;>
    obtain ⟨_, -, rfl⟩ := h <;> rfl

theorem functionCount_of_kind (h : s.kind? ≠ some .functions) : s.functionCount = 0 := by
  cases s <;> first | rfl | exact absurd rfl h

theorem bodyCount_of_kind (h : s.kind? ≠ some .code) : s.bodyCount = 0 := by
  cases s <;> first | rfl | exact absurd rfl h

theorem count_functions {n : Nat} (h : ofContents? dialect .functions contents = some s)
    (hn : SectionKind.functions.count? contents = some n) : s.functionCount = n := by
  simp only [ofContents?, Option.map_eq_some_iff, whole_eq_some] at h
  obtain ⟨indices, ht, rfl⟩ := h
  change indices.length = n
  simpa [SectionKind.count?, readUnsigned_of_readVec ht] using hn

theorem count_code {n : Nat} (h : ofContents? dialect .code contents = some s)
    (hn : SectionKind.code.count? contents = some n) : s.bodyCount = n := by
  simp only [ofContents?, bodies?, Option.map_eq_some_iff, Option.bind_eq_bind,
    Option.bind_eq_some_iff] at h
  obtain ⟨bodies, ⟨raws, hr, hb⟩, rfl⟩ := h
  simp only [SectionKind.count?, hr, Option.map_some, Option.some.injEq] at hn
  rw [← hn]
  exact length_of_mapM hb

end Section

/-! ## The invariant of progress -/

/-- What has been counted belongs to sections that lie behind, and bodies have been compared with
functions. -/
structure Progress.Sound (p : Progress) : Prop where
  functions : p.functions.isSome → SectionKind.functions.rank ≤ p.rank
  bodies : p.bodies.isSome →
    SectionKind.code.rank ≤ p.rank ∧ p.bodies.getD 0 = p.functions.getD 0

theorem Progress.sound_start : Progress.start.Sound := ⟨by simp [start], by simp [start]⟩

/-- `Passes p s q`: the progress goes from `p` past a section `s` to `q`. -/
structure Passes (p : Progress) (s : Section) (q : Progress) : Prop where
  sound : q.Sound
  functions : q.functions.getD 0 = p.functions.getD 0 + s.functionCount
  bodies : q.bodies.getD 0 = p.bodies.getD 0 + s.bodyCount
  behind : ∀ kind ∈ s.kind?, p.rank < kind.rank ∧ q.rank = kind.rank
  mono : p.rank ≤ q.rank

theorem next_of_known {p q : Progress} {kind : SectionKind} {contents : Bytes}
    (h : p.next? (.known kind contents) = some q) :
    ∃ n, kind.count? contents = some n ∧ p.rank < kind.rank ∧ q.rank = kind.rank ∧
      q.functions = (if kind = .functions then some n else p.functions) ∧
      q.bodies = (if kind = .code then some n else p.bodies) ∧
      (kind = .code → p.functions.getD 0 = n) := by
  unfold Progress.next? at h
  simp only at h
  split at h
  · cases h
  rename_i hrank
  cases hc : kind.count? contents with
  | none => simp [hc] at h
  | some n =>
    simp only [hc] at h
    refine ⟨n, rfl, by omega, ?_⟩
    cases kind <;> simp only [Option.some.injEq, Option.ite_none_right_eq_some] at h <;>
      first | (subst h; simp) | (obtain ⟨hn, rfl⟩ := h; simp [hn])

theorem behind_of_kind {p q : Progress} {s : Section} {kind : SectionKind}
    (hkind : s.kind? = some kind) (hlt : p.rank < kind.rank) (hq : q.rank = kind.rank) :
    ∀ k ∈ s.kind?, p.rank < k.rank ∧ q.rank = k.rank := by
  rw [hkind]
  rintro _ ⟨⟩
  exact ⟨hlt, hq⟩

section
variable {dialect : Dialect} {p q : Progress} {kind : SectionKind} {contents : Bytes} {s : Section}
  (hp : p.Sound) (hs : Section.ofContents? dialect kind contents = some s)
include hp hs

/-- The section of functions comes before there are any functions or bodies. -/
theorem passes_functions (hkind : kind = .functions)
    (hn : p.next? (.known kind contents) = some q) : Passes p s q := by
  subst hkind
  have hkind := Section.kind_of_ofContents hs
  obtain ⟨n, hcount, hrank, hq, hf, hb, -⟩ := next_of_known hn
  rw [if_pos rfl] at hf
  rw [if_neg (by decide)] at hb
  have hnone : p.functions = none := by
    simpa using mt hp.functions (by omega)
  have hnob : p.bodies = none := by
    simpa using mt hp.bodies (fun h => absurd h.1 (by simp only [SectionKind.rank] at *; omega))
  have hbodies := Section.bodyCount_of_kind (s := s) (by simp [hkind])
  constructor
  case sound => exact ⟨fun _ => Nat.le_of_eq hq.symm, by simp [hb, hnob]⟩
  case functions => simp [hf, hnone, Section.count_functions hs hcount]
  case bodies => simp [hb, hnob, hbodies]
  case behind => exact behind_of_kind hkind hrank hq
  case mono => omega

/-- The section of code has as many bodies as there are functions. -/
theorem passes_code (hkind : kind = .code) (hn : p.next? (.known kind contents) = some q) :
    Passes p s q := by
  subst hkind
  have hkind := Section.kind_of_ofContents hs
  obtain ⟨n, hcount, hrank, hq, hf, hb, hcode⟩ := next_of_known hn
  rw [if_neg (by decide)] at hf
  rw [if_pos rfl] at hb
  have hnob : p.bodies = none := by
    simpa using mt hp.bodies (fun h => absurd h.1 (by omega))
  have hfunctions := Section.functionCount_of_kind (s := s) (by simp [hkind])
  constructor
  case sound =>
    refine ⟨fun h => ?_, fun _ => ⟨by omega, by simp [hb, hf, hcode rfl]⟩⟩
    have := hp.functions (hf ▸ h)
    omega
  case functions => simp [hf, hfunctions]
  case bodies => simp [hb, hnob, Section.count_code hs hcount]
  case behind => exact behind_of_kind hkind hrank hq
  case mono => omega

/-- Any other known section leaves the counts as they are. -/
theorem passes_other (hkf : kind ≠ .functions) (hkc : kind ≠ .code)
    (hn : p.next? (.known kind contents) = some q) : Passes p s q := by
  have hkind := Section.kind_of_ofContents hs
  obtain ⟨n, -, hrank, hq, hf, hb, -⟩ := next_of_known hn
  rw [if_neg hkf] at hf
  rw [if_neg hkc] at hb
  have hfunctions := Section.functionCount_of_kind (s := s) (by simp [hkind, hkf])
  have hbodies := Section.bodyCount_of_kind (s := s) (by simp [hkind, hkc])
  constructor
  case sound =>
    refine ⟨fun h => ?_, fun h => ?_⟩
    · have := hp.functions (hf ▸ h)
      omega
    · have hcode := hp.bodies (hb ▸ h)
      rw [hf, hb]
      exact ⟨by omega, hcode.2⟩
  case functions => simp [hf, hfunctions]
  case bodies => simp [hb, hbodies]
  case behind => exact behind_of_kind hkind hrank hq
  case mono => omega

end

/-- Going past a section. -/
theorem passes_of_next {dialect : Dialect} {p q : Progress} {raw : RawSection} {s : Section}
    (hp : p.Sound) (hs : Section.ofRaw? dialect raw = some s) (hn : p.next? raw = some q) :
    Passes p s q := by
  cases raw with
  | custom name contents =>
    cases hs
    cases hn
    exact ⟨hp, rfl, rfl, by simp [Section.kind?], Nat.le_refl _⟩
  | unknown id => cases hs
  | known kind contents =>
    by_cases hkf : kind = .functions
    · exact passes_functions hp hs hkf hn
    · by_cases hkc : kind = .code
      · exact passes_code hp hs hkc hn
      · exact passes_other hp hs hkf hkc hn

/-- Going past a row of sections, one after another. -/
inductive Passed (dialect : Dialect) : Progress → List Section → Progress → Prop
  | nil {p : Progress} : Passed dialect p [] p
  | cons {p p' q : Progress} {raw : RawSection} {s : Section} {rest : List Section}
      (next : p.next? raw = some p') (read : Section.ofRaw? dialect raw = some s)
      (behind : Passed dialect p' rest q) : Passed dialect p (s :: rest) q

theorem passed_of_mapM {dialect : Dialect} {raws : List RawSection} {sections : List Section}
    {p q : Progress} (hn : raws.foldlM Progress.next? p = some q)
    (hs : raws.mapM (Section.ofRaw? dialect) = some sections) : Passed dialect p sections q := by
  induction raws generalizing p sections with
  | nil =>
    simp only [List.foldlM_nil, Option.pure_def, Option.some.injEq, List.mapM_nil] at hn hs
    subst hn hs
    exact .nil
  | cons raw raws ih =>
    simp only [List.foldlM_cons, List.mapM_cons, Option.bind_eq_bind, Option.bind_eq_some_iff,
      Option.pure_def, Option.some.injEq] at hn hs
    obtain ⟨p', hraw, hn⟩ := hn
    obtain ⟨s, hsec, rest, hrest, rfl⟩ := hs
    exact .cons hraw hsec (ih hn hrest)

/-- Known sections come in the standard order, each at most once. -/
def Ordered (sections : List Section) : Prop :=
  (sections.filterMap Section.kind?).Pairwise (·.rank < ·.rank)

/-- A section that may follow everything of rank `rank`. -/
def behindRank (rank : Nat) (s : Section) : Prop := ∀ kind ∈ s.kind?, rank < kind.rank

theorem ordered_cons {s : Section} {rest : List Section} :
    Ordered (s :: rest) ↔
      (∀ kind ∈ s.kind?, ∀ t ∈ rest, behindRank kind.rank t) ∧ Ordered rest := by
  unfold Ordered
  cases hk : s.kind? with
  | none => simp [List.filterMap_cons_none hk]
  | some kind =>
    rw [List.filterMap_cons_some hk, List.pairwise_cons]
    simp only [List.mem_filterMap, Option.mem_def, Option.some.injEq, forall_eq', behindRank]
    constructor
    · intro h
      exact ⟨fun t ht k hkt => h.1 k ⟨t, ht, hkt⟩, h.2⟩
    · intro h
      refine ⟨fun k hk' => ?_, h.2⟩
      obtain ⟨t, ht, hkt⟩ := hk'
      exact h.1 t ht k hkt

/-- What a run over a whole row of sections adds up to. -/
theorem passes_all {dialect : Dialect} {sections : List Section} {p q : Progress} (hp : p.Sound)
    (h : Passed dialect p sections q) :
    q.Sound ∧ Ordered sections ∧ (∀ s ∈ sections, behindRank p.rank s) ∧
      q.functions.getD 0 = p.functions.getD 0 + (sections.map Section.functionCount).sum ∧
      q.bodies.getD 0 = p.bodies.getD 0 + (sections.map Section.bodyCount).sum := by
  induction h with
  | nil => exact ⟨hp, .nil, by simp, by simp, by simp⟩
  | @cons p p' q raw s rest hraw hsec _ ih =>
    have hpass := passes_of_next hp hsec hraw
    obtain ⟨hq, hord, hbehind, hf, hb⟩ := ih hpass.sound
    refine ⟨hq, ?_, ?_, ?_, ?_⟩
    · unfold Ordered
      cases hk : s.kind? with
      | none => rwa [List.filterMap_cons_none hk]
      | some kind =>
        rw [List.filterMap_cons_some hk, List.pairwise_cons]
        refine ⟨fun k hmem => ?_, hord⟩
        obtain ⟨t, ht, hkt⟩ := List.mem_filterMap.1 hmem
        have := hbehind t ht k hkt
        rwa [(hpass.behind kind hk).2] at this
    · intro t ht kind hkt
      rcases List.mem_cons.1 ht with rfl | ht
      · exact (hpass.behind kind hkt).1
      · exact Nat.lt_of_le_of_lt hpass.mono (hbehind t ht kind hkt)
    · rw [hf, hpass.functions, List.map_cons, List.sum_cons]
      omega
    · rw [hb, hpass.bodies, List.map_cons, List.sum_cons]
      omega

/-! ## Decoded modules -/

theorem progress_of_outline {header : Header} {n : Nat} {p : Progress} {input : Bytes}
    {raws : List RawSection} (h : outlineFrom header n p input = (raws, true)) :
    ∃ q, raws.foldlM Progress.next? p = some q ∧ q.complete = true := by
  induction n generalizing p input raws with
  | zero =>
    cases input with
    | nil =>
      simp only [outlineFrom, Prod.mk.injEq] at h
      obtain ⟨rfl, hc⟩ := h
      exact ⟨p, rfl, hc⟩
    | cons b input => simp [outlineFrom] at h
  | succ n ih =>
    cases input with
    | nil =>
      simp only [outlineFrom, Prod.mk.injEq] at h
      obtain ⟨rfl, hc⟩ := h
      exact ⟨p, rfl, hc⟩
    | cons b input =>
      simp only [outlineFrom] at h
      split at h
      · simp at h
      · rename_i raw rest hread
        split at h
        · simp at h
        · rename_i p' hnext
          simp only [Prod.mk.injEq] at h
          obtain ⟨rfl, hc⟩ := h
          obtain ⟨q, hq, hcomplete⟩ := ih (p := p') (Prod.ext rfl hc)
          exact ⟨q, by simp [List.foldlM_cons, hnext, hq], hcomplete⟩

theorem sum_functionCount (m : Module) :
    (m.sections.map Section.functionCount).sum = m.functions.length := by
  rw [Module.functions, List.length_flatMap]
  congr 1
  exact List.map_congr_left fun s _ => by cases s <;> rfl

theorem sum_bodyCount (m : Module) :
    (m.sections.map Section.bodyCount).sum = m.bodies.length := by
  rw [Module.bodies, List.length_flatMap]
  congr 1
  exact List.map_congr_left fun s _ => by cases s <;> rfl

section
variable {dialect : Dialect} {binary : Bytes} {m : Module}

theorem decode_eq_some (h : Module.decode? dialect binary = some m) :
    ∃ (raws : List RawSection) (q : Progress),
      raws.foldlM Progress.next? .start = some q ∧ q.complete = true ∧
      raws.mapM (Section.ofRaw? dialect) = some m.sections := by
  unfold Module.decode? at h
  split at h
  · rename_i sections houtline
    simp only [Option.map_eq_some_iff] at h
    obtain ⟨secs, hsecs, rfl⟩ := h
    unfold Outline.of? at houtline
    split at houtline
    · cases houtline
    · simp only [Option.some.injEq, Outline.mk.injEq] at houtline
      obtain ⟨-, rfl, hc⟩ := houtline
      obtain ⟨q, hq, hcomplete⟩ := progress_of_outline (Prod.ext rfl hc)
      exact ⟨_, q, hq, hcomplete, hsecs⟩
  · cases h

theorem ordered_of_decode (h : Module.decode? dialect binary = some m) : Ordered m.sections := by
  obtain ⟨raws, q, hq, -, hs⟩ := decode_eq_some h
  exact (passes_all Progress.sound_start (passed_of_mapM hq hs)).2.1

/-- There is a body for every function, and no other. -/
theorem length_bodies (h : Module.decode? dialect binary = some m) :
    m.bodies.length = m.functions.length := by
  obtain ⟨raws, q, hq, hc, hs⟩ := decode_eq_some h
  obtain ⟨hsound, -, -, hf, hb⟩ := passes_all Progress.sound_start (passed_of_mapM hq hs)
  rw [sum_functionCount] at hf
  rw [sum_bodyCount] at hb
  simp only [Progress.start, Option.getD_none, Nat.zero_add] at hf hb
  rw [← hf, ← hb]
  cases hbodies : q.bodies with
  | some n =>
    have := (hsound.bodies (by simp [hbodies])).2
    rw [← this, hbodies]
  | none =>
    simp only [Progress.complete, hbodies, Option.isSome_none, Bool.or_false,
      Bool.and_eq_true, beq_iff_eq] at hc
    simp [hc.1]

end

end MeteredWasm.Wasm
