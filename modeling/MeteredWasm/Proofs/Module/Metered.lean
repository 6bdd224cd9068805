import Mathlib.Data.List.Basic
import MeteredWasm.Metering.Pass
import MeteredWasm.Proofs.Module.Row

/-!
# The items of a metered module

What metering makes of the items of a module, over all sections (`items_of_meter`): every item of
an ordered row of sections is changed in its place, and what the pass adds comes last among the
items of its kind, whether there was a section to add it to or not.
-/

set_option autoImplicit false

namespace MeteredWasm.Metering

open Wasm

/-- Metering changes a section of some kind into one of the same kind. -/
theorem kind_of_meterSection {plan : Plan} {s s' : Section} (h : meterSection? plan s = some s') :
    s'.kind? = s.kind? := by
  cases s
  case custom name contents =>
    simp only [meterSection?] at h
    split at h
    · rw [Option.map_eq_some_iff] at h
      obtain ⟨_, -, rfl⟩ := h
      rfl
    · cases h
      rfl
  all_goals
    cases h
    rfl

theorem rank_injective {k k' : SectionKind} (h : k.rank = k'.rank) : k = k' := by
  cases k <;> cases k' <;> first | rfl | cases h

/-! ## What is owed -/

/-- The section that is put in where a kind is owed. -/
def Plan.section? (plan : Plan) : SectionKind → Option Section
  | .types => some (.types [hookTypeEntry])
  | .imports => some (.imports [plan.hookImport])
  | .exports => some (.exports plan.addedExports)
  | _ => none

theorem Plan.kind_section {plan : Plan} {kind : SectionKind} {s : Section}
    (h : plan.section? kind = some s) : s.kind? = some kind := by
  cases kind <;> cases h <;> rfl

/-- Whether a section of this kind is owed. -/
def Owed.owes (owed : Owed) : SectionKind → Bool
  | .types => owed.types
  | .imports => owed.imports
  | .exports => owed.exports
  | _ => false

theorem Owed.owes_past (owed : Owed) (k kind : SectionKind) :
    (owed.past k).owes kind = (owed.owes kind && decide (k.rank < kind.rank)) := by
  cases kind <;> rfl

/-- What is put in front of a section is what is owed of the kinds that have to come before. -/
theorem mem_due {plan : Plan} {owed : Owed} {before : Option SectionKind} {s : Section} :
    s ∈ owed.due plan before ↔ ∃ kind, owed.owes kind = true ∧
      kind.rank < before.elim SectionKind.data.rank.succ SectionKind.rank ∧
      plan.section? kind = some s := by
  simp only [Owed.due, List.mem_append, List.mem_ite_nil_right, List.mem_singleton,
    Bool.and_eq_true, decide_eq_true_eq]
  constructor
  · rintro ((⟨⟨ho, hlt⟩, rfl⟩ | ⟨⟨ho, hlt⟩, rfl⟩) | ⟨⟨ho, hlt⟩, rfl⟩)
    · exact ⟨.types, ho, hlt, rfl⟩
    · exact ⟨.imports, ho, hlt, rfl⟩
    · exact ⟨.exports, ho, hlt, rfl⟩
  · rintro ⟨kind, ho, hlt, hs⟩
    cases kind <;> cases hs
    · exact .inl (.inl ⟨⟨ho, hlt⟩, rfl⟩)
    · exact .inl (.inr ⟨⟨ho, hlt⟩, rfl⟩)
    · exact .inr ⟨⟨ho, hlt⟩, rfl⟩

/-! ## Rows of sections -/

/-- What metering makes of a row of sections: each is metered in its place, and what is owed is put
in front of the first section of a known kind that has to come later, or at the end. -/
inductive MeteredRow (plan : Plan) : Owed → List Section → List Section → Prop
  | done (owed : Owed) : MeteredRow plan owed [] (owed.due plan none)
  | custom {owed : Owed} {s s' : Section} {rest rest' : List Section} (kind : s.kind? = none)
      (metered : meterSection? plan s = some s') (row : MeteredRow plan owed rest rest') :
      MeteredRow plan owed (s :: rest) (s' :: rest')
  | known {owed : Owed} {s s' : Section} {rest rest' : List Section} {k : SectionKind}
      (kind : s.kind? = some k) (metered : meterSection? plan s = some s')
      (row : MeteredRow plan (owed.past k) rest rest') :
      MeteredRow plan owed (s :: rest) (owed.due plan (some k) ++ s' :: rest')

theorem row_of_meterSections {plan : Plan} {owed : Owed} {sections sections' : List Section}
    (hs : meterSections? plan owed sections = some sections') :
    MeteredRow plan owed sections sections' := by
  induction sections generalizing owed sections' with
  | nil =>
    cases hs
    exact .done owed
  | cons s rest ih =>
    simp only [meterSections?, Option.bind_eq_bind, Option.bind_eq_some_iff] at hs
    obtain ⟨s', hmetered, hs⟩ := hs
    cases hk : s.kind? with
    | none =>
      simp only [hk, Option.bind_eq_some_iff, Option.pure_def, Option.some.injEq] at hs
      obtain ⟨rest', hrest, rfl⟩ := hs
      exact .custom hk hmetered (ih hrest)
    | some k =>
      simp only [hk, Option.bind_eq_some_iff, Option.pure_def, Option.some.injEq] at hs
      obtain ⟨rest', hrest, rfl⟩ := hs
      exact .known hk hmetered (ih hrest)

/-- All that is added is owed in front of the first section. -/
theorem row_of_meter {plan : Plan} {m m' : Module} (h : meterModule? plan m = some m') :
    MeteredRow plan ⟨true, true, plan.memoryExport.isSome⟩ m.sections m'.sections := by
  simp only [meterModule?, Option.bind_eq_bind, Option.bind_eq_some_iff, Option.pure_def,
    Option.some.injEq] at h
  obtain ⟨sections, hs, rfl⟩ := h
  exact row_of_meterSections hs

section
variable {α : Type}

/-- How the pass treats the items that `get` finds in sections of the kind `kind`: it maps them, and
adds some where they are owed. -/
structure Treats (plan : Plan) (get : Section → List α) (kind : SectionKind) (change : α → α)
    (added : List α) : Prop where
  other : ∀ s, s.kind? ≠ some kind → get s = []
  section_ : ∀ s s', s.kind? = some kind → meterSection? plan s = some s' →
    get s' = (get s).map change ++ added
  due : ∀ (owed : Owed) (before : Option SectionKind), (owed.due plan before).flatMap get =
    if owed.owes kind &&
        decide (kind.rank < before.elim SectionKind.data.rank.succ SectionKind.rank)
      then added else []

theorem Treats.flatMap {plan : Plan} {get : Section → List α} {kind : SectionKind}
    {change : α → α} {added : List α} (h : Treats plan get kind change added) {owed : Owed}
    {sections sections' : List Section} (hord : Ordered sections)
    (howed : owed.owes kind = true ∨ added = [] ∨ ∀ s ∈ sections, s.kind? ≠ some kind)
    (hrow : MeteredRow plan owed sections sections') :
    sections'.flatMap get =
      (sections.flatMap get).map change ++ (if owed.owes kind then added else []) := by
  induction hrow with
  | done owed =>
    rw [h.due]
    have hrank : kind.rank < SectionKind.data.rank.succ := by cases kind <;> decide
    simp [hrank]
  | @custom owed s s' rest rest' hk hmetered hrow ih =>
    have hkind := kind_of_meterSection hmetered
    have hord' := (ordered_cons.1 hord).2
    rw [List.flatMap_cons, List.flatMap_cons, h.other s (by simp [hk]),
      h.other s' (by simp [hkind, hk]),
      ih hord' (howed.imp_right (Or.imp_right fun hn t ht => hn t (by simp [ht])))]
    rfl
  | @known owed s s' rest rest' k hk hmetered hrow ih =>
    have hkind := kind_of_meterSection hmetered
    obtain ⟨hbehind, hord'⟩ := ordered_cons.1 hord
    -- Sections behind one of this kind, or behind where one had to come, are of another.
    have hnone (hle : kind.rank ≤ k.rank) : ∀ t ∈ rest, t.kind? ≠ some kind := by
      intro t ht he
      have := hbehind k hk t ht kind he
      omega
    have hget (hle : kind.rank ≤ k.rank) : rest.flatMap get = [] :=
      List.flatMap_eq_nil_iff.2 fun t ht => h.other t (hnone hle t ht)
    rw [List.flatMap_append, List.flatMap_cons, List.flatMap_cons, h.due]
    by_cases hlt : k.rank < kind.rank
    · have hne : k ≠ kind := by
        rintro rfl
        omega
      have hpast : (owed.past k).owes kind = owed.owes kind := by simp [Owed.owes_past, hlt]
      have hearly : ¬(owed.owes kind && decide (kind.rank < k.rank)) = true := by
        simp only [Bool.and_eq_true, decide_eq_true_eq]
        omega
      rw [h.other s (by simp [hk, hne]), h.other s' (by simp [hkind, hk, hne]),
        ih hord' (hpast ▸ howed.imp_right (Or.imp_right fun hn t ht => hn t (by simp [ht]))),
        hpast, Option.elim_some, if_neg hearly]
      rfl
    · have hpast : (owed.past k).owes kind = false := by simp [Owed.owes_past, hlt]
      have hle : kind.rank ≤ k.rank := by omega
      rw [ih hord' (.inr (.inr (hnone hle))), hpast, hget hle]
      by_cases he : k = kind
      · subst he
        rw [h.section_ s s' hk hmetered]
        rcases howed with ho | ho | ho
        · simp [ho]
        · simp [ho]
        · exact absurd hk (ho s (by simp))
      · have hrank : kind.rank < k.rank := by
          have : kind.rank ≠ k.rank := fun e => he (rank_injective e).symm
          omega
        rw [h.other s (by simp [hk, he]), h.other s' (by simp [hkind, hk, he])]
        simp [hrank]

/-- Items of a kind that the pass adds nothing to. -/
theorem flatMap_of_meter {plan : Plan} {get : Section → List α} {change : α → α}
    (custom : ∀ name contents, get (.custom name contents) = [])
    (types : ∀ items, get (.types items) = []) (imports : ∀ items, get (.imports items) = [])
    (exports : ∀ items, get (.exports items) = [])
    (known : ∀ s s' k, s.kind? = some k → meterSection? plan s = some s' →
      get s' = (get s).map change ∨ k = .types ∨ k = .imports ∨ k = .exports)
    {owed : Owed} {sections sections' : List Section}
    (hrow : MeteredRow plan owed sections sections') :
    sections'.flatMap get = (sections.flatMap get).map change := by
  have hdue (owed : Owed) (before : Option SectionKind) :
      (owed.due plan before).flatMap get = [] := by
    refine List.flatMap_eq_nil_iff.2 fun s hs => ?_
    obtain ⟨kind, -, -, hs⟩ := mem_due.1 hs
    cases kind <;> cases hs
    · exact types _
    · exact imports _
    · exact exports _
  have hsection {s s' : Section} (h : meterSection? plan s = some s') :
      get s' = (get s).map change := by
    have hkind := kind_of_meterSection h
    cases hk : s.kind? with
    | none =>
      cases s <;> cases hk
      cases s' <;> cases hkind
      rw [custom, custom]
      rfl
    | some k =>
      rcases known s s' k hk h with h | rfl | rfl | rfl
      · exact h
      all_goals
        cases s <;> cases hk
        cases s' <;> cases hkind
      · rw [types, types, List.map_nil]
      · rw [imports, imports, List.map_nil]
      · rw [exports, exports, List.map_nil]
  induction hrow with
  | done owed => exact hdue _ _
  | custom _ hmetered _ ih =>
    rw [List.flatMap_cons, List.flatMap_cons, List.map_append, hsection hmetered, ih]
  | known _ hmetered _ ih =>
    rw [List.flatMap_append, hdue, List.nil_append, List.flatMap_cons, List.flatMap_cons,
      List.map_append, hsection hmetered, ih]

end

/-! ## Each kind of items -/

/-- What the metered module has of each kind. -/
structure MeteredItems (plan : Plan) (m m' : Module) : Prop where
  types : m'.types = m.types ++ [hookTypeEntry]
  imports : m'.imports = m.imports ++ [plan.hookImport]
  functions : m'.functions = m.functions
  tables : m'.tables = m.tables.map (Table.mapFunc (shift plan.hook))
  memories : m'.memories = m.memories
  globals : m'.globals = m.globals.map (Global.mapFunc (shift plan.hook))
  exports : m'.exports = m.exports.map (Export.mapFunc (shift plan.hook)) ++ plan.addedExports
  starts : m'.starts = m.starts.map (shift plan.hook)
  elements : m'.elements = m.elements.map (Element.mapFunc (shift plan.hook))
  bodies : m'.bodies = m.bodies.map (meterBody plan)
  datas : m'.datas = m.datas.map (Data.mapFunc (shift plan.hook))

theorem flatMap_ite_singleton {α : Type} (get : Section → List α) (c : Bool) (s : Section) :
    (if c then [s] else []).flatMap get = if c then get s else [] := by
  cases c <;> simp

section
variable (plan : Plan)

theorem treats_types : Treats plan (fun | .types items => items | _ => []) .types id
    [hookTypeEntry] where
  other s hk := by cases s <;> first | rfl | exact absurd rfl hk
  section_ s s' hk hs := by
    cases s <;> cases hk
    cases hs
    rw [List.map_id]
  due owed before := by
    simp only [Owed.due, List.flatMap_append, flatMap_ite_singleton, ite_self, List.append_nil]
    rfl

theorem treats_imports : Treats plan (fun | .imports items => items | _ => []) .imports id
    [plan.hookImport] where
  other s hk := by cases s <;> first | rfl | exact absurd rfl hk
  section_ s s' hk hs := by
    cases s <;> cases hk
    cases hs
    rw [List.map_id]
  due owed before := by
    simp only [Owed.due, List.flatMap_append, flatMap_ite_singleton, ite_self, List.append_nil,
      List.nil_append]
    rfl

theorem treats_exports : Treats plan (fun | .exports items => items | _ => []) .exports
    (Export.mapFunc (shift plan.hook)) plan.addedExports where
  other s hk := by cases s <;> first | rfl | exact absurd rfl hk
  section_ s s' hk hs := by
    cases s <;> cases hk
    cases hs
    rfl
  due owed before := by
    simp only [Owed.due, List.flatMap_append, flatMap_ite_singleton, ite_self, List.append_nil,
      List.nil_append]
    rfl

end

variable {plan : Plan} {m m' : Module}

theorem items_of_meter (hord : Ordered m.sections) (h : meterModule? plan m = some m') :
    MeteredItems plan m m' := by
  have hrow := row_of_meter h
  have hmap {α : Type} {get : Section → List α} (change : α → α) (h₀ h₁ h₂ h₃ h₄) :
      m'.sections.flatMap get = (m.sections.flatMap get).map change :=
    flatMap_of_meter h₀ h₁ h₂ h₃ h₄ hrow
  constructor
  case types =>
    refine ((treats_types plan).flatMap hord (.inl rfl) hrow).trans ?_
    rw [List.map_id]
    rfl
  case imports =>
    refine ((treats_imports plan).flatMap hord (.inl rfl) hrow).trans ?_
    rw [List.map_id]
    rfl
  case exports =>
    -- An export section is owed only where there is something to put into it.
    have hnone : (Owed.mk true true plan.memoryExport.isSome).owes .exports = true ∨
        plan.addedExports = [] := by
      cases he : plan.memoryExport <;> simp [Plan.addedExports, Owed.owes, he]
    refine ((treats_exports plan).flatMap hord (hnone.imp_right .inl) hrow).trans ?_
    rcases hnone with hsome | hnil
    · simp only [hsome, if_true]
      rfl
    · simp only [hnil, ite_self]
      rfl
  case functions | memories =>
    refine (hmap id (fun _ _ => rfl) (fun _ => rfl) (fun _ => rfl) (fun _ => rfl) ?_).trans
      (List.map_id _)
    intro s s' k hk hs
    cases s <;> cases hk <;> cases hs <;> simp
  all_goals
    refine hmap _ (fun _ _ => rfl) (fun _ => rfl) (fun _ => rfl) (fun _ => rfl) ?_
    intro s s' k hk hs
    cases s <;> cases hk <;> cases hs <;> simp

end MeteredWasm.Metering
