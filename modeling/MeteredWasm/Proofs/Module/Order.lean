import MeteredWasm.Proofs.Module.Metered

/-!
# The order of a metered row

Metering keeps the row of sections in order (`ordered_of_meter`): what it puts in stands where its
kind has its place.
-/

set_option autoImplicit false

namespace MeteredWasm.Wasm

/-! ## Ordered rows -/

theorem Ordered.append {front back : List Section} (hf : Ordered front) (hb : Ordered back)
    (h : ∀ s ∈ front, ∀ kind ∈ s.kind?, ∀ t ∈ back, behindRank kind.rank t) :
    Ordered (front ++ back) := by
  induction front with
  | nil => exact hb
  | cons s front ih =>
    rw [ordered_cons] at hf
    rw [List.cons_append, ordered_cons]
    refine ⟨fun kind hk t ht => ?_, ih hf.2 fun s hs => h s (List.mem_cons_of_mem _ hs)⟩
    rcases List.mem_append.1 ht with ht | ht
    · exact hf.1 kind hk t ht
    · exact h s (List.mem_cons_self ..) kind hk t ht

theorem behindRank_mono {rank rank' : Nat} {s : Section} (h : behindRank rank s)
    (hle : rank' ≤ rank) : behindRank rank' s :=
  fun kind hk => Nat.lt_of_le_of_lt hle (h kind hk)

end MeteredWasm.Wasm

namespace MeteredWasm.Metering

open Wasm

/-! ## Metering -/

section
variable {plan : Plan} {owed : Owed} {before : Option SectionKind}

theorem due_sublist (plan : Plan) (owed : Owed) (before : Option SectionKind) :
    (owed.due plan before).Sublist [.types [hookTypeEntry], .imports [plan.hookImport],
      .exports plan.addedExports] := by
  have hite (c : Bool) (s : Section) : (if c then [s] else []).Sublist [s] := by
    cases c
    · exact List.nil_sublist _
    · exact List.Sublist.refl _
  exact ((hite _ _).append (hite _ _)).append (hite _ _)

theorem ordered_due (plan : Plan) (owed : Owed) (before : Option SectionKind) :
    Ordered (owed.due plan before) := by
  have hall : Ordered [.types [hookTypeEntry], .imports [plan.hookImport],
      .exports plan.addedExports] := by
    change [SectionKind.types, .imports, .exports].Pairwise (·.rank < ·.rank)
    decide
  exact List.Pairwise.sublist ((due_sublist plan owed before).filterMap _) hall

/-- Of what is owed, only sections that may stand there are put in front of another. -/
theorem rank_lt_of_due {kind : SectionKind} {s : Section} (hs : s ∈ owed.due plan (some kind)) :
    ∀ k ∈ s.kind?, k.rank < kind.rank := by
  obtain ⟨kind', -, hlt, hs⟩ := mem_due.1 hs
  intro k hk
  rw [Plan.kind_section hs] at hk
  cases hk
  exact hlt

/-- Behind a section of a kind only sections of later kinds are still owed. -/
theorem behindRank_due_past {kind : SectionKind} {s : Section}
    (hs : s ∈ (owed.past kind).due plan before) : behindRank kind.rank s := by
  obtain ⟨kind', howes, -, hs⟩ := mem_due.1 hs
  rw [Owed.owes_past, Bool.and_eq_true, decide_eq_true_eq] at howes
  intro k hk
  rw [Plan.kind_section hs] at hk
  cases hk
  exact howes.2

theorem ordered_of_row {rank : Nat} {sections sections' : List Section}
    (hord : Ordered sections) (hbehind : ∀ s ∈ sections, behindRank rank s)
    (howed : ∀ before, ∀ s ∈ owed.due plan before, behindRank rank s)
    (hrow : MeteredRow plan owed sections sections') :
    Ordered sections' ∧ ∀ s ∈ sections', behindRank rank s := by
  induction hrow generalizing rank with
  | done owed => exact ⟨ordered_due _ _ _, howed none⟩
  | @custom owed s s' rest rest' hk hmetered hrow ih =>
    have hkind := kind_of_meterSection hmetered
    obtain ⟨hord₁, hbehind₁⟩ := ih (ordered_cons.1 hord).2
      (fun t ht => hbehind t (List.mem_cons_of_mem _ ht)) howed
    refine ⟨ordered_cons.2 ⟨by simp [hkind, hk], hord₁⟩, List.forall_mem_cons.2 ⟨?_, hbehind₁⟩⟩
    simp [behindRank, hkind, hk]
  | @known owed s s' rest rest' k hk hmetered hrow ih =>
    have hkind := (kind_of_meterSection hmetered).trans hk
    obtain ⟨hrest, hord'⟩ := ordered_cons.1 hord
    obtain ⟨hord₁, hbehind₁⟩ := ih hord' (hrest k hk) fun _ _ ht => behindRank_due_past ht
    have hmetered' {rank : Nat} (hrank : rank < k.rank) : ∀ t ∈ s' :: rest', behindRank rank t := by
      refine List.forall_mem_cons.2 ⟨fun k' hk' => ?_, fun t ht =>
        behindRank_mono (hbehind₁ t ht) (Nat.le_of_lt hrank)⟩
      rw [hkind] at hk'
      cases hk'
      exact hrank
    have hord₂ : Ordered (s' :: rest') := by
      refine ordered_cons.2 ⟨fun kind hkm => ?_, hord₁⟩
      rw [hkind] at hkm
      cases hkm
      exact hbehind₁
    constructor
    · exact (ordered_due plan owed (some k)).append hord₂ fun t ht kind hkt =>
        hmetered' (rank_lt_of_due ht kind hkt)
    · exact List.forall_mem_append.2 ⟨fun t ht => howed _ t ht,
        hmetered' (hbehind s (List.mem_cons_self ..) k hk)⟩

theorem ordered_of_meter {m m' : Module} (hord : Ordered m.sections)
    (h : meterModule? plan m = some m') : Ordered m'.sections := by
  have hpos (s : Section) : behindRank 0 s := fun kind _ => by cases kind <;> decide
  exact (ordered_of_row hord (fun s _ => hpos s) (fun _ s _ => hpos s) (row_of_meter h)).1

end

end MeteredWasm.Metering
