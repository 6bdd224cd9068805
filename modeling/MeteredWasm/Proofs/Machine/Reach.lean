import Mathlib.Logic.Relation
import MeteredWasm.Machine.Run

/-!
# Reachable states and ends

`Reaches i s s'`: steps of the instance lead from `s` to `s'`. A run that ends does so with the
step that follows a reachable state (`Ends`, `ends_iff`); there is at most one end.
-/

set_option autoImplicit false

namespace MeteredWasm.Machine

/-- Steps lead from one state to the other. -/
abbrev Reaches (i : Instance) : State → State → Prop :=
  Relation.ReflTransGen fun s s' => step i s = .next s'

/-- The end that a step leads to, if it leads to one. -/
def Step.outcome? : Step → Option Outcome
  | .next _ => none
  | .finished results sandbox => some (.finished results sandbox)
  | .failed error sandbox => some (.failed error sandbox)

/-- The run from `s` on ends with `o`. -/
def Ends (i : Instance) (s : State) (o : Outcome) : Prop := ∃ fuel, run i fuel s = some o

section
variable {i : Instance} {s s' : State} {o o' : Outcome}

theorem Step.eq_finished {result : Step} {results : List Wasm.Value} {sandbox : Sandbox}
    (h : result.outcome? = some (.finished results sandbox)) :
    result = .finished results sandbox := by
  cases result <;> cases h
  rfl

theorem Step.eq_failed {result : Step} {error : ExecutionError} {sandbox : Sandbox}
    (h : result.outcome? = some (.failed error sandbox)) : result = .failed error sandbox := by
  cases result <;> cases h
  rfl

theorem run_succ_of_next (h : step i s = .next s') (fuel : Nat) :
    run i (fuel + 1) s = run i fuel s' := by
  rw [run, h]

theorem run_succ_of_outcome (h : (step i s).outcome? = some o) (fuel : Nat) :
    run i (fuel + 1) s = some o := by
  rw [run]
  cases hs : step i s <;> rw [hs] at h <;> simp_all [Step.outcome?]

theorem Reaches.ends (h : Reaches i s s') (he : Ends i s' o) : Ends i s o := by
  induction h using Relation.ReflTransGen.head_induction_on with
  | refl => exact he
  | head hs _ ih =>
    obtain ⟨fuel, hrun⟩ := ih
    exact ⟨fuel + 1, (run_succ_of_next hs fuel).trans hrun⟩

/-- What has been run ends as it would have from any state on the way. -/
theorem Reaches.ends_after (h : Reaches i s s') (he : Ends i s o) : Ends i s' o := by
  induction h with
  | refl => exact he
  | tail _ hstep ih =>
    obtain ⟨fuel, hrun⟩ := ih
    cases fuel with
    | zero => cases hrun
    | succ fuel => exact ⟨fuel, (run_succ_of_next hstep fuel).symm.trans hrun⟩

theorem ends_iff : Ends i s o ↔ ∃ s', Reaches i s s' ∧ (step i s').outcome? = some o := by
  constructor
  · rintro ⟨fuel, h⟩
    induction fuel generalizing s with
    | zero => cases h
    | succ fuel ih =>
      rw [run] at h
      cases hs : step i s with
      | next s₁ =>
        rw [hs] at h
        obtain ⟨s', hreach, ho⟩ := ih h
        exact ⟨s', .head hs hreach, ho⟩
      | _ =>
        rw [hs] at h
        exact ⟨s, .refl, by rw [hs]; exact h⟩
  · rintro ⟨s', hreach, ho⟩
    exact hreach.ends ⟨1, run_succ_of_outcome ho 0⟩

/-- A run does not end in two ways. -/
theorem Ends.unique (h : Ends i s o) (h' : Ends i s o') : o = o' := by
  obtain ⟨fuel, h⟩ := h
  obtain ⟨fuel', h'⟩ := h'
  have hmore := run_add h fuel'
  have hmore' := run_add h' fuel
  rw [Nat.add_comm, hmore] at hmore'
  exact Option.some.inj hmore'

end

end MeteredWasm.Machine
