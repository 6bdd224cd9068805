import MeteredWasm.Proofs.Machine.Hook
import MeteredWasm.Proofs.Simulation.Metered

/-!
# Trails of a run

A run goes a trail, and ends with the step from the state that the trail leads to
(`exists_trail_of_run`, `Trail.run`). Trails from one state go the same way as far as both go
(`Trail.compare`), and along each the hook takes its charges from the gas (`Trail.gas`). A run is
done when the last function has returned (`give_of_finished`).
-/

set_option autoImplicit false

namespace MeteredWasm.Machine

open Wasm Metering Simulation

/-- The states that a run takes a step from, the one that ends it included. -/
def stepped (i : Instance) : (fuel : Nat) → State → List State
  | 0, _ => []
  | fuel + 1, s =>
    s :: match step i s with
      | .next s => stepped i fuel s
      | _ => []

section
variable {i : Instance} {s s' : State} {visited : List State} {o : Outcome}

/-! ## Runs and trails -/

/-- A run that ends has gone a trail, and ended with the step from the state that it leads to. -/
theorem exists_trail_of_run {fuel : Nat} (h : run i fuel s = some o) :
    ∃ visited s', Trail i s visited s' ∧ (step i s').outcome? = some o ∧
      stepped i fuel s = visited ++ [s'] := by
  induction fuel generalizing s with
  | zero => cases h
  | succ fuel ih =>
    rw [run] at h
    rw [stepped]
    cases hs : step i s with
    | next s₁ =>
      rw [hs] at h
      obtain ⟨visited, s', htrail, ho, hstepped⟩ := ih h
      exact ⟨[s] ++ visited, s', (Trail.step .here hs).append htrail, ho, by simp [hstepped]⟩
    | _ =>
      rw [hs] at h
      exact ⟨[], s, .here, by rw [hs]; exact h, rfl⟩

/-- The states stepped from are a trail, as far as they go. -/
theorem trail_of_stepped {fuel : Nat} {before after : List State}
    (h : stepped i fuel s = before ++ s' :: after) : Trail i s before s' := by
  induction fuel generalizing s before with
  | zero => simp [stepped] at h
  | succ fuel ih =>
    rw [stepped] at h
    cases before with
    | nil =>
      cases h
      exact .here
    | cons s₀ before =>
      rw [List.cons_append, List.cons.injEq] at h
      obtain ⟨rfl, h⟩ := h
      cases hs : step i s with
      | next s₁ =>
        rw [hs] at h
        exact (Trail.step .here hs).append (ih h)
      | _ => simp [hs] at h

theorem trail_of_getElem {fuel n : Nat} (h : (stepped i fuel s)[n]? = some s') :
    Trail i s ((stepped i fuel s).take n) s' := by
  obtain ⟨hn, rfl⟩ := List.getElem?_eq_some_iff.1 h
  have hsplit := (List.take_append_drop n (stepped i fuel s)).symm
  rw [List.drop_eq_getElem_cons hn] at hsplit
  exact trail_of_stepped hsplit

theorem Trail.cases_head (h : Trail i s visited s') : (visited = [] ∧ s' = s) ∨
    ∃ s₁ rest, visited = s :: rest ∧ Machine.step i s = .next s₁ ∧ Trail i s₁ rest s' := by
  induction h with
  | here => exact .inl ⟨rfl, rfl⟩
  | @step visited s₁ s₂ _ hstep ih =>
    rcases ih with ⟨rfl, rfl⟩ | ⟨s₀, rest, rfl, hs₀, hrest⟩
    · exact .inr ⟨s₂, [], rfl, hstep, .here⟩
    · exact .inr ⟨s₀, rest ++ [s₁], rfl, hs₀, hrest.step hstep⟩

/-- Of two trails from one state, one starts with the other. -/
theorem Trail.compare {first : List State} {s₁ : State} (h : Trail i s first s₁)
    (h' : Trail i s visited s') : (∃ rest, visited = first ++ rest ∧ Trail i s₁ rest s') ∨
      ∃ s₂ rest, first = visited ++ s' :: rest ∧ Machine.step i s' = .next s₂ ∧
        Trail i s₂ rest s₁ := by
  induction h with
  | here => exact .inl ⟨visited, rfl, h'⟩
  | @step first s₁ s₂ _ hstep ih =>
    rcases ih with ⟨rest, rfl, hrest⟩ | ⟨s₃, rest, rfl, hs₃, hrest⟩
    · rcases hrest.cases_head with ⟨rfl, rfl⟩ | ⟨s₃, rest, rfl, hstep', hrest⟩
      · exact .inr ⟨s₂, [], by simp, hstep, .here⟩
      · rw [hstep] at hstep'
        cases hstep'
        exact .inl ⟨rest, by simp, hrest⟩
    · exact .inr ⟨s₃, rest ++ [s₁], by simp, hs₃, hrest.step hstep⟩

/-- A trail to an end is a run. -/
theorem Trail.run (h : Trail i s visited s') (ho : (Machine.step i s').outcome? = some o) :
    Machine.run i (visited.length + 1) s = some o ∧
      stepped i (visited.length + 1) s = visited ++ [s'] := by
  induction visited generalizing s with
  | nil =>
    rcases h.cases_head with ⟨-, rfl⟩ | ⟨_, _, hnil, -⟩
    · refine ⟨run_succ_of_outcome ho 0, ?_⟩
      rw [List.length_nil, stepped]
      cases hs : Machine.step i s' <;> rw [hs] at ho <;> cases ho <;> rfl
    · cases hnil
  | cons s₀ visited ih =>
    rcases h.cases_head with ⟨hnil, -⟩ | ⟨s₁, rest, hcons, hs, hrest⟩
    · cases hnil
    · cases hcons
      obtain ⟨hrun, hstepped⟩ := ih hrest
      refine ⟨(run_succ_of_next hs _).trans hrun, ?_⟩
      rw [List.length_cons, stepped, hs]
      exact congrArg (s₀ :: ·) hstepped

/-- A call from outside is above no frames. -/
theorem Trail.above (h : Trail i s visited s') : Above i [] s s' := by
  refine h.reaches.lift id fun s₁ s₂ hstep => ⟨?_, hstep⟩
  rintro ⟨hframes, results, hcontrol⟩
  obtain ⟨sb, control, frames, depth⟩ := s₁
  cases hframes
  cases hcontrol
  cases hstep

/-! ## Ends -/

theorem stepHook_ne_finished {sb sb' : Sandbox} {t : Thread} {cost : Int} {results : List Value} :
    stepHook i sb t cost ≠ .finished results sb' := by
  unfold stepHook stepResume stepPause
  split
  · split <;> exact nofun
  · dsimp only
    split
    · exact nofun
    · split
      · exact nofun
      · split <;> exact nofun

theorem stepInvoke_ne_finished {sb sb' : Sandbox} {t : Thread} {func : UInt32}
    {args results : List Value} : stepInvoke i sb t func args ≠ .finished results sb' := by
  unfold stepInvoke
  split
  · exact nofun
  · split
    · exact stepHook_ne_finished
    · exact nofun
  · split
    · exact nofun
    · split <;> exact nofun
  · split <;> exact nofun

theorem stepCode_ne_finished {sb sb' : Sandbox} {t : Thread} {a : Activation}
    {results : List Value} : stepCode i sb t a ≠ .finished results sb' := by
  unfold stepCode
  split
  · exact nofun
  · dsimp only
    split
    · exact nofun
    · exact nofun
    · split <;> exact nofun

/-- The machine is done when the last function has returned. -/
theorem give_of_finished {results : List Value} {sb : Sandbox}
    (h : Machine.step i s = .finished results sb) :
    s.thread.control = .give results ∧ s.thread.frames = [] ∧ sb = s.sandbox := by
  obtain ⟨sb₀, control, frames, depth⟩ := s
  cases control with
  | run a => exact absurd h stepCode_ne_finished
  | invoke func args => exact absurd h stepInvoke_ne_finished
  | give results' =>
    cases frames with
    | nil =>
      cases h
      exact ⟨rfl, rfl, rfl⟩
    | cons frame frames => cases frame <;> cases h

/-! ## Gas -/

/-- The hook takes its charges from the gas. -/
theorem Trail.gas (h : Trail i s visited s') :
    s'.sandbox.gas = s.sandbox.gas - charged i visited := by
  induction h with
  | here => simp
  | @step visited s₁ s₂ _ hstep ih =>
    have hgas := gas_step i s₁
    rw [hstep] at hgas
    rw [charged_append, charged_singleton]
    simp only [stepSandbox] at hgas
    omega

theorem gas_outcome (h : (step i s).outcome? = some o) :
    (outcomeSandbox o).gas = s.sandbox.gas - chargeOf i s := by
  rw [← gas_step i s]
  cases hstep : step i s <;> rw [hstep] at h <;> cases h <;> rfl

end

end MeteredWasm.Machine
