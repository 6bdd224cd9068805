import MeteredWasm.Proofs.Session.Moments

/-!
# Sessions

A session is a sequence of runs of one executor (`Session`). Each of its turns notes what the run was
given and what came of it, and so what the machine went through (`Turn.states`).

A run changes the gas by what it takes of its budget and by what the hook charges in it
(`Executor.gas_run`), unless the counter is cut off at an end of its range; so does it do at every
moment (`Executor.gas_of_states`).
-/

set_option autoImplicit false

namespace MeteredWasm

open Wasm Machine Simulation

/-! ## Turns -/

/-- One run of an executor, and what it comes to. -/
structure Turn where
  before : Executor
  fuel : Nat
  budget : Int
  answer : Except ExecutionError Bool
  after : Executor

/-- What a run takes of its budget; one that is refused takes nothing. -/
def Executor.takes (e : Executor) (budget : Int) : Int := if e.faulted then 0 else budget

namespace Turn

def states (t : Turn) : List State := t.before.states t.fuel t.budget

def taken (t : Turn) : Int := t.before.takes t.budget

end Turn

/-- The turns are runs of one executor, one after the other. -/
inductive Session (e : Executor) : List Turn → Executor → Prop
  | start : Session e [] e
  | turn {turns : List Turn} {e₁ e₂ : Executor} {fuel : Nat} {budget : Int}
      {answer : Except ExecutionError Bool} (before : Session e turns e₁)
      (run : e₁.run fuel budget = some (answer, e₂)) :
      Session e (turns ++ [⟨e₁, fuel, budget, answer, e₂⟩]) e₂

namespace Turns

/-- What the turns take. -/
def taken (turns : List Turn) : Int := (turns.map Turn.taken).sum

/-- The sum of their budgets. -/
def given (turns : List Turn) : Int := (turns.map Turn.budget).sum

/-- The states that they go through. -/
def states (turns : List Turn) : List State := turns.flatMap Turn.states

section
variable (turns : List Turn) (t : Turn)

@[simp] theorem taken_nil : taken [] = 0 := rfl

@[simp] theorem given_nil : given [] = 0 := rfl

@[simp] theorem states_nil : states [] = [] := rfl

@[simp] theorem taken_concat : taken (turns ++ [t]) = taken turns + t.taken := by simp [taken]

@[simp] theorem given_concat : given (turns ++ [t]) = given turns + t.budget := by simp [given]

@[simp] theorem states_concat : states (turns ++ [t]) = states turns ++ t.states := by
  simp [states]

end

end Turns

/-- The sums of the first budgets all stay in the range of the counter. -/
def SumsInRange (budgets : List Int) : Prop :=
  ∀ k, -Executor.maxGas - 1 ≤ (budgets.take k).sum ∧ (budgets.take k).sum ≤ Executor.maxGas

theorem sumsInRange_iff {budgets : List Int} : SumsInRange budgets ↔
    ∀ k < budgets.length + 1, -Executor.maxGas - 1 ≤ (budgets.take k).sum ∧
      (budgets.take k).sum ≤ Executor.maxGas := by
  refine ⟨fun h k _ => h k, fun h k => ?_⟩
  rcases Nat.lt_or_ge k (budgets.length + 1) with hk | hk
  · exact h k hk
  · have hall := h budgets.length (Nat.lt_succ_self _)
    rwa [List.take_of_length_le (by omega), ← List.take_length (l := budgets)]

instance (budgets : List Int) : Decidable (SumsInRange budgets) :=
  decidable_of_iff' _ sumsInRange_iff

theorem SumsInRange.total {budgets : List Int} (h : SumsInRange budgets) :
    -Executor.maxGas - 1 ≤ budgets.sum ∧ budgets.sum ≤ Executor.maxGas := by
  have hall := h budgets.length
  rwa [List.take_length] at hall

theorem SumsInRange.earlier {budgets more : List Int} (h : SumsInRange (budgets ++ more)) :
    SumsInRange budgets := by
  intro k
  have hmin := h (min k budgets.length)
  rwa [List.take_append_of_le_length (Nat.min_le_right ..), ← List.take_take,
    List.take_length] at hmin

/-! ## Runs of a session -/

section
variable {e₀ e : Executor} {turns earlier : List Turn} {t : Turn}

theorem Session.last (h : Session e₀ (earlier ++ [t]) e) : Session e₀ earlier t.before ∧
    t.before.run t.fuel t.budget = some (t.answer, e) ∧ t.after = e := by
  generalize hturns : earlier ++ [t] = turns at h
  cases h with
  | start => simp at hturns
  | turn before run =>
    obtain ⟨rfl, hlast⟩ := List.append_inj' hturns rfl
    cases hlast
    exact ⟨before, run, rfl⟩

theorem Session.keeps (h : Session e₀ turns e) :
    e.instance_ = e₀.instance_ ∧ e.entry = e₀.entry := by
  induction h with
  | start => exact ⟨rfl, rfl⟩
  | turn _ run ih =>
    obtain ⟨hinstance, hentry⟩ := (Executor.ran_of_run run).keeps
    exact ⟨hinstance.trans ih.1, hentry.trans ih.2⟩

theorem Session.later (h : Session e₀ turns e) : Executor.Later e₀ e := by
  induction h with
  | start => exact .start
  | turn _ run ih => exact ih.run run

/-- The first turns of a session are one. -/
theorem Session.exists_take (h : Session e₀ turns e) (k : Nat) :
    ∃ e₁, Session e₀ (turns.take k) e₁ := by
  induction h with
  | start => exact ⟨e₀, by simpa using .start⟩
  | @turn turns e₁ e₂ fuel budget answer before hrun ih =>
    rw [List.take_append]
    cases hleft : k - turns.length with
    | zero => simpa using ih
    | succ left =>
      rw [List.take_of_length_le (by omega)]
      exact ⟨e₂, by simpa using before.turn hrun⟩

namespace Executor

/-- An error stops the executor for good. -/
theorem faulted_of_run {e' : Executor} {fuel : Nat} {budget : Int}
    {answer : Except ExecutionError Bool} (h : e.run fuel budget = some (answer, e')) :
    e'.faulted = answer.toOption.isNone := by
  cases ran_of_run h with
  | refused faulted => exact faulted
  | idle unfaulted | ended unfaulted => exact unfaulted
  | failed => rfl

/-- Only an executor that has not been stopped answers. -/
theorem unfaulted_of_run {e' : Executor} {fuel : Nat} {budget : Int} {b : Bool}
    (h : e.run fuel budget = some (.ok b, e')) : e.faulted = false := by
  cases ran_of_run h with
  | idle unfaulted | ended unfaulted => exact unfaulted

end Executor

/-- The runs of a session that no error has stopped have answered something. -/
theorem Session.answered (h : Session e₀ turns e) (hopen : e.faulted = false) :
    ∀ t ∈ turns, ∃ b, t.answer = .ok b := by
  induction h with
  | start => simp
  | @turn turns e₁ e₂ fuel budget answer before run ih =>
    have hfaulted := Executor.faulted_of_run run
    rw [List.forall_mem_append, List.forall_mem_singleton]
    cases answer with
    | ok b => exact ⟨ih (Executor.unfaulted_of_run run), b, rfl⟩
    | error => cases hopen.symm.trans hfaulted

end

/-! ## Gas -/

namespace Executor

theorem topUp_eq {gas budget : Int} (hlow : -maxGas - 1 ≤ gas + budget)
    (hhigh : gas + budget ≤ maxGas) : topUp gas budget = gas + budget := by
  simp only [topUp]
  omega

section
variable {e e' : Executor} {fuel : Nat} {budget : Int} {answer : Except ExecutionError Bool}

theorem states_of_faulted (h : e.faulted = true) : e.states fuel budget = [] := if_pos (.inl h)

theorem states_of_idle (h : topUp e.gas budget ≤ 0) : e.states fuel budget = [] :=
  if_pos (.inr h)

/-- Along states that follow one another the gas goes down by what the hook charges. -/
theorem gas_of_isChain {i : Instance} {before after : List State} {s : State} {gas : Int}
    (h : (before ++ s :: after).IsChain (Follows i))
    (hstart : ∀ s₀ ∈ (before ++ s :: after).head?, s₀.sandbox.gas = gas) :
    s.sandbox.gas = gas - charged i before := by
  induction before generalizing gas with
  | nil =>
    have hgas : s.sandbox.gas = gas := hstart s rfl
    simp [hgas]
  | cons s₀ before ih =>
    have hgas : s₀.sandbox.gas = gas := hstart s₀ rfl
    rw [List.cons_append, List.isChain_cons] at h
    have hrest := @ih (gas - chargeOf i s₀) h.2 fun s₁ hs₁ => by
      obtain ⟨signals, hsandbox⟩ := (h.1 s₁ hs₁).sandbox
      rw [hsandbox, ← hgas]
      exact gas_step i s₀
    rw [hrest, ← List.singleton_append, charged_append, charged_singleton]
    omega

/-- At every moment of a run the gas is what the run began with, less what has been charged. -/
theorem gas_of_states {before after : List State} {s : State}
    (h : e.states fuel budget = before ++ s :: after) :
    s.sandbox.gas = (e.opened budget).gas - charged e.instance_ before := by
  refine gas_of_isChain (h ▸ isChain_states e fuel budget) fun s₀ hs₀ => ?_
  obtain ⟨signals, func, args, rfl⟩ := @started_of_head e fuel budget s₀ (h ▸ hs₀)
  rfl

theorem gas_opened (e : Executor) (budget : Int) :
    (e.opened budget).gas = if e.faulted then e.gas else topUp e.gas budget := by
  unfold opened
  split <;> rfl

/-- A run puts gas in, unless it is refused, and takes out what the hook charges. -/
theorem gas_run (h : e.run fuel budget = some (answer, e')) :
    e'.gas = (if e.faulted then e.gas else topUp e.gas budget) -
      charged e.instance_ (e.states fuel budget) := by
  rw [← gas_opened]
  rcases (ran_of_run h).last with ⟨hnone, hsame⟩ | ⟨visited, s, hstates, hlast⟩
  · rw [hnone, gas, hsame]
    simp
  · have hgas := gas_of_states hstates
    have hstep := gas_step e.instance_ s
    rw [hlast, hgas] at hstep
    rw [hstates, charged_append, charged_singleton, gas, hstep]
    omega

end

end Executor

end MeteredWasm
