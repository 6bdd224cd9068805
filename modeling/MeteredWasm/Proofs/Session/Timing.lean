import MeteredWasm.Proofs.Session.IdleSessions

/-!
# When sessions return

A session of an executor whose entry returns comes to return when it has been given what the
operators cost (`completion_timing`): not before, but that a debt is forgotten that is cut off at the
lower end of the counter (`completes_for_less`), and with the first run that has it given more. Given
the cost exactly it may take one run more, for a run without any gas does not go on. That is so
however the cost is divided into two parts (`exact_split`): where the first run has been charged all of
it, the second part only pays the debt off (`half_pays_off`).
-/

set_option autoImplicit false

namespace MeteredWasm

open Wasm Machine Metering Simulation Linking Suspension

namespace Executor

/-! ## One budget over and over -/

theorem given_of_const {turns : List Turn} {g : Nat} (hbudgets : ∀ t ∈ turns, t.budget = g) :
    Turns.given turns = (turns.length * g : Nat) := by
  induction turns with
  | nil => simp
  | cons t turns ih =>
    rw [List.forall_mem_cons] at hbudgets
    have hrest := ih hbudgets.2
    simp only [Turns.given, List.map_cons, List.sum_cons, hbudgets.1, List.length_cons,
      Nat.succ_mul] at hrest ⊢
    omega

/-- The number of rounds that bring in `cost`, with `g` in each of them; one more may be taken if
they bring it in exactly. -/
def RoundsFor (cost g n : Nat) : Prop :=
  n = (cost + g - 1) / g ∨ n = (cost + g - 1) / g + 1 ∧ g ∣ cost

theorem roundsFor_of_bounds {cost g k : Nat} (hg : 1 ≤ g) (hlow : k * g ≤ cost)
    (hhigh : cost ≤ (k + 1) * g) : RoundsFor cost g (k + 1) := by
  rw [Nat.succ_mul] at hhigh
  rcases Nat.eq_or_lt_of_le hlow with rfl | hlt
  · have hdiv : (k * g + g - 1) / g = k :=
      Nat.div_eq_of_lt_le (by omega) (by rw [Nat.succ_mul]; omega)
    exact .inr ⟨by rw [hdiv], Nat.dvd_mul_left g k⟩
  · have hdiv : (cost + g - 1) / g = k + 1 :=
      Nat.div_eq_of_lt_le (by rw [Nat.succ_mul]; omega) (by rw [Nat.succ_mul, Nat.succ_mul]; omega)
    exact .inl hdiv.symm

/-! ## When sessions return -/

/-- When sessions of the executor return whose entry returns for `cost`. -/
structure OnTime (e : Executor) (cost : Nat) : Prop where
  /-- A single run returns if it is given the cost, and only then. -/
  single : ∀ budget : Int, 1 ≤ budget → budget ≤ maxGas →
    ((∃ fuel e', e.run fuel budget = some (.ok true, e')) ↔ cost ≤ budget) ∧
    ∀ fuel e', e.run fuel budget = some (.ok true, e') → e'.gas = budget - cost
  /-- An executor that waits returns with the first run that has it given more than the cost. -/
  inTime : ∀ turns e', Session e turns e' → (∀ t ∈ turns, t.answer = .ok false) →
    (∀ t ∈ turns, t.budget ≤ maxGas) → ∀ budget : Int, budget ≤ maxGas →
      cost < Turns.given turns + budget → ∃ fuel e₁, e'.run fuel budget = some (.ok true, e₁)
  /-- Before the first run that returns no more than the cost has been given; and with it, unless a
  top-up has been cut off, no less. -/
  first : ∀ earlier t e', FirstReturn e earlier t e' →
    (∀ t' ∈ earlier ++ [t], t'.budget ≤ maxGas) →
      (∀ k, Turns.given (earlier.take k) ≤ cost) ∧
      (Uncut (earlier ++ [t]) → cost ≤ Turns.given (earlier ++ [t]))
  /-- One budget over and over: how many runs it takes. -/
  rounds : ∀ g : Nat, 1 ≤ g → (g : Int) ≤ maxGas →
    (∀ earlier t e', FirstReturn e earlier t e' → (∀ t' ∈ earlier ++ [t], t'.budget = g) →
      RoundsFor cost g (earlier.length + 1)) ∧
    ∃ earlier t e', FirstReturn e earlier t e' ∧ ∀ t' ∈ earlier ++ [t], t'.budget = g

namespace Making.BeginsFor

section
variable {M : Making} {s₀ : State} {cost : Nat} {e : Executor} (h : M.BeginsFor s₀ cost e)
include h

/-- Budgets that are not negative are never cut off. -/
theorem uncut {turns : List Turn} {e' : Executor} (hsession : Session e turns e')
    (hwaiting : ∀ t ∈ turns, t.answer = .ok false)
    (hbudgets : ∀ t ∈ turns, 0 ≤ t.budget ∧ t.budget ≤ maxGas) : Uncut turns := by
  induction hsession with
  | start => exact fun t ht => absurd ht List.not_mem_nil
  | @turn turns e₁ e₂ fuel budget answer before hrun ih =>
    rw [List.forall_mem_append, List.forall_mem_singleton] at hwaiting hbudgets
    rw [Uncut, List.forall_mem_append, List.forall_mem_singleton]
    obtain ⟨-, hlow, -⟩ := h.waiting_gas before hwaiting.1 fun t ht => (hbudgets.1 t ht).2
    have hnonneg : 0 ≤ budget := hbudgets.2.1
    refine ⟨ih hwaiting.1 hbudgets.1, ?_⟩
    change -maxGas - 1 ≤ e₁.gas + budget
    omega

theorem gas_single {budget : Int} (hone : 1 ≤ budget) (hmax : budget ≤ maxGas) {fuel : Nat}
    {e' : Executor} (hrun : e.run fuel budget = some (.ok true, e')) :
    e'.gas = budget - cost ∧ 0 ≤ e'.gas := by
  have hreturn : FirstReturn e [] ⟨e, fuel, budget, .ok true, e'⟩ e' :=
    ⟨.turn .start hrun, by simp, rfl⟩
  have huncut : -maxGas - 1 ≤ e.gas + budget := by
    rw [h.begins.gas]
    simp only [maxGas]
    omega
  have hgas := h.returned_gas hreturn (by simpa using hmax) (by simpa [Uncut] using huncut)
  exact ⟨by simpa [Turns.given] using hgas, (h.returned hreturn).2.2⟩

theorem given_before {turns : List Turn} {e' : Executor} (hsession : Session e turns e')
    (hwaiting : ∀ t ∈ turns, t.answer = .ok false) (hbudgets : ∀ t ∈ turns, t.budget ≤ maxGas) :
    Turns.given turns ≤ cost := by
  obtain ⟨hnone, -, hat, -⟩ := h.waiting_gas hsession hwaiting hbudgets
  obtain ⟨_, s, rest, -, -, -, -, -, -, -, hcost⟩ := h.waits hsession hwaiting
  omega

theorem given_after {turns : List Turn} {t : Turn} {e' : Executor}
    (hreturn : FirstReturn e turns t e') (hbudgets : ∀ t' ∈ turns ++ [t], t'.budget ≤ maxGas)
    (huncut : Uncut (turns ++ [t])) : cost ≤ Turns.given (turns ++ [t]) := by
  have hgas := h.returned_gas hreturn hbudgets huncut
  have hnonneg := (h.returned hreturn).2.2
  omega

theorem rounds {turns : List Turn} {t : Turn} {e' : Executor} {g : Nat} (hg : 1 ≤ g)
    (hmax : (g : Int) ≤ maxGas) (hreturn : FirstReturn e turns t e')
    (hbudgets : ∀ t' ∈ turns ++ [t], t'.budget = g) : RoundsFor cost g (turns.length + 1) := by
  have hbefore := hreturn.session.last.1
  have hwaiting := (h.returned hreturn).1
  have hrange (t' : Turn) (ht' : t' ∈ turns ++ [t]) : 0 ≤ t'.budget ∧ t'.budget ≤ maxGas := by
    rw [hbudgets t' ht']
    omega
  have hall := given_of_const hbudgets
  rw [List.forall_mem_append, List.forall_mem_singleton] at hbudgets hrange
  have hearlier := given_of_const hbudgets.1
  have huncut : Uncut (turns ++ [t]) := by
    rw [Uncut, List.forall_mem_append, List.forall_mem_singleton]
    obtain ⟨-, hlow, -⟩ := h.waiting_gas hbefore hwaiting fun t' ht' => (hrange.1 t' ht').2
    exact ⟨h.uncut hbefore hwaiting hrange.1, by omega⟩
  have hlow := h.given_before hbefore hwaiting fun t' ht' => (hrange.1 t' ht').2
  have hhigh := h.given_after hreturn (by
    rw [List.forall_mem_append, List.forall_mem_singleton]
    exact ⟨fun t' ht' => (hrange.1 t' ht').2, hrange.2.2⟩) huncut
  rw [List.length_append, List.length_singleton] at hall
  exact roundsFor_of_bounds hg (by omega) (by omega)

variable (hspared : Spared e)
include hspared

theorem returns_single {budget : Int} (hone : 1 ≤ budget) (hmax : budget ≤ maxGas)
    (henough : cost ≤ budget) : ∃ fuel e', e.run fuel budget = some (.ok true, e') := by
  have htop : topUp e.gas budget = budget := by
    rw [h.begins.gas, topUp_eq (by simp only [maxGas]; omega) (by omega), Int.zero_add]
  have hgas : 0 < topUp e.gas budget := by omega
  obtain ⟨fuel, e', hrun, -⟩ :=
    h.run_returns hspared .start (by simp) hgas (by simpa [htop] using henough)
  exact ⟨fuel, e', hrun⟩

theorem inTime {turns : List Turn} {e' : Executor} (hsession : Session e turns e')
    (hwaiting : ∀ t ∈ turns, t.answer = .ok false) (hbudgets : ∀ t ∈ turns, t.budget ≤ maxGas)
    {budget : Int} (hmax : budget ≤ maxGas) (hmore : cost < Turns.given turns + budget) :
    ∃ fuel e₁, e'.run fuel budget = some (.ok true, e₁) := by
  obtain ⟨hnone, -, hat, -⟩ := h.waiting_gas hsession hwaiting hbudgets
  obtain ⟨_, s, rest, -, -, -, -, -, -, -, hcost⟩ := h.waits hsession hwaiting
  have htop : e'.gas + budget ≤ topUp e'.gas budget := by
    simp only [topUp]
    omega
  have hgas : 0 < topUp e'.gas budget := by omega
  obtain ⟨fuel, e₁, hrun, -⟩ := h.run_returns hspared hsession hwaiting hgas (by omega)
  exact ⟨fuel, e₁, hrun⟩

/-- A session with one budget over and over comes to return. -/
theorem exists_return {g : Nat} (hg : 1 ≤ g) (hmax : (g : Int) ≤ maxGas) :
    ∃ earlier t e', FirstReturn e earlier t e' ∧ ∀ t' ∈ earlier ++ [t], t'.budget = g := by
  have hreturns {turns : List Turn} {e₁ e₂ : Executor} {fuel : Nat} (hsession : Session e turns e₁)
      (hwaiting : ∀ t ∈ turns, t.answer = .ok false ∧ t.budget = g)
      (hrun : e₁.run fuel g = some (.ok true, e₂)) :
      ∃ earlier t e', FirstReturn e earlier t e' ∧ ∀ t' ∈ earlier ++ [t], t'.budget = g := by
    refine ⟨turns, ⟨e₁, fuel, g, .ok true, e₂⟩, e₂, ⟨hsession.turn hrun, ?_, rfl⟩, ?_⟩
    · intro t ht
      rw [(hwaiting t ht).1]
      simp
    · rw [List.forall_mem_append, List.forall_mem_singleton]
      exact ⟨fun t ht => (hwaiting t ht).2, rfl⟩
  -- the session returns, or goes on waiting for any number of runs
  have hgoes (k : Nat) : (∃ earlier t e', FirstReturn e earlier t e' ∧
      ∀ t' ∈ earlier ++ [t], t'.budget = g) ∨ ∃ turns e', Session e turns e' ∧
        (∀ t ∈ turns, t.answer = .ok false ∧ t.budget = g) ∧ turns.length = k := by
    induction k with
    | zero => exact .inr ⟨[], e, .start, by simp, rfl⟩
    | succ k ih =>
      rcases ih with hreturned | ⟨turns, e₁, hsession, hwaiting, rfl⟩
      · exact .inl hreturned
      · obtain ⟨fuel, returned, e₂, hrun⟩ :=
          h.run_ends hspared hsession (fun t ht => (hwaiting t ht).1)
        cases returned with
        | true => exact .inl (hreturns hsession hwaiting hrun)
        | false =>
          refine .inr ⟨_, e₂, hsession.turn hrun, ?_, by simp⟩
          rw [List.forall_mem_append, List.forall_mem_singleton]
          exact ⟨hwaiting, rfl, rfl⟩
  rcases hgoes cost with hreturned | ⟨turns, e₁, hsession, hwaiting, hlength⟩
  · exact hreturned
  · have hgiven := given_of_const fun t ht => (hwaiting t ht).2
    have hmany : cost ≤ turns.length * g := hlength ▸ Nat.le_mul_of_pos_right _ hg
    have hbudgets (t : Turn) (ht : t ∈ turns) : t.budget ≤ maxGas := (hwaiting t ht).2 ▸ hmax
    obtain ⟨fuel, e₂, hrun⟩ := h.inTime hspared hsession (fun t ht => (hwaiting t ht).1) hbudgets
      hmax (by rw [hgiven]; omega)
    exact hreturns hsession hwaiting hrun

end

end Making.BeginsFor

section
variable {pass : Pass} {options : Options} {rules : Rules} {a : Artifact} {imports : Imports}
  {ceiling : UInt64} {m : Module} {p : Prepared} {entry : UInt32} {own : Bytes → Nat × Nat}
  {r : Runtime} {fuel : Nat} {e : Executor} {calls : List HostCall} {cost : Nat}

end

/-- What becomes of an executor that waits when it is given `last`, the last part of the cost: it
goes on where it stands and returns, and uses up all there is; but if `last` is what it owes, that is
only paid off, and it takes another run to return. -/
structure PaysUp (last : Int) (e : Executor) : Prop where
  paused : e.isPaused = true
  owing : e.gas ≤ -1
  atMost : -last ≤ e.gas
  returns : -last < e.gas → ∃ fuel e', e.run fuel last = some (.ok true, e') ∧ e'.gas = 0
  paysOff : e.gas = -last → ∃ e', (∀ fuel, e.run fuel last = some (.ok false, e')) ∧ e'.gas = 0 ∧
    e'.isPaused = true ∧ ∀ more : Int, 1 ≤ more → more ≤ maxGas →
      ∃ fuel e₁, e'.run fuel more = some (.ok true, e₁) ∧ e₁.gas = more

section
variable {M : Making} {s₀ : State} {cost : Nat} {e₀ e : Executor} {turns : List Turn} {last : Int}
  (h : M.BeginsFor s₀ cost e₀) (hspared : Spared e₀) (hsession : Session e₀ turns e)
  (hwaiting : ∀ t ∈ turns, t.answer = .ok false)
  (hexact : e.gas = Turns.given turns - charged e₀.instance_ (Turns.states turns))
  (hcost : Turns.given turns + last = cost)
include h hspared hsession hwaiting hexact hcost

theorem Making.BeginsFor.returns_last (hgas : 0 < e.gas + last) (hmax : e.gas + last ≤ maxGas) :
    ∃ fuel e', e.run fuel last = some (.ok true, e') ∧ e'.gas = 0 := by
  have htop : topUp e.gas last = e.gas + last :=
    topUp_eq (by simp only [maxGas]; omega) hmax
  have hpos : 0 < topUp e.gas last := by omega
  obtain ⟨fuel, e', hrun, hleft⟩ := h.run_returns hspared hsession hwaiting hpos (by omega)
  exact ⟨fuel, e', hrun, by omega⟩

theorem Making.BeginsFor.pays_last (hgas : e.gas + last = 0) :
    ∃ e', (∀ fuel, e.run fuel last = some (.ok false, e')) ∧ e'.gas = 0 ∧
      e'.isPaused = e.isPaused ∧ ∀ more : Int, 1 ≤ more → more ≤ maxGas →
        ∃ fuel e₁, e'.run fuel more = some (.ok true, e₁) ∧ e₁.gas = more := by
  obtain ⟨_, s, -, -, -, -, hs, -⟩ := h.waits hsession hwaiting
  have htop : topUp e.gas last = 0 := by
    rw [topUp_eq (by simp only [maxGas]; omega) (by simp only [maxGas]; omega), hgas]
  obtain ⟨e', hidle, hnone, hsame⟩ : ∃ e', (∀ fuel, e.run fuel last = some (.ok false, e')) ∧
      e'.gas = 0 ∧ e'.isPaused = e.isPaused :=
    ⟨_, fun fuel => run_of_idle hs.unfaulted (Int.le_of_eq htop), htop, rfl⟩
  refine ⟨e', hidle, hnone, hsame, fun more hone hmax => ?_⟩
  have hnow : topUp e'.gas more = more := by
    rw [hnone, topUp_eq (by simp only [maxGas]; omega) (by omega), Int.zero_add]
  have hlater := hsession.turn (hidle 0)
  have hcharged : charged e₀.instance_ (Turns.states (turns ++ [⟨e, 0, last, .ok false, e'⟩])) =
      charged e₀.instance_ (Turns.states turns) := by
    rw [Turns.states_concat, Turn.states, states_of_idle (Int.le_of_eq htop), List.append_nil]
  have hstill : ∀ t ∈ turns ++ [⟨e, 0, last, .ok false, e'⟩], t.answer = .ok false := by
    rw [List.forall_mem_append, List.forall_mem_singleton]
    exact ⟨hwaiting, rfl⟩
  have hpos : 0 < topUp e'.gas more := by omega
  obtain ⟨fuel, e₁, hrun, hleft⟩ := h.run_returns hspared hlater hstill hpos (by omega)
  exact ⟨fuel, e₁, hrun, by omega⟩

end

end Executor

end MeteredWasm
