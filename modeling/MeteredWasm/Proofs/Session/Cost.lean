import MeteredWasm.Proofs.Session.Made
import MeteredWasm.Proofs.Session.Split

/-!
# The cost of a session

The entry of an instrumented module returns once the operators that it runs have been paid for. What
they cost altogether is what a run of the original machine says (`ReturnsFor`), and what the hook
charges over a whole session is just that (`Trail.dues`, `BeginsFor.returned`).

Between the runs of a session that waits there is never any gas left (`BeginsFor.waiting_gas`), so
the counter is not cut off at its upper end. A run of such a session returns if there is gas for the
rest of the cost, and otherwise it pauses (`BeginsFor.run_returns`, `BeginsFor.run_pauses`), unless
it fails for want of stack (`Spared`).
-/

set_option autoImplicit false

namespace MeteredWasm

open Wasm Machine Metering Simulation Linking Suspension

/-! ## Costs -/

namespace Simulation

/-- What the operators cost that run on the way through states of a machine that is not metered. -/
def outlay (rules : Rules) (visited : List State) : Nat :=
  (visited.map fun s => price rules (nextOp? s.thread)).sum

/-- With enough room, the machine runs from `s` to a return and does not touch hidden bytes on the
way. The operators that run cost `cost` altogether. -/
inductive ReturnsFor (rules : Rules) (hidden : Nat → Nat → Prop) (i : Instance) (s : State) :
    Nat → Prop
  | of {n : Nat} {visited : List State} {s' : State} {results : List Value} {sb : Sandbox}
      (trail : Trail (i.deep n) s visited s') (finished : step (i.deep n) s' = .finished results sb)
      (clear : ∀ v ∈ visited, Heeding hidden v) :
      ReturnsFor rules hidden i s (outlay rules visited)

section
variable {plan : Plan} {hidden : Nat → Nat → Prop} {i : Instance} {s s' : State}
  {visited : List State} {cost : Nat}

/-- What is charged on a trail is what its operators cost, but for the dues at its ends. -/
theorem Trail.dues (hfit : Affordable plan.rules i) (hhook : ∀ func, i.function? func ≠ some .hook)
    (hp : Placed i s.thread) (h : Trail i s visited s') : Placed i s'.thread ∧
      Simulation.dues plan.rules s'.thread + outlay plan.rules visited =
        Simulation.dues plan.rules s.thread + tolls plan i visited := by
  induction h with
  | here => exact ⟨hp, by simp [outlay]⟩
  | @step visited s₁ s₂ _ hstep ih =>
    obtain ⟨hp₁, hdues⟩ := ih
    have hnext := dues_next hfit hhook hp₁ hstep
    refine ⟨hp₁.next (.inl hhook) hstep, ?_⟩
    have hoperators : outlay plan.rules (visited ++ [s₁]) =
        outlay plan.rules visited + price plan.rules (nextOp? s₁.thread) := by simp [outlay]
    rw [hoperators, tolls_append, tolls_singleton]
    omega

/-- However much room there is, the machine keeps clear of hidden bytes. -/
theorem ReturnsFor.heeding {rules : Rules} (h : ReturnsFor rules hidden i s cost) (n' : Nat)
    (v : State) (hv : Reaches (i.deep n') s v) : Heeding hidden v := by
  obtain @⟨n, visited, s', results, sb, htrail, hfinished, hclear⟩ := h
  obtain ⟨before, hbefore⟩ := hv.exists_trail
  obtain ⟨rest, rfl, hrest⟩ := hbefore.exists_rest htrail (by rw [hfinished]; rfl)
    (roomy_of_finished hfinished)
  rcases hrest.cases_head with ⟨-, rfl⟩ | ⟨_, _, rfl, -, -⟩
  · -- there is no operator to run at a return
    intro a op code hrun
    rw [(give_of_finished hfinished).1] at hrun
    cases hrun
  · exact hclear v (by simp)

/-- A call that returns is charged what its operators cost. -/
theorem ReturnsFor.tolls {entry : UInt32} {sb : Sandbox} (hfit : Affordable plan.rules i)
    (hhook : ∀ func, i.function? func ≠ some .hook)
    (h : ReturnsFor plan.rules hidden i ⟨sb, .call entry []⟩ cost) :
    ∃ n visited s' results sb', Trail (i.deep n) ⟨sb, .call entry []⟩ visited s' ∧
      step (i.deep n) s' = .finished results sb' ∧
      Simulation.tolls plan (i.deep n) visited = cost := by
  obtain @⟨n, visited, s', results, sb', htrail, hfinished, -⟩ := h
  refine ⟨n, visited, s', results, sb', htrail, hfinished, ?_⟩
  have hcall : Placed (i.deep n) (Thread.call entry []) :=
    ⟨fun _ ha => (nomatch ha), fun _ hf => (nomatch hf)⟩
  obtain ⟨-, hdues⟩ := Trail.dues (i := i.deep n) hfit hhook hcall htrail
  obtain ⟨hcontrol, hframes, -⟩ := give_of_finished hfinished
  have hend : Simulation.dues plan.rules s'.thread = 0 := by
    simp [Simulation.dues, hcontrol, hframes, controlDue]
  have hstart : Simulation.dues plan.rules (.call entry []) = 0 := rfl
  rw [hend] at hdues
  simp only [hstart] at hdues
  omega

end

end Simulation

/-! ## Segments -/

/-- No segment of the module costs more than can be charged. -/
def FitsModule (rules : Rules) (m : Module) : Prop := ∀ body ∈ m.bodies, Fits rules body.code

theorem affordable_of_instantiate {rules : Rules} {plan : Plan} {m : Module} {imports : Imports}
    {a : Artifact} {ceiling : UInt64} {hardware : Hardware} {p : Prepared}
    (hm : Meterable plan m) (hp : instantiate? a imports ceiling hardware m = some p)
    (hfit : FitsModule rules m) : Affordable rules p.instance_ := by
  intro func type locals body hf
  rcases function_cases hm (P := fun _ => True) (fun _ _ => trivial) trivial hp hf with
    ⟨_, _, _, _, heq, -⟩ | ⟨_, _, b, hb, heq⟩
  · cases heq
  · cases heq
    exact hfit b (List.mem_of_getElem? hb)

namespace Executor

/-- Nor does one of the instance that is linked of it. -/
theorem Sourced.affordable {pass : Pass} {options : Options} {rules : Rules} {a : Artifact}
    {imports : Imports} {ceiling : UInt64} {relaxed : RelaxedResults} {m : Module} {p : Prepared}
    {entry : UInt32} (h : Sourced pass options rules a imports ceiling relaxed m p entry)
    (hfit : FitsModule rules m) : Affordable rules p.instance_ := by
  obtain ⟨htranslated, hvalid, -, hinstrument, hlinked⟩ := h
  obtain ⟨s, m', hm⟩ := instrumented_of_valid htranslated hvalid hinstrument
  exact affordable_of_instantiate (meterable_of_check hm.summary hm.check hvalid rules none) hlinked
    hfit

/-! ## Where a session starts -/

/-- The executor stands at its entry, which returns in the original machine. -/
structure Making.BeginsFor (M : Making) (s : State) (cost : Nat) (e : Executor) : Prop where
  begins : M.Begins s e
  affordable : Affordable M.plan.rules M.original
  returns : ReturnsFor M.plan.rules M.reserved M.original s cost

/-- A fresh executor of what has been made of a source stands so. -/
theorem Sourced.begins_for {pass : Pass} {options : Options} {rules : Rules} {a : Artifact}
    {imports : Imports} {ceiling : UInt64} {m : Module} {p : Prepared} {entry : UInt32}
    {own : Bytes → Nat × Nat} {r : Runtime} {fuel : Nat} {e : Executor} {calls : List HostCall}
    {cost : Nat}
    (h : Sourced pass options rules a imports ceiling r.relaxed m p entry)
    (hkeeps : pass.Keeps (Instrument.request options))
    (hcaptures : pass.Captures (Instrument.request options) options.controlBlock own)
    (hhosts : imports.Opaque) (hfit : FitsModule rules m)
    (hcreate : create fuel r a imports ceiling = some (.ok e, calls))
    (hreturns : ReturnsFor rules e.instance_.reserved p.instance_ (startState p entry 0) cost) :
    ∃ M : Making, M.BeginsFor (startState p entry 0) cost e := by
  obtain ⟨M, rfl, horiginal, -, -, hbegins⟩ := h.exists_making hkeeps hcaptures hhosts hcreate
  have hbegins := hbegins rfl hcreate
  rw [hbegins.stands.drives.reserved, ← horiginal] at hreturns
  exact ⟨M, hbegins, horiginal ▸ h.affordable hfit, hreturns⟩

/-- Until the executor has returned, no run fails for want of stack: there is enough native stack,
and a captured stack fits into its region. A run that cannot capture the stack has overspent. -/
def Spared (e : Executor) : Prop :=
  ∀ {turns : List Turn} {t : Turn} {e' : Executor} {error : ExecutionError},
    Session e (turns ++ [t]) e' → (∀ t' ∈ turns, t'.answer = .ok false) → t.answer = .error error →
    error ≠ .trap .callStackExhausted ∧ 0 ≤ t.after.gas

/-! ## Sessions that wait -/

section
variable {M : Making} {s₀ : State} {cost : Nat} {e₀ e : Executor} {turns : List Turn} {budget : Int}

/-- What is known of the turns of a session that comes to an end. -/
theorem waiting_of_completes {t : Turn} {answer : Except ExecutionError Bool}
    (h : Completes (turns ++ [t]) answer) :
    (∀ t' ∈ turns, t'.answer = .ok false) ∧ 0 ≤ t.after.gas := by
  generalize hrow : turns ++ [t] = row at h
  obtain ⟨hwaiting, -, -, hpaid⟩ := h
  obtain ⟨rfl, hsame⟩ := List.append_inj' hrow rfl
  cases hsame
  exact ⟨hwaiting, hpaid⟩

variable (h : M.BeginsFor s₀ cost e₀)
include h

theorem Making.BeginsFor.hidden : M.Stands M.reserved s₀ e₀ :=
  h.begins.stands.hide _

/-- The original machine comes to its end, and that costs as much as its operators. -/
theorem Making.BeginsFor.trail : ∃ n visited s results sb, Trail (M.original.deep n) s₀ visited s ∧
    step (M.original.deep n) s = .finished results sb ∧
    tolls M.plan (M.original.deep n) visited = cost := by
  obtain ⟨hbegins, hfit, hreturns⟩ := h
  obtain ⟨sb, t⟩ := s₀
  obtain rfl : t = .call M.entry [] := hbegins.thread
  exact hreturns.tolls hfit hbegins.stands.drives.metered.closed.noHook

/-- An executor that waits stands on the way to the end, and the rest of the way costs what the
hook has not charged yet. -/
theorem Making.BeginsFor.waits (hsession : Session e₀ turns e)
    (hwaiting : ∀ t ∈ turns, t.answer = .ok false) :
    ∃ n s rest s' results sb, M.Stands M.reserved s e ∧
      (∀ n v, Reaches (M.original.deep n) s v → Heeding M.reserved v) ∧
      Trail (M.original.deep n) s rest s' ∧ step (M.original.deep n) s' = .finished results sb ∧
      charged e₀.instance_ (Turns.states turns) + tolls M.plan (M.original.deep n) rest = cost := by
  obtain ⟨n, all, s', results, sb, hall, hfinished, hcost⟩ := h.trail
  have hheeds := h.returns.heeding
  obtain ⟨n', before, s, hbefore, hs, hcharged⟩ :=
    h.hidden.waits (fun _ _ => id) hheeds hsession hwaiting
  have hroomy := roomy_of_finished hfinished
  obtain ⟨rest, rfl, hrest⟩ := hbefore.exists_rest hall (by rw [hfinished]; rfl) hroomy
  have hbefore' := hbefore.deeper (Nat.le_max_left n' n)
  have hsplit := tolls_append M.plan (M.original.deep (max n' n)) before rest
  rw [tolls_deep_eq (hbefore'.append hrest) hall, tolls_deep_eq hbefore' hbefore] at hsplit
  exact ⟨max n' n, s, rest, s', results, sb, hs, heeding_of_trail hheeds hbefore, hrest,
    step_deeper (Nat.le_max_right n' n) hroomy ▸ hfinished, by omega⟩

/-- Between the runs of a session that waits there is no gas left. The counter is as low as the
hook's charges make it, unless it has been cut off. -/
theorem Making.BeginsFor.waiting_gas (hsession : Session e₀ turns e)
    (hwaiting : ∀ t ∈ turns, t.answer = .ok false) (hbudgets : ∀ t ∈ turns, t.budget ≤ maxGas) :
    e.gas ≤ 0 ∧ -maxGas - 1 ≤ e.gas ∧
      Turns.given turns - charged e₀.instance_ (Turns.states turns) ≤ e.gas ∧
      (Uncut turns → e.gas = Turns.given turns - charged e₀.instance_ (Turns.states turns)) :=
  h.hidden.waiting_gas (fun _ _ => id) h.returns.heeding h.begins.gas hsession hwaiting hbudgets

section
variable (hspared : Spared e₀) (hsession : Session e₀ turns e)
  (hwaiting : ∀ t ∈ turns, t.answer = .ok false)
include hspared hsession hwaiting

/-- A run that has enough gas returns. -/
theorem Making.BeginsFor.run_returns (hgas : 0 < topUp e.gas budget)
    (henough : cost - charged e₀.instance_ (Turns.states turns) ≤ topUp e.gas budget) :
    ∃ fuel e', e.run fuel budget = some (.ok true, e') ∧
      e'.gas = topUp e.gas budget - (cost - charged e₀.instance_ (Turns.states turns)) := by
  obtain ⟨n, s, rest, s', results, sb, hs, hheeds, htrail, hfinished, hcost⟩ :=
    h.waits hsession hwaiting
  obtain ⟨fuel, answer, e', hrun, hanswer⟩ := hs.run_completes (fun _ _ => id) hheeds htrail
    (by rw [hfinished]; rfl) (roomy_of_finished hfinished) hgas (by omega)
  rcases hanswer with rfl | ⟨rfl, hleft⟩
  · obtain ⟨hroomy, -⟩ := hspared (hsession.turn hrun) hwaiting rfl
    exact absurd rfl hroomy
  · exact ⟨fuel, e', hrun, by omega⟩

/-- A run that does not have enough pauses. -/
theorem Making.BeginsFor.run_pauses (hgas : 0 < topUp e.gas budget)
    (hless : topUp e.gas budget < cost - charged e₀.instance_ (Turns.states turns)) :
    ∃ fuel e', e.run fuel budget = some (.ok false, e') ∧ e'.isPaused = true := by
  obtain ⟨n, s, rest, s', results, sb, hs, hheeds, htrail, hfinished, hcost⟩ :=
    h.waits hsession hwaiting
  have ho : (step (M.original.deep n) s').outcome? = some (.finished results sb) := by
    rw [hfinished]
    rfl
  have hroomy := roomy_of_finished hfinished
  obtain ⟨fuel, answer, e', hrun⟩ := hs.exists_run (fun _ _ => id) hheeds hgas htrail ho hroomy
  have hpasses := hs.passes (fun _ _ => id) hheeds hgas hrun
  cases hpasses with
  | paused _ _ _ _ _ paused => exact ⟨fuel, e', hrun, paused⟩
  | @finished n' visited s₁ results' sb' _ trail original left paid =>
    obtain ⟨rfl, -⟩ := htrail.unique_end_deep ho hroomy trail (by rw [original]; rfl)
      (roomy_of_finished original)
    rw [← tolls_deep_eq htrail trail] at left
    omega
  | @failed n' visited s₁ error sb' _ trail original roomy =>
    obtain ⟨-, -, hends⟩ := htrail.unique_end_deep ho hroomy trail (by rw [original]; rfl)
      (roomy_of_failed original roomy)
    cases hends
  | exhausted =>
    obtain ⟨hroomy, -⟩ := hspared (hsession.turn hrun) hwaiting rfl
    exact absurd rfl hroomy
  | stuck _ _ debt =>
    obtain ⟨-, hpaid⟩ := hspared (hsession.turn hrun) hwaiting rfl
    exact absurd hpaid (Int.not_le.2 debt)

/-- A run of an executor that waits returns or waits. -/
theorem Making.BeginsFor.run_ends :
    ∃ fuel returned e', e.run fuel budget = some (.ok returned, e') := by
  obtain ⟨_, s, -, -, -, -, hs, -⟩ := h.waits hsession hwaiting
  by_cases hgas : topUp e.gas budget ≤ 0
  · exact ⟨0, false, _, run_of_idle hs.unfaulted hgas⟩
  · have hpos := Int.not_le.1 hgas
    by_cases henough : cost - charged e₀.instance_ (Turns.states turns) ≤ topUp e.gas budget
    · obtain ⟨fuel, e', hrun, -⟩ := h.run_returns hspared hsession hwaiting hpos henough
      exact ⟨fuel, true, e', hrun⟩
    · obtain ⟨fuel, e', hrun, -⟩ :=
        h.run_pauses hspared hsession hwaiting hpos (Int.not_le.1 henough)
      exact ⟨fuel, false, e', hrun⟩

end

/-! ## Sessions that return -/

/-- A session that returns comes to an end with that. -/
theorem Making.BeginsFor.completes {t : Turn} (hreturn : FirstReturn e₀ turns t e) :
    Completes (turns ++ [t]) (.ok true) :=
  h.hidden.completes_of_returned (fun _ _ => id) h.returns.heeding hreturn

/-- It has been charged the cost, and there is no gas missing. -/
theorem Making.BeginsFor.returned {t : Turn} (hreturn : FirstReturn e₀ turns t e) :
    (∀ t' ∈ turns, t'.answer = .ok false) ∧
      charged e₀.instance_ (Turns.states (turns ++ [t])) = cost ∧ 0 ≤ e.gas := by
  obtain ⟨n, all, s', results, sb, hall, hfinished, hcost⟩ := h.trail
  obtain ⟨n', visited, s, o, htrail, ho, hroomy, -, -, hcharged⟩ :=
    h.hidden.completes (fun _ _ => id) h.returns.heeding hreturn.session (h.completes hreturn)
  obtain ⟨rfl, -⟩ := htrail.unique_end_deep ho hroomy hall (by rw [hfinished]; rfl)
    (roomy_of_finished hfinished)
  obtain ⟨hwaiting, hpaid⟩ := waiting_of_completes (h.completes hreturn)
  refine ⟨hwaiting, ?_, hreturn.session.last.2.2 ▸ hpaid⟩
  rw [hcharged, tolls_deep_eq htrail hall, hcost]

/-- If no top-up has been cut off, it has used up what it has been given but for the cost. -/
theorem Making.BeginsFor.returned_gas {t : Turn} (hreturn : FirstReturn e₀ turns t e)
    (hbudgets : ∀ t' ∈ turns ++ [t], t'.budget ≤ maxGas) (huncut : Uncut (turns ++ [t])) :
    e.gas = Turns.given (turns ++ [t]) - cost := by
  have hgas := h.hidden.completes_gas (fun _ _ => id) h.returns.heeding h.begins.gas
    hreturn.session (h.completes hreturn) hbudgets huncut
  rwa [(h.returned hreturn).2.1] at hgas

end

end Executor

end MeteredWasm
