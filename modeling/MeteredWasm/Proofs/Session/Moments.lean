import Mathlib.Data.List.Chain
import MeteredWasm.Proofs.Machine.Growth
import MeteredWasm.Proofs.Session.Use

/-!
# Moments of a run

A run goes through states (`Executor.states`): a tick makes up to three calls, each where the one
before has come back (`Row`), and the machine takes steps from one state to the next in each
(`isChain_states`). The first state is what the tick begins with (`started_of_head`), and the last
one leaves what is left of the run (`Ran.last`).
-/

set_option autoImplicit false

namespace MeteredWasm

open Wasm Machine Simulation

/-! ## Calls one after another -/

/-- A function is called from outside in a sandbox, once the instance has been told so. -/
def Machine.Started (sb : Sandbox) (s : State) : Prop :=
  ∃ signals func args, s = ⟨{ sb with signals }, .call func args⟩

/-- The state `s'` comes right after `s`: by a step, or because a call has come back and the next
one is made. -/
def Machine.Follows (i : Instance) (s s' : State) : Prop :=
  step i s = .next s' ∨ ∃ results sb, step i s = .finished results sb ∧ Started sb s'

/-- Calls, each made where the one before has come back; the first one in `sb`. -/
inductive Machine.Row (i : Instance) (fuel : Nat) : Sandbox → List State → Prop
  | nil {sb : Sandbox} : Row i fuel sb []
  | last {sb : Sandbox} {s : State} (started : Started sb s) : Row i fuel sb [s]
  | cons {sb sb' : Sandbox} {s : State} {results : List Value} {calls : List State}
      (started : Started sb s) (run : run i fuel s = some (.finished results sb'))
      (rest : Row i fuel sb' calls) : Row i fuel sb (s :: calls)

namespace Machine

section
variable {i : Instance} {fuel : Nat} {s s' : State} {sb : Sandbox}

/-- Between two states the sandbox changes only by what the step from the first one does, and by
what the instance is told. -/
theorem Follows.sandbox (h : Follows i s s') :
    ∃ signals, s'.sandbox = { stepSandbox (step i s) with signals } := by
  rcases h with hstep | ⟨results, sb, hstep, signals, func, args, rfl⟩
  · rw [hstep]
    exact ⟨s'.sandbox.signals, rfl⟩
  · rw [hstep]
    exact ⟨signals, rfl⟩

theorem head?_stepped (h : s' ∈ (stepped i fuel s).head?) : s' = s := by
  cases fuel with
  | zero => cases h
  | succ fuel =>
    rw [stepped] at h
    exact (Option.mem_some_iff.1 h).symm

theorem isChain_stepped (i : Instance) (fuel : Nat) (s : State) :
    (stepped i fuel s).IsChain (Follows i) := by
  induction fuel generalizing s with
  | zero => exact .nil
  | succ fuel ih =>
    rw [stepped]
    cases hs : step i s with
    | next s₁ => exact (ih s₁).cons fun s' hs' => .inl (head?_stepped hs' ▸ hs)
    | _ => exact .singleton s

/-- A row of calls goes from one state to the next, and begins with the first call. -/
theorem Row.isChain {calls : List State} (h : Row i fuel sb calls) :
    (calls.flatMap (stepped i fuel)).IsChain (Follows i) ∧
      ∀ s ∈ (calls.flatMap (stepped i fuel)).head?, Started sb s := by
  induction h with
  | nil => exact ⟨.nil, fun s hs => nomatch hs⟩
  | last started =>
    rw [List.flatMap_singleton]
    exact ⟨isChain_stepped .., fun s' hs' => head?_stepped hs' ▸ started⟩
  | @cons sb sb' s results calls started run _ ih =>
    obtain ⟨visited, last, -, hend, hstepped⟩ := exists_trail_of_run run
    rw [List.flatMap_cons]
    refine ⟨(isChain_stepped i fuel s).append ih.1 fun s₁ hs₁ s₂ hs₂ => ?_, fun s' hs' => ?_⟩
    · rw [hstepped, List.getLast?_concat, Option.mem_some_iff] at hs₁
      subst hs₁
      exact .inr ⟨results, sb', Step.eq_finished hend, ih.2 s₂ hs₂⟩
    · have hfirst : s' ∈ (stepped i fuel s).head? := by
        cases fuel with
        | zero => cases run
        | succ fuel => exact hs'
      exact head?_stepped hfirst ▸ started

end

end Machine

namespace Executor

/-! ## The states of a run -/

/-- The calls of a tick: the instance is told to rewind if it is paused, its entry is called, and it
is told to stop unwinding if it is paused then and its stack is within the region. -/
def calls (e : Executor) (fuel : Nat) (sb : Sandbox) : List State :=
  match e.instance_.controls with
  | none => []
  | some controls =>
    let block := e.instance_.controlBlock
    (if sb.paused then [⟨sb.tell (.startRewind block.address),
      .call controls.startRewind [.ofWord block.address]⟩] else []) ++
    match rewind e.instance_ fuel controls.startRewind sb with
    | some (.ok (), sb) =>
      ⟨sb, .call e.entry []⟩ ::
        match call e.instance_ fuel e.entry [] sb with
        | some (.ok (), sb) =>
          if sb.paused = true ∧ ¬block.stackEnd < position e.instance_ sb then
            [⟨sb.tell .stopUnwind, .call controls.stopUnwind []⟩]
          else []
        | _ => []
    | _ => []

/-- The sandbox that a run begins with. -/
def opened (e : Executor) (budget : Int) : Sandbox :=
  if e.faulted then e.sandbox else { e.sandbox with gas := topUp e.gas budget }

/-- The states that a run takes a step from; none if there is no tick. -/
def states (e : Executor) (fuel : Nat) (budget : Int) : List State :=
  if e.faulted ∨ topUp e.gas budget ≤ 0 then []
  else (e.calls fuel (e.opened budget)).flatMap (stepped e.instance_ fuel)

section
variable {e e' : Executor} {fuel : Nat} {budget : Int} {sb sb' : Sandbox}

theorem row_calls (e : Executor) (fuel : Nat) (sb : Sandbox) :
    Row e.instance_ fuel sb (e.calls fuel sb) := by
  unfold calls
  cases e.instance_.controls with
  | none => exact .nil
  | some controls =>
    dsimp only
    have hentry (sb : Sandbox) : Row e.instance_ fuel sb (⟨sb, .call e.entry []⟩ ::
        match call e.instance_ fuel e.entry [] sb with
        | some (.ok (), sb) =>
          if sb.paused = true ∧ ¬e.instance_.controlBlock.stackEnd < position e.instance_ sb then
            [⟨sb.tell .stopUnwind, .call controls.stopUnwind []⟩]
          else []
        | _ => []) := by
      have hstarted : Started sb ⟨sb, .call e.entry []⟩ := ⟨sb.signals, e.entry, [], rfl⟩
      split
      · rename_i sb₂ hcall
        obtain ⟨results, hrun⟩ := call_eq_ok.1 hcall
        refine .cons hstarted hrun ?_
        split
        · exact .last ⟨_, _, _, rfl⟩
        · exact .nil
      · exact .last hstarted
    by_cases hp : sb.paused = true
    · have hstarted : Started sb ⟨sb.tell (.startRewind e.instance_.controlBlock.address),
          .call controls.startRewind [.ofWord e.instance_.controlBlock.address]⟩ :=
        ⟨_, _, _, rfl⟩
      rw [if_pos hp]
      split
      · rename_i sb₁ hrewind
        rw [rewind_eq, if_pos hp] at hrewind
        obtain ⟨results, hrun⟩ := call_eq_ok.1 hrewind
        exact .cons hstarted hrun (hentry sb₁)
      · exact .last hstarted
    · rw [if_neg hp, rewind_eq, if_neg hp]
      exact hentry sb

/-- The call that a tick begins with if the instance is paused. -/
def opening (e : Executor) (controls : Controls) (sb : Sandbox) : List State :=
  if sb.paused then [⟨sb.tell (.startRewind e.instance_.controlBlock.address),
    .call controls.startRewind [.ofWord e.instance_.controlBlock.address]⟩] else []

/-- How a tick ends, with all the calls that it has made. -/
inductive Went (e : Executor) (fuel : Nat) (controls : Controls) (sb : Sandbox) :
    Except ExecutionError Bool → Sandbox → List State → Prop
  /-- The instance could not be told to rewind. -/
  | unopened {error : ExecutionError} {sb' : Sandbox} (paused : sb.paused = true)
      (failed : Machine.run e.instance_ fuel
        ⟨sb.tell (.startRewind e.instance_.controlBlock.address),
          .call controls.startRewind [.ofWord e.instance_.controlBlock.address]⟩ =
        some (.failed error sb')) :
      Went e fuel controls sb (.error error) sb' (e.opening controls sb)
  /-- The entry failed. -/
  | failed {error : ExecutionError} {sb₁ sb' : Sandbox}
      (rewound : Rewound e.instance_ fuel controls.startRewind sb sb₁)
      (failed : Machine.run e.instance_ fuel ⟨sb₁, .call e.entry []⟩ = some (.failed error sb')) :
      Went e fuel controls sb (.error error) sb'
        (e.opening controls sb ++ [⟨sb₁, .call e.entry []⟩])
  /-- It returned, and that is all. -/
  | returned {sb₁ sb₂ : Sandbox} (rewound : Rewound e.instance_ fuel controls.startRewind sb sb₁)
      (entered : Returns e.instance_ fuel e.entry [] sb₁ sb₂) (running : sb₂.paused = false) :
      Went e fuel controls sb (.ok true) sb₂ (e.opening controls sb ++ [⟨sb₁, .call e.entry []⟩])
  /-- The stack did not fit its region. -/
  | overflown {sb₁ sb₂ : Sandbox} (rewound : Rewound e.instance_ fuel controls.startRewind sb sb₁)
      (entered : Returns e.instance_ fuel e.entry [] sb₁ sb₂) (paused : sb₂.paused = true)
      (past : e.instance_.controlBlock.stackEnd < position e.instance_ sb₂) :
      Went e fuel controls sb (.error (.stackOverflow (position e.instance_ sb₂)
        e.instance_.controlBlock.stackEnd)) sb₂
        (e.opening controls sb ++ [⟨sb₁, .call e.entry []⟩])
  /-- The instance could not be told to stop unwinding. -/
  | unclosed {error : ExecutionError} {sb₁ sb₂ sb' : Sandbox}
      (rewound : Rewound e.instance_ fuel controls.startRewind sb sb₁)
      (entered : Returns e.instance_ fuel e.entry [] sb₁ sb₂) (paused : sb₂.paused = true)
      (room : ¬e.instance_.controlBlock.stackEnd < position e.instance_ sb₂)
      (failed : Machine.run e.instance_ fuel
        ⟨sb₂.tell .stopUnwind, .call controls.stopUnwind []⟩ = some (.failed error sb')) :
      Went e fuel controls sb (.error error) sb' (e.opening controls sb ++
        [⟨sb₁, .call e.entry []⟩, ⟨sb₂.tell .stopUnwind, .call controls.stopUnwind []⟩])
  /-- The stack is captured. -/
  | captured {sb₁ sb₂ sb' : Sandbox}
      (rewound : Rewound e.instance_ fuel controls.startRewind sb sb₁)
      (entered : Returns e.instance_ fuel e.entry [] sb₁ sb₂) (paused : sb₂.paused = true)
      (room : ¬e.instance_.controlBlock.stackEnd < position e.instance_ sb₂)
      (stopped : Returns e.instance_ fuel controls.stopUnwind [] (sb₂.tell .stopUnwind) sb') :
      Went e fuel controls sb (.ok false) sb' (e.opening controls sb ++
        [⟨sb₁, .call e.entry []⟩, ⟨sb₂.tell .stopUnwind, .call controls.stopUnwind []⟩])

/-- A tick has ended in one of these ways. -/
theorem went_of_tick {controls : Controls} {answer : Except ExecutionError Bool}
    (hcontrols : e.instance_.controls = some controls)
    (h : e.tick fuel sb = some (answer, sb')) :
    Went e fuel controls sb answer sb' (e.calls fuel sb) := by
  rw [tick_eq hcontrols] at h
  have hcalls : e.calls fuel sb = e.opening controls sb ++
      match rewind e.instance_ fuel controls.startRewind sb with
      | some (.ok (), sb) =>
        ⟨sb, .call e.entry []⟩ ::
          match call e.instance_ fuel e.entry [] sb with
          | some (.ok (), sb) =>
            if sb.paused = true ∧ ¬e.instance_.controlBlock.stackEnd < position e.instance_ sb then
              [⟨sb.tell .stopUnwind, .call controls.stopUnwind []⟩]
            else []
          | _ => []
      | _ => [] := by
    rw [calls, hcontrols]
    rfl
  rw [hcalls]
  rcases tick_bind_cases h with ⟨error, hrewind, rfl⟩ | ⟨_, sb₁, hrewind, h⟩
  · rw [hrewind]
    rw [rewind_eq] at hrewind
    split at hrewind
    · simpa using Went.unopened ‹_› (call_eq_error.1 hrewind)
    · cases hrewind
  · have hrewound := rewind_eq_ok.1 hrewind
    rw [hrewind]
    dsimp only
    rcases tick_bind_cases h with ⟨error, hentry, rfl⟩ | ⟨_, sb₂, hentry, h⟩
    · rw [hentry]
      exact .failed hrewound (call_eq_error.1 hentry)
    · have hentered := call_eq_ok.1 hentry
      rw [hentry]
      dsimp only
      rw [unwound_eq] at h
      by_cases hp : sb₂.paused = true
      · rw [if_pos hp] at h
        by_cases hover : e.instance_.controlBlock.stackEnd < position e.instance_ sb₂
        · have hcheck := checkPosition_eq e.instance_ sb₂
          rw [if_pos hover] at hcheck
          rw [tick_bind_of_error hcheck] at h
          cases h
          simpa [hover] using Went.overflown hrewound hentered hp hover
        · have hcheck := checkPosition_eq e.instance_ sb₂
          rw [if_neg hover] at hcheck
          rw [tick_bind_of_ok hcheck, tick_modify_bind] at h
          rw [if_pos ⟨hp, hover⟩]
          rcases tick_bind_cases h with ⟨error, hstop, rfl⟩ | ⟨_, sb₃, hstop, h⟩
          · exact .unclosed hrewound hentered hp hover (call_eq_error.1 hstop)
          · cases h
            exact .captured hrewound hentered hp hover (call_eq_ok.1 hstop)
      · rw [if_neg hp] at h
        cases h
        simpa [hp] using Went.returned hrewound hentered (Bool.eq_false_iff.2 hp)

/-- A tick fails with its last call, or is over with it. -/
theorem last_of_tick {controls : Controls} {answer : Except ExecutionError Bool}
    (hcontrols : e.instance_.controls = some controls)
    (h : e.tick fuel sb = some (answer, sb')) :
    ∃ earlier last visited s, e.calls fuel sb = earlier ++ [last] ∧
      stepped e.instance_ fuel last = visited ++ [s] ∧ stepSandbox (step e.instance_ s) = sb' := by
  have hlast {s : State} {o : Outcome} {earlier : List State}
      (hrun : Machine.run e.instance_ fuel s = some o) (ho : outcomeSandbox o = sb') :
      ∃ earlier' last visited s', earlier ++ [s] = earlier' ++ [last] ∧
        stepped e.instance_ fuel last = visited ++ [s'] ∧
        stepSandbox (step e.instance_ s') = sb' := by
    obtain ⟨visited, s', -, hend, hstepped⟩ := exists_trail_of_run hrun
    refine ⟨earlier, s, visited, s', rfl, hstepped, ?_⟩
    cases hstep : step e.instance_ s' <;> rw [hstep] at hend <;> cases hend <;> exact ho
  have hwent := went_of_tick hcontrols h
  generalize e.calls fuel sb = calls at hwent
  cases hwent with
  | unopened paused failed =>
    rw [opening, if_pos paused]
    exact @hlast _ _ [] failed rfl
  | failed _ failed => exact hlast failed rfl
  | returned _ entered | overflown _ entered =>
    obtain ⟨results, hrun⟩ := entered
    exact hlast hrun rfl
  | unclosed _ _ _ _ failed =>
    rw [List.append_cons]
    exact hlast failed rfl
  | captured _ _ _ _ stopped =>
    obtain ⟨results, hrun⟩ := stopped
    rw [List.append_cons]
    exact hlast hrun rfl

theorem isChain_states (e : Executor) (fuel : Nat) (budget : Int) :
    (e.states fuel budget).IsChain (Follows e.instance_) := by
  unfold states
  split
  · exact .nil
  · exact (row_calls ..).isChain.1

theorem started_of_head {s : State} (h : s ∈ (e.states fuel budget).head?) :
    Started (e.opened budget) s := by
  unfold states at h
  split at h
  · cases h
  · exact (row_calls ..).isChain.2 s h

/-- What a run leaves is what the step from its last state does, or there is no such state. -/
theorem Ran.last {answer : Except ExecutionError Bool} (h : e.Ran fuel budget answer e') :
    (e.states fuel budget = [] ∧ e'.sandbox = e.opened budget) ∨
      ∃ visited s, e.states fuel budget = visited ++ [s] ∧
        stepSandbox (step e.instance_ s) = e'.sandbox := by
  have htick {answer : Except ExecutionError Bool} (hopen : e.faulted = false)
      (hgas : 0 < topUp e.gas budget)
      (h : e.tick fuel { e.sandbox with gas := topUp e.gas budget } = some (answer, e'.sandbox)) :
      (e.states fuel budget = [] ∧ e'.sandbox = e.opened budget) ∨
        ∃ visited s, e.states fuel budget = visited ++ [s] ∧
          stepSandbox (step e.instance_ s) = e'.sandbox := by
    have hopened : e.opened budget = { e.sandbox with gas := topUp e.gas budget } :=
      if_neg (Bool.eq_false_iff.1 hopen)
    have hstates : e.states fuel budget = (e.calls fuel (e.opened budget)).flatMap
        (stepped e.instance_ fuel) := if_neg (by simp [hopen, hgas])
    rw [← hopened] at h
    cases hcontrols : e.instance_.controls with
    | none =>
      rw [tick, hcontrols] at h
      have hsame : e.opened budget = e'.sandbox := congrArg Prod.snd (Option.some.inj h)
      rw [hstates, calls, hcontrols]
      exact .inl ⟨rfl, hsame.symm⟩
    | some controls =>
      obtain ⟨earlier, last, visited, s, hcalls, hstepped, hlast⟩ := last_of_tick hcontrols h
      refine .inr ⟨earlier.flatMap (stepped e.instance_ fuel) ++ visited, s, ?_, hlast⟩
      rw [hstates, hcalls, List.flatMap_append, List.flatMap_singleton, hstepped,
        List.append_assoc]
  cases h with
  | refused faulted =>
    exact .inl ⟨if_pos (.inl faulted), (if_pos faulted).symm⟩
  | idle unfaulted gas =>
    exact .inl ⟨if_pos (.inr gas), (if_neg (Bool.eq_false_iff.1 unfaulted)).symm⟩
  | ended unfaulted gas tick | failed unfaulted gas tick => exact htick unfaulted gas tick

end

end Executor

/-! ## Growth -/

/-- From one state to the other memories have grown. -/
def Machine.State.Grown (s s' : State) : Prop := s.sandbox.storage.Grown s'.sandbox.storage

instance : Trans State.Grown State.Grown State.Grown :=
  ⟨fun h h' => Storage.Grown.trans h h'⟩

namespace Executor

section
variable {e e' : Executor} {fuel : Nat} {budget : Int}

theorem storage_opened (e : Executor) (budget : Int) :
    (e.opened budget).storage = e.sandbox.storage := by
  unfold opened
  split <;> rfl

/-- From one state of a run to any later one memories have grown. -/
theorem pairwise_grown (e : Executor) (fuel : Nat) (budget : Int) :
    (e.states fuel budget).Pairwise State.Grown := by
  refine ((isChain_states e fuel budget).imp fun s s' h => ?_).pairwise
  obtain ⟨signals, hsandbox⟩ := h.sandbox
  have hgrown := grown_step e.instance_ s
  rw [State.Grown, hsandbox]
  exact hgrown

theorem grown_opened {s : State} (h : s ∈ e.states fuel budget) :
    e.sandbox.storage.Grown s.sandbox.storage := by
  have hpairwise := pairwise_grown e fuel budget
  cases hstates : e.states fuel budget with
  | nil => simp [hstates] at h
  | cons s₀ rest =>
    have hstarted : Started (e.opened budget) s₀ :=
      @started_of_head e fuel budget s₀ (by rw [hstates]; rfl)
    obtain ⟨signals, func, args, rfl⟩ := hstarted
    rw [← storage_opened e budget]
    rw [hstates] at h hpairwise
    rcases List.mem_cons.1 h with rfl | hs
    · exact .refl _
    · exact (List.pairwise_cons.1 hpairwise).1 s hs

/-- From any state of a run to what it leaves memories have grown. -/
theorem Ran.grown_last {answer : Except ExecutionError Bool} (h : e.Ran fuel budget answer e')
    {s : State} (hs : s ∈ e.states fuel budget) :
    s.sandbox.storage.Grown e'.sandbox.storage := by
  rcases h.last with ⟨hnone, -⟩ | ⟨visited, last, hstates, hlast⟩
  · simp [hnone] at hs
  · have hpairwise := pairwise_grown e fuel budget
    have hgrown := grown_step e.instance_ last
    rw [hlast] at hgrown
    rw [hstates] at hs hpairwise
    rcases List.mem_append.1 hs with hbefore | hlast
    · exact ((List.pairwise_append.1 hpairwise).2.2 s hbefore last (by simp)).trans hgrown
    · rw [List.mem_singleton.1 hlast]
      exact hgrown

theorem Ran.grown {answer : Except ExecutionError Bool} (h : e.Ran fuel budget answer e') :
    e.sandbox.storage.Grown e'.sandbox.storage := by
  rcases h.last with ⟨-, hsame⟩ | ⟨visited, last, hstates, -⟩
  · rw [hsame, storage_opened]
    exact .refl _
  · have hmem : last ∈ e.states fuel budget := by simp [hstates]
    exact (grown_opened hmem).trans (h.grown_last hmem)

/-- A snapshot is as large as the memory that it replaces. -/
theorem grown_restored {snapshot : ByteArray} (h : e.deserialize snapshot = .ok e') :
    e.sandbox.storage.Grown e'.sandbox.storage := by
  obtain ⟨-, hsize, -, rfl⟩ := deserialize_eq_ok.1 h
  refine Storage.grown_modifyMemory fun m hm => m.grown_bytes ?_
  have hmemory : e.memory = m := by rw [memory, memoryOf, hm, Option.getD_some]
  rw [hsize, memorySize, hmemory]

theorem Later.grown (h : Later e e') : e.sandbox.storage.Grown e'.sandbox.storage := by
  induction h with
  | start => exact .refl _
  | run _ hrun ih => exact ih.trans (ran_of_run hrun).grown
  | restore _ hrestored ih => exact ih.trans (grown_restored hrestored)

end

end Executor

end MeteredWasm
