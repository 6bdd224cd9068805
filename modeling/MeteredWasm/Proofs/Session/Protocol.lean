import MeteredWasm.Proofs.Machine.Signals
import MeteredWasm.Proofs.Session.Lifecycle

/-!
# The control protocol

What an instance is told in a run that ends without an error (`Protocol`, `control_protocol`).
Without gas that is nothing. Otherwise it is told to rewind if the executor has been paused; while its
entry runs, to stop rewinding and to unwind in turn; and to stop unwinding if it is paused when the
entry comes back. This holds of every instance, whoever has made it, as long as the functions that it
has for its own stack do not call the hook.
-/

set_option autoImplicit false

namespace MeteredWasm

open Wasm Machine Simulation Linking

namespace Executor

/-- How a tick closes: a paused instance is told to stop unwinding, if the captured stack is within
its region. -/
inductive Closes (i : Instance) (fuel : Nat) (stopUnwind : UInt32) (sb : Sandbox) : Sandbox → Prop
  | running (running : sb.paused = false) : Closes i fuel stopUnwind sb sb
  | paused {sb' : Sandbox} (paused : sb.paused = true)
      (room : ¬i.controlBlock.stackEnd < position i sb)
      (stopped : Returns i fuel stopUnwind [] (sb.tell .stopUnwind) sb') :
      Closes i fuel stopUnwind sb sb'

/-- What the instance is told in a tick whose entry is called in `sb` and comes back to `sb'`. -/
structure Tells (e : Executor) (controls : Controls) (fuel : Nat) (budget : Int) (finished : Bool)
    (e' : Executor) (sb sb' : Sandbox) : Prop where
  rewound : Rewound e.instance_ fuel controls.startRewind
    { e.sandbox with gas := topUp e.gas budget } sb
  entered : Returns e.instance_ fuel e.entry [] sb sb'
  closes : Closes e.instance_ fuel controls.stopUnwind sb' e'.sandbox
  signals : e'.sandbox.signals.reverse = e.sandbox.signals.reverse ++
    (if e.isPaused then [.startRewind e.instance_.controlBlock.address] else []) ++
    told e.instance_ (stepped e.instance_ fuel ⟨sb, .call e.entry []⟩) ++
    (if sb'.paused then [.stopUnwind] else [])
  alternates : Alternates e.instance_.controlBlock.address e.isPaused
    (told e.instance_ (stepped e.instance_ fuel ⟨sb, .call e.entry []⟩)) sb'.paused
  /-- What it is told by the hook it is told for a reason. -/
  reasons : ∀ v ∈ stepped e.instance_ fuel ⟨sb, .call e.entry []⟩, ∀ signal,
    signalOf? e.instance_ v = some signal → ToldAt e.instance_ v signal
  answer : finished = !sb'.paused
  paused : e'.isPaused = sb'.paused

/-- What an instance is told in a run that ends without an error. -/
def Protocol (e : Executor) (fuel : Nat) (budget : Int) (finished : Bool) (e' : Executor) : Prop :=
  if topUp e.gas budget ≤ 0 then
    finished = false ∧ e'.sandbox.signals = e.sandbox.signals ∧ e'.isPaused = e.isPaused
  else ∃ controls, e.instance_.controls = some controls ∧
    ∃ sb sb', Tells e controls fuel budget finished e' sb sb'

section
variable {i : Instance} {fuel : Nat} {sb sb' : Sandbox} {func : UInt32} {args : List Value}

/-- What is told while a function runs that is called from outside. -/
theorem Returns.told (h : Returns i fuel func args sb sb') (hquiet : ControlsQuiet i) :
    sb'.signals = (told i (stepped i fuel ⟨sb, .call func args⟩)).reverse ++ sb.signals ∧
      Alternates i.controlBlock.address sb.paused
        (Machine.told i (stepped i fuel ⟨sb, .call func args⟩)) sb'.paused := by
  obtain ⟨results, hrun⟩ := h
  obtain ⟨visited, s, htrail, hend, hstepped⟩ := exists_trail_of_run hrun
  obtain ⟨q, hphase, halternates⟩ :=
    (Phase.outside (s := ⟨sb, .call func args⟩) rfl).trail hquiet htrail
  have hstep := Step.eq_finished hend
  obtain ⟨-, hframes, rfl⟩ := give_of_finished hstep
  have hlast : signalOf? i s = none := signalOf_eq_none (by rw [hstep]; rfl)
  have htold : Machine.told i (stepped i fuel ⟨sb, .call func args⟩) = Machine.told i visited := by
    rw [hstepped, Machine.told, List.filterMap_append]
    simp [Machine.told, hlast]
  rw [htold, ← hphase.eq_paused hframes]
  exact ⟨signals_trail htrail, halternates⟩

theorem Rewound.told {startRewind : UInt32} (h : Rewound i fuel startRewind sb sb')
    (hquiet : Quiet i startRewind) :
    sb'.signals = (if sb.paused then [.startRewind i.controlBlock.address] else []) ++ sb.signals ∧
      sb'.paused = sb.paused := by
  unfold Rewound at h
  by_cases hp : sb.paused = true
  · rw [if_pos hp] at h ⊢
    exact ⟨(h.unhooked hquiet).signals, (h.unhooked hquiet).paused⟩
  · rw [if_neg hp] at h ⊢
    subst h
    exact ⟨rfl, rfl⟩

theorem Closes.told {stopUnwind : UInt32} (h : Closes i fuel stopUnwind sb sb')
    (hquiet : Quiet i stopUnwind) :
    sb'.signals = (if sb.paused then [.stopUnwind] else []) ++ sb.signals ∧
      sb'.paused = sb.paused := by
  cases h with
  | running running =>
    rw [running]
    exact ⟨rfl, rfl⟩
  | paused paused _ stopped =>
    rw [paused]
    have hunhooked := stopped.unhooked hquiet
    exact ⟨hunhooked.signals, hunhooked.paused.trans paused⟩

end

section
variable {e e' : Executor} {fuel : Nat} {budget : Int} {finished : Bool}

/-- What the calls of a tick say together. -/
theorem tells_of_calls {controls : Controls} {sb sb' : Sandbox}
    (hcontrols : e.instance_.controls = some controls) (hquiet : ControlsQuiet e.instance_)
    (hrewound : Rewound e.instance_ fuel controls.startRewind
      { e.sandbox with gas := topUp e.gas budget } sb)
    (hentered : Returns e.instance_ fuel e.entry [] sb sb')
    (hcloses : Closes e.instance_ fuel controls.stopUnwind sb' e'.sandbox)
    (hanswer : finished = !sb'.paused) : Tells e controls fuel budget finished e' sb sb' := by
  obtain ⟨hfirst, hpaused⟩ := hrewound.told (hquiet _ hcontrols _ (by simp))
  obtain ⟨hmiddle, halternates⟩ := hentered.told hquiet
  obtain ⟨hlast, hsame⟩ := hcloses.told (hquiet _ hcontrols _ (by simp))
  have hbegan : sb.paused = e.isPaused := hpaused
  rw [hbegan] at halternates
  refine ⟨hrewound, hentered, hcloses, ?_, halternates,
    fun v _ signal hsignal => toldAt_of_signal hsignal, hanswer, hsame⟩
  rw [hlast, hmiddle, hfirst]
  have hreverse (c : Bool) (signal : Signal) :
      (if c then [signal] else []).reverse = if c then [signal] else [] := by cases c <;> rfl
  simp only [List.reverse_append, List.reverse_reverse, hreverse, List.append_assoc]
  rfl

/-- What an instance is told in any run that ends without an error, if its functions for its own
stack do not call the hook. -/
theorem control_protocol (hquiet : ControlsQuiet e.instance_)
    (hrun : e.run fuel budget = some (.ok finished, e')) : Protocol e fuel budget finished e' := by
  unfold Protocol
  generalize hanswer : (Except.ok finished : Except ExecutionError Bool) = answer at hrun
  cases ran_of_run hrun with
  | refused => cases hanswer
  | failed => cases hanswer
  | idle _ gas =>
    cases hanswer
    rw [if_pos gas]
    exact ⟨rfl, rfl, rfl⟩
  | ended unfaulted gas tick =>
    cases hanswer
    rw [if_neg (Int.not_le.2 gas)]
    obtain ⟨controls, hcontrols, htick⟩ := ownTick_of_tick tick
    refine ⟨controls, hcontrols, ?_⟩
    cases htick with
    | returned rewound entered running =>
      exact ⟨_, _, tells_of_calls hcontrols hquiet rewound entered (.running running)
        (by rw [running]; rfl)⟩
    | captured rewound entered paused room stopped =>
      exact ⟨_, _, tells_of_calls hcontrols hquiet rewound entered (.paused paused room stopped)
        (by rw [paused]; rfl)⟩

end

end Executor

/-! ## A quiet instance -/

/-- When it is told to stop unwinding, the capturer does nothing. -/
def quietStop : List Operator := [.endMark]

theorem create_quietStop : Executor.create 1 shallow (capturerArtifact quietStop) printing 256 =
    some (.ok (capturer quietStop), []) := by
  refine create_capturer ?_
  change Validation.validate? .engine (capturerModule quietStop).encode = _
  decide +kernel

theorem controlsQuiet_capturer : ControlsQuiet (capturerInstance quietStop) := by
  intro controls hcontrols func hfunc
  cases hcontrols
  simp only [List.mem_cons, List.not_mem_nil, or_false] at hfunc
  rcases hfunc with rfl | rfl | rfl | rfl <;> exact quiet_of_empty rfl

/-- The capturer, when it has been paused. -/
def capturerPaused : Executor :=
  { capturer quietStop with sandbox := (capturerBack quietStop).tell .stopUnwind }

theorem capturer_pauses : (capturer quietStop).run 16 1 = some (.ok false, capturerPaused) :=
  capturer_run ⟨[], show Machine.run _ 16 _ = _ from rfl⟩

/-- It goes on with 91 to spend: it is told to rewind, and then by the hook to stop that. -/
theorem capturer_resumes : ∃ sb,
    capturerPaused.run 16 100 = some (.ok true, { capturerPaused with sandbox := sb }) := by
  let opened : Sandbox := { capturerPaused.sandbox with gas := 91 }
  have hrewound : ∃ sb, Executor.Rewound (capturerInstance quietStop) 16 5 opened sb ∧
      ∃ sb', Executor.Returns (capturerInstance quietStop) 16 2 [] sb sb' ∧ sb'.paused = false :=
    ⟨_, (if_pos rfl).mpr ⟨[], show Machine.run _ 16 _ = _ from rfl⟩, _,
      ⟨[], show Machine.run _ 16 _ = _ from rfl⟩, rfl⟩
  obtain ⟨sb, hrewound, sb', hentered, hrunning⟩ := hrewound
  exact ⟨sb', Executor.run_of_ownTick (e := capturerPaused) rfl rfl (by decide)
    (.returned hrewound hentered hrunning)⟩

namespace Executor

theorem control_protocol_capturer :
    create 1 shallow (capturerArtifact quietStop) printing 256 =
        some (.ok (capturer quietStop), []) ∧
      ControlsQuiet capturerPaused.instance_ ∧ Later (capturer quietStop) capturerPaused ∧
      capturerPaused.isPaused = true ∧
      ∃ e, capturerPaused.run 16 100 = some (.ok true, e) ∧
        Protocol capturerPaused 16 100 true e := by
  obtain ⟨sb, hrun⟩ := capturer_resumes
  exact ⟨create_quietStop, controlsQuiet_capturer, .run .start capturer_pauses, rfl, _, hrun,
    control_protocol controlsQuiet_capturer hrun⟩

end Executor

end MeteredWasm
