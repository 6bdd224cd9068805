import MeteredWasm.Proofs.Machine.Signals
import MeteredWasm.Proofs.Session.Idle
import MeteredWasm.Proofs.Session.Use

/-!
# The life of an executor

What a run answers tells whether the executor is paused, idle or done, and an error stops it for
good (`AnswerTells`, `Lifecycle`, `lifecycle`). Nothing has to be known of the module, but for one
thing: an instance may call the hook when it is told to stop unwinding, and then it is not paused
any more when the run answers that it is (`relapse_not_paused`).
-/

set_option autoImplicit false

namespace MeteredWasm

open Wasm Machine Metering Linking

namespace Executor

/-! ## What answers tell -/

/-- What the answer of a run tells about the executor `e` that is run and what it becomes: the entry
has returned; or there was no gas, or, of an executor that stops quietly, it is paused; or it is
stopped for good. -/
def AnswerTells (quiet : Prop) (e e' : Executor) : Except ExecutionError Bool → Prop
  | .ok true => e'.isPaused = false ∧ e'.faulted = false
  | .ok false => e'.faulted = false ∧ (quiet →
      (e' = { e with sandbox := { e.sandbox with gas := e'.gas } } ∧ e'.gas ≤ 0) ∨
        e'.isPaused = true)
  | .error _ => e'.faulted = true

/-- No call of the function that stops unwinding enters the hook. -/
def StopsQuietly (i : Instance) : Prop :=
  ∀ controls, i.controls = some controls → Quiet i controls.stopUnwind

section
variable {e e' : Executor} {fuel : Nat} {budget : Int} {answer : Except ExecutionError Bool}

/-- The answer of a tick is the flag that it leaves, but for what stopping changes. -/
theorem paused_of_tick {finished : Bool} {sb sb' : Sandbox}
    (hquiet : finished = false → StopsQuietly e.instance_)
    (h : e.tick fuel sb = some (.ok finished, sb')) : sb'.paused = !finished := by
  obtain ⟨controls, hcontrols, htick⟩ := ownTick_of_tick h
  cases htick with
  | returned _ _ running => exact running
  | captured _ _ paused _ stopped =>
    exact (stopped.unhooked (hquiet rfl _ hcontrols)).paused.trans paused

theorem Ran.tells (h : e.Ran fuel budget answer e') :
    AnswerTells (StopsQuietly e.instance_) e e' answer := by
  cases h with
  | refused faulted => exact faulted
  | idle unfaulted gas => exact ⟨unfaulted, fun _ => .inl ⟨rfl, gas⟩⟩
  | failed => rfl
  | @ended finished sandbox unfaulted _ tick =>
    cases finished with
    | true => exact ⟨paused_of_tick (fun h => nomatch (h : true = false)) tick, unfaulted⟩
    | false => exact ⟨unfaulted, fun hq => .inr (paused_of_tick (fun _ => hq) tick)⟩

/-! ## Executors that an error has stopped -/

/-- Nothing can be done any more, and nothing changes any more. -/
structure Stopped (e : Executor) : Prop where
  run : ∀ fuel budget, e.run fuel budget = some (.error .faulted, e)
  deserialize : ∀ snapshot, e.deserialize snapshot = .error .faulted
  serialize : e.serialize = none

theorem stopped_of_faulted (h : e.faulted = true) : Stopped e where
  run _ _ := run_of_faulted h
  deserialize snapshot := by simp [Executor.deserialize, h]
  serialize := by simp [Executor.serialize, h]

variable {e₀ : Executor}

/-- An executor that is stopped stays as it is. -/
theorem Later.of_faulted (h : Later e e') (hfaulted : e.faulted = true) : e' = e := by
  induction h with
  | start => rfl
  | run _ hrun ih =>
    subst ih
    rw [run_of_faulted hfaulted] at hrun
    cases hrun
    rfl
  | restore _ hrestored ih =>
    subst ih
    rw [(stopped_of_faulted hfaulted).deserialize] at hrestored
    cases hrestored

/-! ## The life of an executor -/

/-- What holds of an executor at any time. -/
structure Lifecycle (quiet : Prop) (e : Executor) : Prop where
  /-- The answer of a run tells what has become of the executor. -/
  answers : ∀ fuel budget answer e', e.run fuel budget = some (answer, e') →
    AnswerTells quiet e e' answer
  /-- An error has stopped it for good. -/
  faulted : e.faulted = true → ∀ e', Later e e' → e' = e ∧ Stopped e'
  /-- There is a snapshot if it is paused and nothing has stopped it. -/
  serializes : e.serialize.isSome ↔ e.isPaused = true ∧ e.faulted = false
  /-- A snapshot has the whole memory. -/
  whole : ∀ snapshot, e.serialize = some snapshot → snapshot = e.memory.bytes

theorem lifecycle (e : Executor) : Lifecycle (StopsQuietly e.instance_) e where
  answers fuel budget answer e' hrun := (ran_of_run hrun).tells
  faulted hfaulted e' hlater := by
    cases hlater.of_faulted hfaulted
    exact ⟨rfl, stopped_of_faulted hfaulted⟩
  serializes := by simp [Executor.serialize]
  whole snapshot hsnapshot := (serialize_eq_some.1 hsnapshot).2.2

end

end Executor

/-! ## An instance that captures nothing -/

/-- A module with an entry that prints, and charges 10 without any need. It has functions of its own
for its stack, but does not capture it; when it is told to stop unwinding it runs `stop`. -/
def capturerModule (stop : List Operator) : Module :=
  ⟨[.types [.plain ⟨[], []⟩, hookTypeEntry],
    .imports [⟨hookModule, hookName, .func 1⟩, ⟨"env", "print", .func 0⟩], .functions [0, 0, 0, 1],
    .memories [⟨⟨1, none⟩, false, false, none⟩],
    .exports [⟨"entry", .func, 2⟩, ⟨"memory", .memory, 0⟩, ⟨Suspension.startUnwind, .func, 5⟩,
      ⟨Suspension.stopUnwind, .func, 3⟩, ⟨Suspension.startRewind, .func, 5⟩,
      ⟨Suspension.stopRewind, .func, 4⟩],
    .code [⟨[], [.call 1, .i32Const 10, .call 0, .endMark]⟩, ⟨[], stop⟩, ⟨[], [.endMark]⟩,
      ⟨[], [.endMark]⟩]]⟩

def capturerArtifact (stop : List Operator) : Artifact :=
  ⟨(capturerModule stop).encode, "entry", ⟨⟨1, none⟩, false, false⟩, some "memory", .standard⟩

def capturerInstance (stop : List Operator) : Instance where
  types := ((capturerModule stop).types.map TypeEntry.type).toArray
  functions := #[.hook, .host "env" "print" ⟨[], []⟩ printBehaviour,
    .code ⟨[], []⟩ [] [.call 1, .i32Const 10, .call 0, .endMark], .code ⟨[], []⟩ [] stop,
    .code ⟨[], []⟩ [] [.endMark], .code ⟨[.i32], []⟩ [] [.endMark]]
  relaxed := fun _ _ => 0
  controls := some ⟨5, 3, 5, 4⟩
  controlBlock := .standard
  blockMemory := 0
  maxDepth := 10

def capturer (stop : List Operator) : Executor :=
  ⟨capturerInstance stop, 2, ⟨⟨[idlePage], [], [], [], []⟩, 0, false, [], []⟩, false⟩

def printing : Imports := { Imports.empty with print := true }

section
variable {stop : List Operator}

theorem create_capturer
    (hvalid : Validation.validate? .engine (capturerArtifact stop).wasm =
      some (capturerModule stop)) :
    Executor.create 1 shallow (capturerArtifact stop) printing 256 =
      some (.ok (capturer stop), []) := by
  have hp : instantiate? (capturerArtifact stop) printing 256 (Executor.hardware shallow)
      (capturerModule stop) = some ⟨capturerModule stop,
        { capturerInstance stop with controls := none }, (capturer stop).sandbox.storage⟩ := rfl
  refine Executor.create_of_valid hvalid rfl rfl hp rfl rfl ?_ rfl rfl
  change ControlBlock.requiredMemory .standard ≤ idlePage.size
  rw [size_idlePage]
  decide

/-- It has printed, and is about to charge. -/
def capturerHeld : Thread := ⟨.invoke 0 [.i32 10], [.activation ⟨2, 0, [], [], [], [.endMark]⟩], 1⟩

/-- Its sandbox when it has printed, with what gas is left. -/
def capturerPrinted (gas : Int) : Sandbox :=
  ⟨⟨[idlePage], [], [], [], []⟩, gas, false, [⟨"env", "print", []⟩], []⟩

/-- The sandbox when it has come back from its entry, paused for want of gas. -/
def capturerBack (stop : List Operator) : Sandbox :=
  { unwinding (capturerInstance stop) (capturerPrinted 1) 10 with paused := true }

theorem holds_idlePage : idlePage.holds (ControlBlock.address .standard).toNat 8 = true := by
  rw [Memory.holds, size_idlePage]
  decide

theorem fits_capturer : (capturerInstance stop).BlockFits (capturerPrinted 1).storage :=
  blockFits_of_memory (m := idlePage) rfl holds_idlePage

/-- With 1 to spend it charges 10, and comes back to its entry paused. -/
theorem capturer_enters : Executor.Returns (capturerInstance stop) 16 2 []
    { (capturer stop).sandbox with gas := 1 } (capturerBack stop) := by
  have hfirst : ∃ visited, Trail (capturerInstance stop)
      ⟨{ (capturer stop).sandbox with gas := 1 }, .call 2 []⟩ visited
        ⟨capturerPrinted 1, capturerHeld⟩ ∧ visited.length = 6 :=
    ⟨_, .step (.step (.step (.step (.step (.step .here rfl) rfl) rfl) rfl) rfl) rfl, rfl⟩
  obtain ⟨visited, htrail, hlength⟩ := hfirst
  have hpause := @step_pausing (capturerInstance stop) ⟨capturerPrinted 1, capturerHeld⟩
    ⟨5, 3, 5, 4⟩ 0 10 rfl rfl rfl rfl (by decide) fits_capturer
  have hrest : ∃ more s, Trail (capturerInstance stop)
      ⟨unwinding (capturerInstance stop) (capturerPrinted 1) 10,
        ⟨.invoke 5 [.ofWord 16], .hook .pausing :: capturerHeld.frames, 2⟩⟩ more s ∧
      more.length = 5 ∧
      (step (capturerInstance stop) s).outcome? = some (.finished [] (capturerBack stop)) :=
    ⟨_, _, .step (.step (.step (.step (.step .here rfl) rfl) rfl) rfl) rfl, rfl, rfl⟩
  obtain ⟨more, s, hmore, hlength', hend⟩ := hrest
  obtain ⟨hrun, -⟩ := ((htrail.step hpause).append hmore).run hend
  rw [List.length_append, List.length_append, hlength, hlength'] at hrun
  exact ⟨[], run_add hrun 3⟩

/-- What the control block says then is that nothing has been captured. -/
theorem capturer_room : ¬(capturerInstance stop).controlBlock.stackEnd <
    Executor.position (capturerInstance stop) (capturerBack stop) := by
  have hload := (holdsBlock .standard holds_idlePage).start
  have hposition : Executor.position (capturerInstance stop) (capturerBack stop) = 24 :=
    Executor.position_of_load rfl hload
  rw [hposition]
  change ¬(1024 : UInt32) < 24
  decide

/-- So the run ends with what it does when it is told to stop unwinding. -/
theorem capturer_run {sb : Sandbox}
    (hstop : Executor.Returns (capturerInstance stop) 16 3 []
      ((capturerBack stop).tell .stopUnwind) sb) :
    (capturer stop).run 16 1 = some (.ok false, { capturer stop with sandbox := sb }) := by
  have hrewound : Executor.Rewound (capturerInstance stop) 16 5
      { (capturer stop).sandbox with gas := 1 } { (capturer stop).sandbox with gas := 1 } := by
    simp [Executor.Rewound, capturer]
  exact Executor.run_of_ownTick (e := capturer stop) rfl rfl Int.one_pos
    (.captured hrewound capturer_enters rfl capturer_room hstop)

end

/-- When it is told to stop unwinding, the capturer charges once more. -/
def relapse : List Operator := [.i32Const 0, .call 0, .endMark]

namespace Executor

/-- The run answers that the entry has not returned, but the executor is not paused, and it has
called its host. -/
theorem relapse_not_paused :
    create 1 shallow (capturerArtifact relapse) printing 256 = some (.ok (capturer relapse), []) ∧
      ∃ e, (capturer relapse).run 16 1 = some (.ok false, e) ∧ e.isPaused = false ∧
        e.sandbox.calls ≠ (capturer relapse).sandbox.calls ∧
        ¬AnswerTells True (capturer relapse) e (.ok false) := by
  have hvalid : Validation.validate? .engine (capturerArtifact relapse).wasm =
      some (capturerModule relapse) := by
    change Validation.validate? .engine (capturerModule relapse).encode = _
    decide +kernel
  have hstop : ∃ sb, Returns (capturerInstance relapse) 16 3 []
      ((capturerBack relapse).tell .stopUnwind) sb ∧ sb.paused = false ∧
      sb.calls = [⟨"env", "print", []⟩] :=
    ⟨_, ⟨[], show Machine.run _ 16 _ = _ from rfl⟩, rfl, rfl⟩
  obtain ⟨sb, hstop, hpaused, hcalls⟩ := hstop
  refine ⟨create_capturer hvalid, _, capturer_run hstop, hpaused, ?_, ?_⟩
  · change sb.calls ≠ []
    rw [hcalls]
    exact nofun
  · rintro ⟨-, htells⟩
    rcases htells trivial with ⟨hsame, -⟩ | hp
    · have hsandbox := congrArg (fun e : Executor => e.sandbox.calls) hsame
      change sb.calls = [] at hsandbox
      rw [hcalls] at hsandbox
      cases hsandbox
    · change sb.paused = true at hp
      rw [hpaused] at hp
      cases hp

end Executor

end MeteredWasm
