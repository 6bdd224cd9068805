import MeteredWasm.CommandLine.Run
import MeteredWasm.Proofs.Session.IdleRuns

/-!
# Scripts

What a script comes to and what has been said by then, part by part: each of its parts either
hands on a value, fails, or does not end, and what comes after only sees the first.
-/

set_option autoImplicit false

namespace MeteredWasm

open Wasm Machine

namespace CommandLine

namespace Script

variable {α β : Type} {x : Script α} {f : α → Script β} {said said' : List Line}

theorem run_bind_of_ok {a : α} (h : x.run said = some (.ok a, said')) :
    (x >>= f).run said = (f a).run said' := by
  have hx : x said = some (.ok a, said') := h
  show (x said).bind _ = _
  rw [hx]
  rfl

theorem run_bind_of_error {failure : Failure} (h : x.run said = some (.error failure, said')) :
    (x >>= f).run said = some (.error failure, said') := by
  have hx : x said = some (.error failure, said') := h
  show (x said).bind _ = _
  rw [hx]
  rfl

theorem run_bind_of_none (h : x.run said = none) : (x >>= f).run said = none := by
  have hx : x said = none := h
  show (x said).bind _ = _
  rw [hx]
  rfl

/-- What a script with two parts comes to, it comes to in the second, or fails in the first. -/
theorem run_bind_cases {result : Except Failure β}
    (h : (x >>= f).run said = some (result, said')) :
    (∃ a between, x.run said = some (.ok a, between) ∧
      (f a).run between = some (result, said')) ∨
    ∃ failure, x.run said = some (.error failure, said') ∧ result = .error failure := by
  cases hx : x.run said with
  | none =>
    rw [run_bind_of_none hx] at h
    cases h
  | some y =>
    obtain ⟨failure | a, between⟩ := y
    · rw [run_bind_of_error hx] at h
      cases h
      exact .inr ⟨failure, rfl, rfl⟩
    · rw [run_bind_of_ok hx] at h
      exact .inl ⟨a, between, rfl, h⟩

theorem run_bind_eq_ok {b : β} (h : (x >>= f).run said = some (.ok b, said')) :
    ∃ a between, x.run said = some (.ok a, between) ∧ (f a).run between = some (.ok b, said') := by
  rcases run_bind_cases h with hok | ⟨_, -, hfailed⟩
  · exact hok
  · cases hfailed

theorem run_pure (a : α) (said : List Line) :
    (pure a : Script α).run said = some (.ok a, said) := rfl

theorem readFile_eq {files : Files} {path : String} {bytes : ByteArray}
    (h : files path = some bytes) : readFile files path = pure bytes := by
  rw [readFile, h]

end Script

/-! ## The parts of a run -/

/-- What is said of the calls of host functions, last one first. -/
def printed (calls : List HostCall) : List Line := calls.map (Line.printed ·.args)

namespace RunSettings

variable {fuel : Nat} {w : World} {s : RunSettings} {r : Runtime} {a : Artifact} {e : Executor}
  {said : List Line}

/-- What the executors of a run are made by. There is one, since the command line sets no stack. -/
def runtime (w : World) (s : RunSettings) : Runtime := ⟨s.options, w.relaxed⟩

theorem prepare_eq : s.prepare fuel w = (do
    let bytes ← Script.readFile w.files s.file
    let artifact ← Script.ofExcept id (s.readArtifact w bytes.toList)
    let executor ← createExecutor fuel (s.runtime w) artifact
    match s.resume with
    | none => return ⟨s.runtime w, artifact, executor, 0⟩
    | some path =>
      let snapshot ← Script.readFile w.files path
      let executor ← restore executor snapshot
      Script.say (.resuming path)
      return ⟨s.runtime w, artifact, executor, 0⟩) := rfl

/-- An executor as a run makes them: one to start with, and one to move into. -/
def create (fuel : Nat) (r : Runtime) (a : Artifact) :
    Option (Except InstantiationError Executor × List HostCall) :=
  Executor.create fuel r a printing r.options.memoryMaxPages

theorem run_createExecutor : (createExecutor fuel r a).run said =
    (create fuel r a).map fun made =>
      (made.1.mapError .instantiation, printed made.2 ++ said) := by
  show (createExecutor fuel r a) said = _
  unfold createExecutor
  cases hmade : create fuel r a with
  | none =>
    unfold create at hmade
    rw [hmade]
    rfl
  | some made =>
    unfold create at hmade
    rw [hmade]
    obtain ⟨_ | _, calls⟩ := made <;> rfl

theorem run_restore (snapshot : ByteArray) : (restore e snapshot).run said =
    some ((e.deserialize snapshot).mapError .restore, said) := by
  rw [restore]
  cases e.deserialize snapshot <;> rfl

theorem run_capture_of_idle (h : e.serialize = none) :
    (capture e).run said = some (.error .notPaused, said) := by
  rw [capture, h]
  rfl

theorem run_capture_of_taken {snapshot : ByteArray} (h : e.serialize = some snapshot) :
    (capture e).run said = some (.ok snapshot, said) := by
  rw [capture, h]
  rfl

/-- The calls of host functions that a tick has made which has left `ran`. -/
def newCalls (e ran : Executor) : List HostCall :=
  ran.sandbox.calls.take (ran.sandbox.calls.length - e.sandbox.calls.length)

/-- A tick says what the module prints in it, also if it fails. -/
theorem run_advance : (advance fuel s e).run said = (e.run fuel s.gas).map fun ran =>
    ((ran.1.map (·, ran.2)).mapError .execution, printed (newCalls e ran.2) ++ said) := by
  rw [advance]
  cases e.run fuel s.gas with
  | none => rfl
  | some ran => obtain ⟨_ | _, next⟩ := ran <;> rfl

end RunSettings

/-! ## A module to run -/

section
variable (gas : Int) (limit : Option Nat)

/-- Runs an artifact of the idle module. -/
def idleSettings : RunSettings :=
  ⟨"idle.artifact", gas, 256, "entry", true, none, limit, some "state", none⟩

def idleWorld : World where
  files path :=
    if path = "idle.artifact" then some ⟨(idleArtifact 10 .standard).encode.toArray⟩ else none
  pass := Suspension.unwinding
  order := ⟨id, .refl⟩
  relaxed _ _ := 0

def idleRuntime : Runtime := (idleSettings gas limit).runtime idleWorld

theorem prepare_idle (fuel : Nat) : ((idleSettings gas limit).prepare fuel idleWorld).run [] =
    some (.ok ⟨idleRuntime gas limit, idleArtifact 10 .standard,
      idle 10 (idleRuntime gas limit) .standard, 0⟩, []) := by
  let bytes : ByteArray := ⟨(idleArtifact 10 .standard).encode.toArray⟩
  have hread : (idleSettings gas limit).readArtifact idleWorld bytes.toList =
      .ok (idleArtifact 10 .standard) := by
    show (Artifact.decode bytes.toList).mapError Failure.artifact = _
    rw [byteArray_toList, List.toList_toArray]
    have hdecode : Artifact.decode (idleArtifact 10 .standard).encode =
        .ok (idleArtifact 10 .standard) := by decide +kernel
    rw [hdecode]
    rfl
  have hmade : (RunSettings.createExecutor fuel (idleRuntime gas limit)
      (idleArtifact 10 .standard)).run [] =
      some (.ok (idle 10 (idleRuntime gas limit) .standard), []) := by
    rw [RunSettings.run_createExecutor]
    unfold RunSettings.create
    change (Executor.create fuel (idleRuntime gas limit) _ printing 256).map _ = _
    rw [idleAt_ten.create (by decide)]
    rfl
  have hfile : idleWorld.files (idleSettings gas limit).file = some bytes := rfl
  rw [RunSettings.prepare_eq, Script.readFile_eq hfile, pure_bind, hread, Script.ofExcept, pure_bind]
  exact Script.run_bind_of_ok hmade

theorem hardware_idleRuntime :
    Executor.hardware (idleRuntime gas limit) = ⟨32765 + 3, fun _ _ => 0⟩ := by
  have hdepth : Options.standard.maxWasmStack.toNat / Executor.frameSize = 32765 + 3 := by decide
  exact congrArg (Linking.Hardware.mk · fun _ _ => 0) hdepth

end

/-- What the executor that is made ready does with gas enough, and without. -/
theorem ran_idle (limit : Option Nat) :
    (idle 10 (idleRuntime 10000 limit) .standard).run 60 10000 = some (.ok true,
      { idle 10 (idleRuntime 10000 limit) .standard with
        sandbox := ⟨idleStorage idlePage 0 0, 9990, false, [], []⟩ }) ∧
    (idle 10 (idleRuntime 1 limit) .standard).run 60 1 = some (.ok false,
      { idle 10 (idleRuntime 1 limit) .standard with
        sandbox := ⟨idleStorage (idleSaved idlePage) 0 16, -9, true, [],
          [.stopUnwind, .startUnwind 16]⟩ }) := by
  have htopUp : Executor.topUp 0 10000 = 10000 ∧ Executor.topUp 0 1 = 1 := by decide
  unfold idle
  rw [hardware_idleRuntime, hardware_idleRuntime]
  constructor
  · refine Executor.run_of_ownTick rfl rfl (show 0 < Executor.topUp 0 10000 by decide) ?_
    simp only [Executor.gas, htopUp.1]
    exact @Executor.idle_tick_returns 10 32765 (fun _ _ => 0) idlePage 0 10000 [] [] 60
      (Nat.le_refl 60) .standard (by decide)
  · refine Executor.run_of_ownTick rfl rfl (show 0 < Executor.topUp 0 1 by decide) ?_
    simp only [Executor.gas, htopUp.2]
    exact @Executor.idle_tick_pauses 10 32765 (fun _ _ => 0) idlePage 0 1 [] [] 60
      (Nat.le_refl 60) Executor.roomy_idlePage (by decide)

/-- With gas enough the entry returns before there is a limit to look at. -/
theorem run_idle_enough (limit : Option Nat) :
    ((idleSettings 10000 limit).run 60 idleWorld).run [] = some (.ok .done, [.finished 1]) := by
  let e := idle 10 (idleRuntime 10000 limit) .standard
  have hadvance : (RunSettings.advance 60 (idleSettings 10000 limit) e).run [] =
      some (.ok (true, { e with sandbox := ⟨idleStorage idlePage 0 0, 9990, false, [], []⟩ }),
        []) := by
    rw [RunSettings.run_advance, show (idleSettings 10000 limit).gas = 10000 from rfl,
      (ran_idle limit).1]
    rfl
  have htick : ((idleSettings 10000 limit).tick 60 ⟨idleRuntime 10000 limit,
      idleArtifact 10 .standard, e, 0⟩).run [] = some (.ok (.ended .done), [.finished 1]) :=
    Script.run_bind_of_ok hadvance
  have hfollow : ((idleSettings 10000 limit).follow 60 60 ⟨idleRuntime 10000 limit,
      idleArtifact 10 .standard, e, 0⟩).run [] = some (.ok .done, [.finished 1]) :=
    Script.run_bind_of_ok htick
  exact (Script.run_bind_of_ok (prepare_idle 10000 limit 60)).trans hfollow

/-- Without it the limit is reached, and memory is to be written. -/
theorem run_idle_short : ((idleSettings 1 (some 1)).run 60 idleWorld).run [] =
    some (.ok (.save "state" (idleSaved idlePage).bytes), [.paused 1 (-9)]) := by
  let e := idle 10 (idleRuntime 1 (some 1)) .standard
  let sb : Sandbox := ⟨idleStorage (idleSaved idlePage) 0 16, -9, true, [],
    [.stopUnwind, .startUnwind 16]⟩
  have hadvance : (RunSettings.advance 60 (idleSettings 1 (some 1)) e).run [] =
      some (.ok (false, { e with sandbox := sb }), []) := by
    rw [RunSettings.run_advance, show (idleSettings 1 (some 1)).gas = 1 from rfl,
      (ran_idle (some 1)).2]
    rfl
  have htick : ((idleSettings 1 (some 1)).tick 60 ⟨idleRuntime 1 (some 1),
      idleArtifact 10 .standard, e, 0⟩).run [] =
      some (.ok (.ended (.save "state" (idleSaved idlePage).bytes)), [.paused 1 (-9)]) :=
    Script.run_bind_of_ok hadvance
  have hfollow : ((idleSettings 1 (some 1)).follow 60 60 ⟨idleRuntime 1 (some 1),
      idleArtifact 10 .standard, e, 0⟩).run [] =
      some (.ok (.save "state" (idleSaved idlePage).bytes), [.paused 1 (-9)]) :=
    Script.run_bind_of_ok htick
  exact (Script.run_bind_of_ok (prepare_idle 1 (some 1) 60)).trans hfollow

end CommandLine

end MeteredWasm
