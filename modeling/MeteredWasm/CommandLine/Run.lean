import MeteredWasm.CommandLine.Report
import MeteredWasm.CommandLine.Request
import MeteredWasm.Instrument
import MeteredWasm.Sandbox.Snapshot

/-!
# Carrying out requests

A module is run tick by tick, each with the same gas, until its entry returns, an error stops it,
or the tick is reached after which the run is to stop. On the way the paused state may move into a
fresh executor, once. Ticks are counted over all executors of the run.

Everything that is said is a line. Files are a function from paths to contents, and writing one is
left to the caller: it is the last thing that a command does. What a command finds around itself is
its world: the files, the stack-capture pass, and what is up to the machine.
-/

set_option autoImplicit false

namespace MeteredWasm.CommandLine

open Machine

/-- The files that can be read. -/
abbrev Files := String → Option ByteArray

/-- What a command finds. -/
structure World where
  files : Files
  pass : Suspension.Pass
  order : Metering.ExportOrder
  relaxed : RelaxedResults

/-- A computation that says lines and may fail; the last line said comes first. Running may also
take more steps than there are. -/
abbrev Script := ExceptT Failure (StateT (List Line) Option)

namespace Script

def say (line : Line) : Script Unit := modify (line :: ·)

/-- Says what calls of host functions printed, given last one first. -/
def sayCalls (calls : List HostCall) : Script Unit :=
  modify (calls.map (Line.printed ·.args) ++ ·)

/-- The value of a computation that had steps enough. -/
def ofSteps {α : Type} : Option α → Script α
  | some a => pure a
  | none => ExceptT.lift (StateT.lift none)

def ofExcept {ε α : Type} (failure : ε → Failure) : Except ε α → Script α
  | .ok a => pure a
  | .error e => throw (failure e)

def readFile (files : Files) (path : String) : Script ByteArray :=
  match files path with
  | some bytes => pure bytes
  | none => throw (.unreadable path)

end Script

/-- A file to be written when a command has come to its end, and what is said then. -/
structure Write where
  path : String
  contents : ByteArray
  lines : List Line

/-! ## Running -/

/-- Modules that are run may print, and nothing else. -/
def printing : Imports := ⟨true, []⟩

/-- A run under way. -/
structure Progress where
  runtime : Runtime
  artifact : Artifact
  executor : Executor
  /-- Ticks so far. -/
  ticks : Nat

/-- How a run ends. -/
inductive Ending
  | done
  | save (path : String) (memory : ByteArray)

inductive Turn
  | again (p : Progress)
  | ended (ending : Ending)

namespace RunSettings

/-- How the module is instrumented, if it is not an artifact yet. -/
def options (s : RunSettings) : Options :=
  { Options.standard with entry := s.entry, memoryMaxPages := s.memoryMaxPages }

def readArtifact (w : World) (s : RunSettings) (bytes : Bytes) : Except Failure Artifact :=
  if s.artifact then (Artifact.decode bytes).mapError .artifact
  else (instrument w.pass w.order s.options bytes).mapError .module

/-- An executor with a fresh memory. What its start function prints is said even if it fails. -/
def createExecutor (fuel : Nat) (r : Runtime) (a : Artifact) : Script Executor := do
  let (made, calls) ← Script.ofSteps
    (Executor.create fuel r a printing r.options.memoryMaxPages)
  Script.sayCalls calls
  Script.ofExcept .instantiation made

def restore (e : Executor) (snapshot : ByteArray) : Script Executor :=
  Script.ofExcept .restore (e.deserialize snapshot)

def capture (e : Executor) : Script ByteArray :=
  match e.serialize with
  | some snapshot => pure snapshot
  | none => throw .notPaused

/-- All that comes before the first tick. -/
def prepare (fuel : Nat) (w : World) (s : RunSettings) : Script Progress := do
  let some runtime := Runtime.new? s.options w.relaxed | throw .noRuntime
  let bytes ← Script.readFile w.files s.file
  let artifact ← Script.ofExcept id (s.readArtifact w bytes.toList)
  let executor ← createExecutor fuel runtime artifact
  match s.resume with
  | none => return ⟨runtime, artifact, executor, 0⟩
  | some path =>
    let snapshot ← Script.readFile w.files path
    let executor ← restore executor snapshot
    Script.say (.resuming path)
    return ⟨runtime, artifact, executor, 0⟩

/-- Moves the paused state into a fresh executor. -/
def migrate (fuel : Nat) (p : Progress) : Script Executor := do
  let snapshot ← capture p.executor
  let next ← createExecutor fuel p.runtime p.artifact
  let next ← restore next snapshot
  Script.say (.migrated snapshot.size)
  return next

/-- Puts gas in and runs one tick; whether the entry returned. -/
def advance (fuel : Nat) (s : RunSettings) (e : Executor) : Script (Bool × Executor) := do
  let (result, next) ← Script.ofSteps (e.run fuel s.gas)
  Script.sayCalls (next.sandbox.calls.take (next.sandbox.calls.length - e.sandbox.calls.length))
  let finished ← Script.ofExcept .execution result
  return (finished, next)

/-- One tick, and what follows it. -/
def tick (fuel : Nat) (s : RunSettings) (p : Progress) : Script Turn := do
  let ticks := p.ticks + 1
  let (finished, executor) ← advance fuel s p.executor
  if finished then
    Script.say (.finished ticks)
    return .ended .done
  Script.say (.paused ticks executor.gas)
  let executor ←
    if s.migrateAfter = some ticks then migrate fuel { p with executor } else pure executor
  if s.maxTicks = some ticks then
    match s.snapshot with
    | none => return .ended .done
    | some path => return .ended (.save path (← capture executor))
  return .again { p with executor, ticks }

/-- Ticks until the run ends, at most so many. -/
def follow (fuel : Nat) (s : RunSettings) : (ticks : Nat) → Progress → Script Ending
  | 0, _ => Script.ofSteps none
  | ticks + 1, p => do
    match ← tick fuel s p with
    | .ended ending => return ending
    | .again p => follow fuel s ticks p

/-- The whole of a run, with at most `fuel` ticks of at most `fuel` steps. -/
def run (fuel : Nat) (w : World) (s : RunSettings) : Script Ending := do
  let p ← s.prepare fuel w
  s.follow fuel fuel p

end RunSettings

def Ending.write? : Ending → Option Write
  | .done => none
  | .save path memory => some ⟨path, memory, [.wrote memory.size path]⟩

/-! ## Instrumenting -/

/-- The artifact of a module file, to be written to `output`. -/
def instrumentFile (w : World) (file output entry : String) : Script Write := do
  let bytes ← Script.readFile w.files file
  let artifact ← Script.ofExcept .module
    (instrument w.pass w.order { Options.standard with entry } bytes.toList)
  return ⟨output, ⟨artifact.encode.toArray⟩, []⟩

end MeteredWasm.CommandLine
