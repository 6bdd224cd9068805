import MeteredWasm.CommandLine.Argument

/-!
# Requests

What the command line is asked to do. The first argument names a command: `run` drives a module
until its entry returns, `instrument` writes an artifact, and `help` explains.
-/

set_option autoImplicit false

namespace MeteredWasm.CommandLine

/-- How a module is run. -/
structure RunSettings where
  file : String
  /-- Gas put in before each tick. -/
  gas : Int
  /-- Ceiling on linear memory, in pages. -/
  memoryMaxPages : UInt64
  entry : String
  /-- Whether the file is an artifact. -/
  artifact : Bool
  /-- The tick after which the paused state moves into a fresh executor. -/
  migrateAfter : Option Nat
  /-- The tick after which the run stops. -/
  maxTicks : Option Nat
  /-- Where to write a snapshot if the run stops while paused. -/
  snapshot : Option String
  /-- A snapshot to start from. -/
  resume : Option String
  deriving Repr, DecidableEq

/-- What help is about. -/
inductive Topic
  | program | run | instrument | help
  deriving Repr, DecidableEq

inductive Request
  | run (settings : RunSettings)
  | instrument (file output entry : String)
  | explain (topic : Topic)
  | version
  deriving Repr, DecidableEq

def helpSwitch : Switch := ⟨"help", some 'h', .help⟩

/-- The switches of the program itself. -/
def programSwitches : List Switch := [helpSwitch, ⟨"version", some 'V', .version⟩]

def runSwitches : List Switch :=
  helpSwitch :: ⟨"artifact", none, .flag⟩ ::
    ["gas", "memory-max-pages", "entry", "migrate-after", "max-ticks", "snapshot", "resume"].map
      (⟨·, none, .value⟩)

def instrumentSwitches : List Switch :=
  [helpSwitch, ⟨"output", some 'o', .value⟩, ⟨"entry", none, .value⟩]

/-- The only operand. -/
def file? (arguments : List Argument) : Option String :=
  match operandsIn arguments with
  | [file] => some file
  | _ => none

def RunSettings.ofArguments? (arguments : List Argument) : Option RunSettings := do
  let limit (name : String) : Option (Option Nat) :=
    readValue? arguments name (fun text => (word? text).map some) none
  return {
    file := ← file? arguments
    gas := ← readValue? arguments "gas" signed? 10000
    memoryMaxPages := (← readValue? arguments "memory-max-pages" word? 256).toUInt64
    entry := ← readValue? arguments "entry" some "entry"
    artifact := ← flag? arguments "artifact"
    migrateAfter := ← limit "migrate-after"
    maxTicks := ← limit "max-ticks"
    snapshot := ← value? arguments "snapshot"
    resume := ← value? arguments "resume" }

/-- Reads the arguments of a command, all of them before any is looked at. -/
def readRequest? (switches : List Switch) (topic : Topic)
    (request : List Argument → Option Request) (arguments : List String) : Option Request :=
  match readArguments switches 1 none arguments with
  | .error .help => some (.explain topic)
  | .error _ => none
  | .ok arguments => request arguments

namespace Request

def ofRunArguments? : List String → Option Request :=
  readRequest? runSwitches .run fun arguments => do
    return .run (← RunSettings.ofArguments? arguments)

def ofInstrumentArguments? : List String → Option Request :=
  readRequest? instrumentSwitches .instrument fun arguments => do
    let file ← file? arguments
    let some output ← value? arguments "output" | none
    let entry ← readValue? arguments "entry" some "entry"
    return .instrument file output entry

def ofHelpArguments? : List String → Option Request
  | [] => some (.explain .program)
  | ["run"] => some (.explain .run)
  | ["instrument"] => some (.explain .instrument)
  | ["help"] => some (.explain .help)
  | _ => none

/-- What the command line asks for; `none` if it is bad. -/
def ofArguments? : List String → Option Request
  | [] => none
  | "run" :: rest => ofRunArguments? rest
  | "instrument" :: rest => ofInstrumentArguments? rest
  | "help" :: rest => ofHelpArguments? rest
  | first :: _ =>
    match readArguments programSwitches 0 none [first] with
    | .error .help => some (.explain .program)
    | .error .version => some .version
    | _ => none

end Request

end MeteredWasm.CommandLine
