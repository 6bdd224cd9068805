import MeteredWasm.CommandLine.Help
import MeteredWasm.CommandLine.Run
import MeteredWasm.Machine.Relaxed
import MeteredWasm.Suspension.Module

/-!
# The command line

Reads the files that a request is about, carries it out and prints what it says, tick by tick. The
exit code is 1 for a command that fails and 2 for a bad command line.
-/

set_option autoImplicit false

namespace MeteredWasm.CommandLine

/-- How references are shown: by the index of the function. -/
def showReference : RefText := fun _ target =>
  match target with
  | none => "FuncRef(None)"
  | some func => "FuncRef(Some(" ++ toString func.toNat ++ "))"

def printLines (lines : List Line) : IO Unit :=
  lines.forM fun line => IO.println (line.text showReference)

def fail (failure : Failure) : IO UInt32 := do
  IO.eprintln ("Error: " ++ failure.message)
  return 1

/-- The world of a command that reads these files, as far as they can be read. -/
def findWorld (paths : List String) : IO World := do
  let found ← paths.mapM fun (path : String) => do
    let bytes ← (IO.FS.readBinFile path).toBaseIO
    return (path, bytes.toOption)
  return ⟨fun path => (found.lookup path).join, Suspension.unwinding, .written,
    Machine.strictResults⟩

/-- Writes what a command leaves, and ends it. -/
def conclude : Option Write → IO UInt32
  | none => return 0
  | some write => do
    match ← (IO.FS.writeBinFile write.path write.contents).toBaseIO with
    | .error _ => fail (.unwritable write.path)
    | .ok _ =>
      printLines write.lines
      return 0

/-- Prints what a script says and goes on with its value. -/
def perform {α : Type} (script : Script α) (next : α → IO UInt32) : IO UInt32 := do
  match script.run [] with
  | none =>
    IO.eprintln "Error: the run does not end"
    return 1
  | some (result, lines) =>
    printLines lines.reverse
    match result with
    | .ok a => next a
    | .error failure => fail failure

/-- Runs tick by tick. -/
partial def followRun (s : RunSettings) (p : Progress) : IO UInt32 :=
  perform (s.tick Executor.stepLimit p) fun
    | .again p => followRun s p
    | .ended ending => conclude ending.write?

def carryOut : Request → IO UInt32
  | .explain topic => do
    IO.print topic.text
    return 0
  | .version => do
    IO.print versionText
    return 0
  | .instrument file output entry => do
    let world ← findWorld [file]
    perform (instrumentFile world file output entry) fun write => conclude (some write)
  | .run s => do
    let world ← findWorld (s.file :: s.resume.toList)
    perform (s.prepare Executor.stepLimit world) (followRun s)

end MeteredWasm.CommandLine

/-- Carries out what the arguments ask for. -/
def main (arguments : List String) : IO UInt32 :=
  match MeteredWasm.CommandLine.Request.ofArguments? arguments with
  | some request => MeteredWasm.CommandLine.carryOut request
  | none => do
    IO.eprintln "error: bad command line; try --help"
    return 2
