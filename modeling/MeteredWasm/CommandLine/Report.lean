import MeteredWasm.Artifact.Codec
import MeteredWasm.Float.Decimal
import MeteredWasm.Sandbox.Snapshot

/-!
# What the command line says

The lines that a command prints, and why a command fails. How references look is up to the engine.
-/

set_option autoImplicit false

namespace MeteredWasm

/-- A value as a module prints it: integers are signed, floating-point numbers are never in
exponential notation, and a reference is what `refs` says. -/
def Wasm.Value.text (refs : Option UInt32 → String) : Wasm.Value → String
  | .i32 bits => toString bits.toInt
  | .i64 bits => toString bits.toInt
  | .f32 bits => Ieee.Format.single.text bits.toNat
  | .f64 bits => Ieee.Format.double.text bits.toNat
  | .v128 bits => "V128(" ++ toString bits.toNat ++ ")"
  | .ref target => refs target

namespace CommandLine

inductive Line
  /-- What the module printed. -/
  | printed (values : List Wasm.Value)
  | resuming (path : String)
  | paused (tick : Nat) (gas : Int)
  | migrated (bytes : Nat)
  | finished (ticks : Nat)
  | wrote (bytes : Nat) (path : String)
  deriving Repr, DecidableEq

/-- How the engine shows a reference, by its position among the values that are printed. -/
abbrev RefText := (position : Nat) → Option UInt32 → String

def Line.text (refs : RefText) : Line → String
  | .printed values =>
    String.intercalate " " (values.mapIdx fun position value => value.text (refs position))
  | .resuming path => "Resuming from " ++ path
  | .paused tick gas =>
    "Paused after tick " ++ toString tick ++ " (" ++ toString gas ++ " gas)"
  | .migrated bytes =>
    "Migrated " ++ toString bytes ++ " bytes of memory into a new executor"
  | .finished ticks => "Finished execution after " ++ toString ticks ++ " ticks"
  | .wrote bytes path => "Wrote " ++ toString bytes ++ " bytes of memory to " ++ path

/-- Why a command fails. -/
inductive Failure
  | unreadable (path : String)
  | unwritable (path : String)
  | module (error : ModuleError)
  | artifact (error : DecodeError)
  | instantiation (error : InstantiationError)
  | restore (error : RestoreError)
  | execution (error : ExecutionError)
  | noRuntime
  | notPaused
  deriving Repr, DecidableEq

def Failure.message : Failure → String
  | .unreadable path => "cannot read " ++ path
  | .unwritable path => "cannot write " ++ path
  | .module error => error.message
  | .artifact error => error.message.getD "the artifact ends too early"
  | .instantiation error => error.message
  | .restore error => error.message
  | .execution error => error.message
  | .noRuntime => "max_wasm_stack size cannot be zero"
  | .notPaused => "executor is not paused"

end CommandLine

end MeteredWasm
