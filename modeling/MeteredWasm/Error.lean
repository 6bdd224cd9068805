import MeteredWasm.Sandbox.Pages
import MeteredWasm.Text.Quoted

/-!
# Errors

Why a module cannot be instrumented, made into an executor, restored from a snapshot or run on,
with the text that users see. Errors that are about a foreign component's message show it quoted.
-/

set_option autoImplicit false

namespace MeteredWasm

/-- Why a module cannot be instrumented. -/
inductive ModuleError
  | parse (reason : String)
  | missingEntry (name : String)
  | entrySignature (name : String)
  | noMemory
  | multipleMemories
  | memory64
  | memoryLimit (initial maximum : UInt64)
  | reservedImport (module name : String)
  | reservedRangeOverlap (offset length : UInt32)
  | startFunction
  | validation (reason : String)
  | unsupportedSection (section_ : String)
  | stackCapture (reason : String)
  deriving Repr, DecidableEq

/-- Why no executor can be made of an instrumented module. -/
inductive InstantiationError
  | missingImport (module name : String)
  | incompatibleImport (module name : String)
  | missingExport (name : String)
  | memoryLimit (initial maximum : UInt64)
  | memoryTooSmall (size required : Nat)
  | sharedMemoryLimit (maximum ceiling : UInt64)
  | link (reason : String)
  /-- An export that is called from outside has the wrong type. -/
  | exportType (name : String)
  deriving Repr, DecidableEq

/-- Why a snapshot cannot be installed. -/
inductive SnapshotError
  | memorySizeMismatch (expected actual : Nat)
  deriving Repr, DecidableEq

/-- Why code stops with no way on. -/
inductive Trap
  | unreachable
  | integerDivideByZero
  | integerOverflow
  | invalidConversion
  | memoryOutOfBounds
  | tableOutOfBounds
  | uninitializedElement
  | indirectCallType
  | unalignedAtomic
  | waitOnUnshared
  | callStackExhausted
  deriving Repr, DecidableEq

/-- Why a host function fails. -/
inductive HostFailure
  | reported (text : String)
  /-- A result of another type than declared. -/
  | resultType
  deriving Repr, DecidableEq

/-- Why an executor cannot run on. -/
inductive ExecutionError
  | faulted
  | stackOverflow (position end_ : UInt32)
  /-- The host reached past the end of a shared memory. -/
  | memoryAccess (offset length : Nat)
  /-- The host reached past the end of a memory that is not shared. -/
  | ownedAccess
  /-- The hook was called before the instance was complete. -/
  | missingExport (name : String)
  | trap (reason : Trap)
  | host (failure : HostFailure)
  deriving Repr, DecidableEq

/-! ## Texts -/

/-- How much memory was asked for and how much there may be. -/
def memoryLimitMessage (initial maximum : UInt64) : String :=
  "initial memory of " ++ toString initial.toNat ++ " pages exceeds the limit of " ++
    toString maximum.toNat ++ " pages"

def ModuleError.message : ModuleError → String
  | .parse reason => "module could not be parsed: " ++ reason
  | .missingEntry name => "module does not export entry function `" ++ name ++ "`"
  | .entrySignature name =>
    "entry function `" ++ name ++ "` must take no parameters and return nothing"
  | .noMemory => "module declares no linear memory"
  | .multipleMemories => "module declares more than one linear memory"
  | .memory64 => "64-bit linear memories are not supported"
  | .memoryLimit initial maximum => memoryLimitMessage initial maximum
  | .reservedImport module name =>
    "module imports the reserved function `" ++ module ++ "." ++ name ++ "`"
  | .reservedRangeOverlap offset length =>
    "data segment at " ++ toString offset.toNat ++ " (" ++ toString length.toNat ++
      " bytes) overlaps the reserved control block range"
  | .startFunction => "modules with a start function cannot be metered"
  | .validation reason => "module is invalid or uses an unsupported feature: " ++ reason
  | .unsupportedSection text => "UnsupportedSection(" ++ Text.Quoted.encode text ++ ")"
  | .stackCapture reason => "StackCapture(" ++ Text.Quoted.encode reason ++ ")"

def InstantiationError.message : InstantiationError → String
  | .missingImport module name =>
    "no host definition for import `" ++ module ++ "." ++ name ++ "`"
  | .incompatibleImport module name =>
    "host definition for `" ++ module ++ "." ++ name ++ "` has an incompatible type"
  | .missingExport name => "instrumented module does not export `" ++ name ++ "`"
  | .memoryLimit initial maximum => memoryLimitMessage initial maximum
  | .memoryTooSmall size required =>
    "linear memory of " ++ toString size ++ " bytes cannot hold the control block (" ++
      toString required ++ " bytes)"
  | .sharedMemoryLimit maximum ceiling =>
    "shared memory may grow to " ++ toString maximum.toNat ++ " pages, past the limit of " ++
      toString ceiling.toNat ++ " pages"
  | .link reason => "Link(" ++ Text.Quoted.encode reason ++ ")"
  | .exportType name => "export `" ++ name ++ "` has an incompatible type"

def SnapshotError.message : SnapshotError → String
  | .memorySizeMismatch expected actual =>
    "memory size mismatch: expected " ++ toString expected ++ " bytes, got " ++ toString actual

def Trap.message : Trap → String
  | .unreachable => "wasm trap: wasm `unreachable` instruction executed"
  | .integerDivideByZero => "wasm trap: integer divide by zero"
  | .integerOverflow => "wasm trap: integer overflow"
  | .invalidConversion => "wasm trap: invalid conversion to integer"
  | .memoryOutOfBounds => "wasm trap: out of bounds memory access"
  | .tableOutOfBounds => "wasm trap: undefined element: out of bounds table access"
  | .uninitializedElement => "wasm trap: uninitialized element"
  | .indirectCallType => "wasm trap: indirect call type mismatch"
  | .unalignedAtomic => "wasm trap: unaligned atomic"
  | .waitOnUnshared => "wasm trap: atomic wait on non-shared memory"
  | .callStackExhausted => "wasm trap: call stack exhausted"

def HostFailure.message : HostFailure → String
  | .reported text => text
  | .resultType => "host function returned a result of another type"

def ExecutionError.message : ExecutionError → String
  | .faulted => "executor trapped earlier and can no longer run"
  | .stackOverflow position end_ =>
    "captured stack reached " ++ toString position.toNat ++
      ", past the end of the stack region at " ++ toString end_.toNat
  | .memoryAccess offset length =>
    toString length ++ " byte access at " ++ toString offset ++ " is out of bounds"
  | .ownedAccess => "out of bounds memory access"
  | .missingExport name => (InstantiationError.missingExport name).message
  | .trap reason => reason.message
  | .host failure => failure.message

end MeteredWasm
