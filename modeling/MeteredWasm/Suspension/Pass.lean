import MeteredWasm.Wasm.Module.Summary

/-!
# Stack-capture passes

A stack-capture pass makes a metered module able to give up its stack where it calls the hook, and
to build it up again later. What comes out exports four functions that start and stop both. How a
pass goes about it is its own affair: it is handed the binary and what it is asked for, and it may
refuse.
-/

set_option autoImplicit false

namespace MeteredWasm.Suspension

open Wasm

/-! ## Names -/

def startUnwind : String := "asyncify_start_unwind"

def stopUnwind : String := "asyncify_stop_unwind"

def startRewind : String := "asyncify_start_rewind"

def stopRewind : String := "asyncify_stop_rewind"

/-- The exports that unwind and rewind an instance. -/
def controlNames : List String := [startUnwind, stopUnwind, startRewind, stopRewind]

/-! ## Passes -/

/-- How hard a pass tries to make code fast. -/
inductive OptimizeLevel
  | level0 | level1 | level2 | level3 | level4
  deriving Repr, DecidableEq

/-- How hard a pass tries to make code small. -/
inductive ShrinkLevel
  | level0 | level1 | level2
  deriving Repr, DecidableEq

def OptimizeLevel.ofByte : UInt8 → OptimizeLevel
  | 0 => .level0
  | 1 => .level1
  | 2 => .level2
  | 3 => .level3
  | _ => .level4

def ShrinkLevel.ofByte : UInt8 → ShrinkLevel
  | 0 => .level0
  | 1 => .level1
  | _ => .level2

/-- What a pass is asked for. -/
structure Request where
  optimize : OptimizeLevel
  shrink : ShrinkLevel
  /-- Whether the usual optimizations are made as well. -/
  defaultPasses : Bool
  deriving Repr, DecidableEq

/-- A stack-capture pass: the binary that it makes of a metered one, or why it refuses. -/
abbrev Pass := Request → Bytes → Except String Bytes

end MeteredWasm.Suspension
