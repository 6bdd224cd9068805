import MeteredWasm.Machine.Storage
import MeteredWasm.Sandbox.ControlBlock
import MeteredWasm.Wasm.Operator.Basic

/-!
# Instances

What stays the same while an instance lives: its types and functions, and which of them capture
its stack. A function has code, or is one of the host's, or is the hook that charges gas.

A host function is a state machine over the calls made so far: what it answers depends on them and
on its arguments.
-/

set_option autoImplicit false

namespace MeteredWasm.Machine

open Wasm

/-- A call of a host function. -/
structure HostCall where
  module : String
  name : String
  args : List Value
  deriving Repr, DecidableEq

/-- Answers a call, after the calls made so far, last one first. -/
abbrev HostBehaviour := List HostCall → List Value → Except HostFailure (List Value)

inductive Function
  | code (type : FuncType) (locals : List ValType) (body : List Operator)
  | host (module name : String) (type : FuncType) (behaviour : HostBehaviour)
  /-- Charges its argument, and pauses when gas runs out. -/
  | hook

namespace Function

/-- The type of the hook. -/
def hookType : FuncType := ⟨[.i32], []⟩

def type : Function → FuncType
  | .code type _ _ | .host _ _ type _ => type
  | .hook => hookType

end Function

/-- The functions of an instance that start and stop unwinding and rewinding its stack. -/
structure Controls where
  startUnwind : UInt32
  stopUnwind : UInt32
  startRewind : UInt32
  stopRewind : UInt32
  deriving Repr, DecidableEq

/-- What the machine makes of a relaxed vector operator, by its opcode: it is the hardware's choice
among the results that are allowed. -/
abbrev RelaxedResults := (code : Nat) → List (BitVec 128) → BitVec 128

structure Instance where
  types : Array FuncType
  functions : Array Function
  relaxed : RelaxedResults
  /-- None while the instance is being made. -/
  controls : Option Controls
  controlBlock : ControlBlock
  /-- The memory that holds the control block. -/
  blockMemory : Nat
  /-- The most frames that a call may stand on. -/
  maxDepth : Nat

namespace Instance

def function? (i : Instance) (func : UInt32) : Option Function := i.functions[func.toNat]?

def type? (i : Instance) (index : UInt32) : Option FuncType := i.types[index.toNat]?

/-- How many operands a block takes and leaves. -/
def blockArity (i : Instance) : BlockType → Nat × Nat
  | .empty => (0, 0)
  | .value _ => (0, 1)
  | .func index =>
    match i.type? index with
    | some type => (type.params.length, type.results.length)
    | none => (0, 0)

end Instance

end MeteredWasm.Machine
