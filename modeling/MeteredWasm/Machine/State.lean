import MeteredWasm.Machine.Instance

/-!
# States of the machine

A function that runs is an activation: its locals, its operands, the labels of the blocks it is
in, and the code that is left to run. The code of a block is followed by what comes after it, so a
position in a body is a suffix of the body.

A thread is what is being done now and the frames below it. What outlives a thread is the sandbox:
storage, gas, whether the instance is paused, the calls of host functions, and the calls that the
host has made of the functions that unwind and rewind the instance.
-/

set_option autoImplicit false

namespace MeteredWasm.Machine

open Wasm

/-- A block that code is in. -/
structure Label where
  /-- How many operands a branch to the label carries. -/
  arity : Nat
  /-- The operands below those of the block. -/
  below : List Value
  /-- The body of a loop and what follows, where a branch goes back to; a branch to any other
  block goes behind its end. -/
  again : Option (List Operator)
  deriving DecidableEq

structure Activation where
  func : UInt32
  /-- How many results the function has. -/
  arity : Nat
  locals : List Value
  operands : List Value
  labels : List Label
  /-- What is left to run. -/
  code : List Operator
  deriving DecidableEq

/-- What the hook does when the function it called comes back. -/
inductive HookStage
  | resuming | pausing
  deriving Repr, DecidableEq

inductive Frame
  | activation (a : Activation)
  | hook (stage : HookStage)
  deriving DecidableEq

inductive Control
  /-- The code of an activation goes on. -/
  | run (a : Activation)
  /-- A function is about to be entered. -/
  | invoke (func : UInt32) (args : List Value)
  /-- A function has returned. -/
  | give (results : List Value)
  deriving DecidableEq

structure Thread where
  control : Control
  frames : List Frame
  /-- How many frames there are. -/
  depth : Nat
  deriving DecidableEq

/-- The thread that calls a function from outside. -/
def Thread.call (func : UInt32) (args : List Value) : Thread := ⟨.invoke func args, [], 0⟩

/-- A call of a function that unwinds or rewinds the instance, made by the host. -/
inductive Signal
  | startUnwind (address : UInt32)
  | stopUnwind
  | startRewind (address : UInt32)
  | stopRewind
  deriving Repr, DecidableEq

structure Sandbox where
  storage : Storage
  /-- What is left of all that was put in; negative once a tick has overspent. -/
  gas : Int
  /-- Whether the instance is unwound and waits to be rewound. -/
  paused : Bool
  /-- Calls of host functions, last one first. -/
  calls : List HostCall
  /-- Calls that start and stop unwinding and rewinding, last one first. -/
  signals : List Signal

/-- Notes a call that the host makes. -/
def Sandbox.tell (sandbox : Sandbox) (signal : Signal) : Sandbox :=
  { sandbox with signals := signal :: sandbox.signals }

structure State where
  sandbox : Sandbox
  thread : Thread

end MeteredWasm.Machine
