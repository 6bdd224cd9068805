import MeteredWasm.Options.Basic
import MeteredWasm.Sandbox.Linking

/-!
# Executors

An executor drives one instance, tick by tick. Each tick puts gas in and calls the entry function;
where the instance has been unwound it rewinds then and goes on. The tick ends when the entry
returns: because it is done, or because gas has run out at a call of the hook and the instance has
unwound. An error ends it as well, and the executor never runs again.

Running takes a number of machine steps; `none` means that they did not lead to an end.
`Executor.stepLimit` is more than any machine can take.
-/

set_option autoImplicit false

namespace MeteredWasm

open Wasm Machine

/-- What executors are made by. -/
structure Runtime where
  options : Options
  relaxed : RelaxedResults

/-- There is no runtime without a stack. -/
def Runtime.new? (options : Options) (relaxed : RelaxedResults) : Option Runtime :=
  if options.maxWasmStack = 0 then none else some ⟨options, relaxed⟩

structure Executor where
  instance_ : Instance
  entry : UInt32
  sandbox : Sandbox
  /-- Whether an error has stopped the executor for good. -/
  faulted : Bool

namespace Executor

/-- Machine steps that a call from outside may take. -/
def stepLimit : Nat := 0x4000000000000000

/-- The bytes of stack that the smallest frame takes. -/
def frameSize : Nat := 16

/-- The machine that a runtime has instances run on. -/
def hardware (r : Runtime) : Linking.Hardware :=
  ⟨r.options.maxWasmStack.toNat / frameSize, r.relaxed⟩

/-! ## What can be seen -/

/-- Remaining gas, negative once a tick has overspent. -/
def gas (e : Executor) : Int := e.sandbox.gas

def isPaused (e : Executor) : Bool := e.sandbox.paused

/-- The memory that holds the control block; empty if there is none. -/
def memoryOf (i : Instance) (sandbox : Sandbox) : Memory :=
  (sandbox.storage.memories[i.blockMemory]?).getD ⟨.empty, 0, false, false⟩

def memory (e : Executor) : Memory := memoryOf e.instance_ e.sandbox

/-- The size of linear memory in bytes. -/
def memorySize (e : Executor) : Nat := e.memory.size

/-! ## Making executors -/

/-- Runs the start function, if there is one, and says whether it came back. -/
def start (fuel : Nat) (p : Linking.Prepared) : Option (Bool × Sandbox) :=
  let sandbox : Sandbox := ⟨p.storage, 0, false, [], []⟩
  match p.module.starts with
  | [] => some (true, sandbox)
  | func :: _ =>
    match Machine.run p.instance_ fuel ⟨sandbox, .call func []⟩ with
    | none => none
    | some (.finished _ sandbox) => some (true, sandbox)
    | some (.failed _ sandbox) => some (false, sandbox)

/-- Finds everything that is called from outside, and makes sure that the control block fits. -/
def attach (a : Artifact) (p : Linking.Prepared) (sandbox : Sandbox) :
    Except InstantiationError Executor := do
  let blockMemory ← Linking.findMemory a p
  let found := { p.instance_ with blockMemory }
  let size := (memoryOf found sandbox).size
  let required := a.controlBlock.requiredMemory
  if size < required then throw (.memoryTooSmall size required)
  let controls ← Linking.findControls p
  let entry ← Linking.findEntry a p
  return ⟨{ found with controls := some controls }, entry, sandbox, false⟩

/-- An executor of an artifact with a fresh memory and no gas, and the calls of host functions that
its start function made. -/
def create (fuel : Nat) (r : Runtime) (a : Artifact) (imports : Imports) (ceiling : UInt64) :
    Option (Except InstantiationError Executor × List HostCall) :=
  match Linking.prepare a imports ceiling (hardware r) with
  | .error e => some (.error e, [])
  | .ok p =>
    match start fuel p with
    | none => none
    | some (true, sandbox) => some (attach a p sandbox, sandbox.calls)
    | some (false, sandbox) => some (.error (.link "the start function failed"), sandbox.calls)

/-! ## Ticks -/

/-- A computation on a sandbox that may fail, or take more steps than there are. -/
abbrev Tick := ExceptT ExecutionError (StateT Sandbox Option)

/-- Calls a function of the instance. -/
def call (i : Instance) (fuel : Nat) (func : UInt32) (args : List Value) : Tick Unit :=
  fun sandbox =>
    match Machine.run i fuel ⟨sandbox, .call func args⟩ with
    | none => none
    | some (.finished _ sandbox) => some (.ok (), sandbox)
    | some (.failed error sandbox) => some (.error error, sandbox)

/-- The largest gas counter, and one more than the smallest without its sign. -/
def maxGas : Int := 0x7FFFFFFFFFFFFFFF

/-- Puts gas in; the counter stops at the ends of its range. -/
def topUp (gas budget : Int) : Int := max (-maxGas - 1) (min maxGas (gas + budget))

/-- The position that the control block says, past every region if it cannot be read. -/
def position (i : Instance) (sandbox : Sandbox) : UInt32 :=
  (i.controlBlock.position (memoryOf i sandbox).bytes).getD 0xFFFFFFFF

/-- A captured stack must not reach past the end of its region. -/
def checkPosition (i : Instance) : Tick Unit := do
  let reached := position i (← get)
  if i.controlBlock.stackEnd < reached then
    throw (.stackOverflow reached i.controlBlock.stackEnd)

/-- Has a paused instance start rewinding. -/
def rewind (i : Instance) (fuel : Nat) (startRewind : UInt32) : Tick Unit := do
  if (← get).paused then
    modify (·.tell (.startRewind i.controlBlock.address))
    call i fuel startRewind [.ofWord i.controlBlock.address]

/-- Has a paused instance stop unwinding; whether the entry is done. What the instance does then to
the flag does not change the answer. -/
def unwound (i : Instance) (fuel : Nat) (stopUnwind : UInt32) : Tick Bool := do
  if (← get).paused then
    checkPosition i
    modify (·.tell .stopUnwind)
    call i fuel stopUnwind []
    return false
  else return true

/-- One tick with the gas that is there; whether the entry is done. -/
def tick (e : Executor) (fuel : Nat) : Tick Bool := do
  match e.instance_.controls with
  | none => throw (.missingExport "asyncify_*")
  | some controls =>
    rewind e.instance_ fuel controls.startRewind
    call e.instance_ fuel e.entry []
    unwound e.instance_ fuel controls.stopUnwind

/-- Adds `budget` to the gas and runs one tick. The answer is whether the entry is done; without gas
there is no tick. -/
def run (e : Executor) (fuel : Nat) (budget : Int) :
    Option (Except ExecutionError Bool × Executor) :=
  if e.faulted then some (.error .faulted, e)
  else
    let sandbox := { e.sandbox with gas := topUp e.sandbox.gas budget }
    if sandbox.gas ≤ 0 then some (.ok false, { e with sandbox })
    else
      match e.tick fuel sandbox with
      | none => none
      | some (.ok done, sandbox) => some (.ok done, { e with sandbox })
      | some (.error error, sandbox) => some (.error error, { e with sandbox, faulted := true })

end Executor

end MeteredWasm
