import MeteredWasm.Machine.Compute
import MeteredWasm.Machine.Flow

/-!
# Steps of the machine

One step runs one operator, enters one function or returns from one.

The hook charges its cost. When gas becomes negative it writes the control block and has the
instance start unwinding; once that has been done the instance is paused. Reached again while
paused, the hook charges nothing and has the instance stop rewinding. Both are calls of the
instance's own functions.
-/

set_option autoImplicit false

namespace MeteredWasm.Machine

open Wasm

inductive Step
  | next (s : State)
  /-- The function called from outside has returned. -/
  | finished (results : List Value) (sandbox : Sandbox)
  | failed (error : ExecutionError) (sandbox : Sandbox)

/-! ## Calls -/

/-- Takes the arguments of a call off the operands. -/
def takeArgs (type : FuncType) (operands : List Value) : List Value × List Value :=
  ((operands.take type.params.length).reverse, operands.drop type.params.length)

/-- Calls a function; the caller goes on with the operands left. -/
def callFrom (a : Activation) (t : Thread) (func : UInt32) (type : FuncType)
    (operands : List Value) : Thread :=
  let (args, operands) := takeArgs type operands
  ⟨.invoke func args, .activation { a with operands } :: t.frames, t.depth + 1⟩

/-- Calls a function in the place of the caller. -/
def tailCall (t : Thread) (func : UInt32) (type : FuncType) (operands : List Value) : Thread :=
  { t with control := .invoke func (takeArgs type operands).1 }

/-- The function that an indirect call means, with its type. -/
def indirect (i : Instance) (storage : Storage) (type table : UInt32) (position : Value) :
    Except Trap (UInt32 × FuncType) := do
  let position ← position.index
  let some items := storage.tables[table.toNat]? | throw .unreachable
  let some item := items.items[position]? | throw .tableOutOfBounds
  let some func := item | throw .uninitializedElement
  match i.function? func, i.type? type with
  | some f, some type => if f.type = type then return (func, type) else throw .indirectCallType
  | _, _ => throw .unreachable

/-! ## Code -/

/-- The vectors on top of the operands, last one first, and what is below them. -/
def takeVectors : (n : Nat) → List Value → Except Trap (List (BitVec 128) × List Value)
  | 0, vs => .ok ([], vs)
  | n + 1, v :: vs => do
    let v ← v.vector
    let (rest, below) ← takeVectors n vs
    return (v :: rest, below)
  | _ + 1, [] => .error .unreachable

/-- A relaxed vector operator, which the machine decides the result of. -/
def relaxed (i : Instance) (code arity : Nat) (operands : List Value) :
    Except Trap (List Value) := do
  let (vectors, below) ← takeVectors arity operands
  return .v128 (i.relaxed code vectors.reverse) :: below

/-- Control flow: what an operator makes of the thread; `none` for an operator that only
computes. `a` is the activation with the operator taken off its code. -/
def flow? (i : Instance) (storage : Storage) (a : Activation) (t : Thread) (op : Operator) :
    Option (Except Trap Thread) :=
  let go (control : Control) : Except Trap Thread := .ok { t with control }
  match op, a.operands with
  | .unreachable, _ => some (.error .unreachable)
  | .elseMark, _ => some (go (.run { a with labels := a.labels.drop 1, code := skipEnd 0 a.code }))
  | .endMark, vs =>
    match a.labels with
    | [] => some (go (.give (vs.take a.arity).reverse))
    | _ :: labels => some (go (.run { a with labels }))
  | .ret, vs => some (go (.give (vs.take a.arity).reverse))
  | .block type, vs =>
    let (params, results) := i.blockArity type
    some (go (.run (a.enter params results false vs a.code)))
  | .loop type, vs =>
    let (params, results) := i.blockArity type
    some (go (.run (a.enter params results true vs a.code)))
  | .ifThen type, c :: vs =>
    let (params, results) := i.blockArity type
    some do
      if (← c.int .w32) ≠ 0 then go (.run (a.enter params results false vs a.code))
      else
        match skipElse 0 a.code with
        | (true, code) => go (.run (a.enter params results false vs code))
        | (false, code) => go (.run { a with operands := vs, code })
  | .br label, vs => some (go (a.jump label.toNat vs))
  | .brIf label, c :: vs => some do
    if (← c.int .w32) ≠ 0 then go (a.jump label.toNat vs)
    else go (.run { a with operands := vs })
  | .brTable labels fallback, v :: vs => some do
    let index ← v.int .w32
    go (a.jump ((labels[index.toNat]?).getD fallback).toNat vs)
  | .call func, vs =>
    match i.function? func with
    | some f => some (.ok (callFrom a t func f.type vs))
    | none => some (.error .unreachable)
  | .returnCall func, vs =>
    match i.function? func with
    | some f => some (.ok (tailCall t func f.type vs))
    | none => some (.error .unreachable)
  | .callIndirect type table, v :: vs => some do
    let (func, type) ← indirect i storage type table v
    return callFrom a t func type vs
  | .returnCallIndirect type table, v :: vs => some do
    let (func, type) ← indirect i storage type table v
    return tailCall t func type vs
  | .proposal p, vs => p.relaxedArity?.map fun arity => do
    let operands ← relaxed i p.opcode.code arity vs
    go (.run { a with operands })
  | _, _ => none

/-- Runs the next operator of an activation. Code that has run out returns. -/
def stepCode (i : Instance) (sandbox : Sandbox) (t : Thread) (a : Activation) : Step :=
  match a.code with
  | [] => .next ⟨sandbox, { t with control := .give (a.operands.take a.arity).reverse }⟩
  | op :: code =>
    let a := { a with code }
    match flow? i sandbox.storage a t op with
    | some (.ok t) => .next ⟨sandbox, t⟩
    | some (.error e) => .failed (.trap e) sandbox
    | none =>
      match sandbox with
      | ⟨storage, gas, paused, calls, signals⟩ =>
        match perform op a.locals a.operands storage with
        | .ok (locals, operands) storage =>
          .next ⟨⟨storage, gas, paused, calls, signals⟩,
            { t with control := .run { a with locals, operands } }⟩
        | .error e storage => .failed (.trap e) ⟨storage, gas, paused, calls, signals⟩

/-! ## The hook -/

/-- The host writes into the memory that holds the control block. -/
def Sandbox.write? (i : Instance) (sandbox : Sandbox) (address : Nat) (bytes : ByteArray) :
    Except ExecutionError Sandbox :=
  match sandbox.storage.memories[i.blockMemory]? with
  | none => .error (.missingExport "memory")
  | some m => do
    let m ← m.hostWrite address bytes
    return { sandbox with storage := sandbox.storage.modifyMemory i.blockMemory fun _ => m }

/-- Has the instance stop rewinding. -/
def stepResume (i : Instance) (sandbox : Sandbox) (t : Thread) : Step :=
  match i.controls with
  | none => .failed (.missingExport "asyncify_*") sandbox
  | some controls =>
    .next ⟨sandbox.tell .stopRewind,
      ⟨.invoke controls.stopRewind [], .hook .resuming :: t.frames, t.depth + 1⟩⟩

/-- Writes a fresh control block and has the instance start unwinding. -/
def stepPause (i : Instance) (sandbox : Sandbox) (t : Thread) : Step :=
  match i.controls with
  | none => .failed (.missingExport "memory") sandbox
  | some controls =>
    let block := i.controlBlock
    match sandbox.write? i block.address.toNat ⟨block.encode.toArray⟩ with
    | .error e => .failed e sandbox
    | .ok sandbox =>
      .next ⟨sandbox.tell (.startUnwind block.address),
        ⟨.invoke controls.startUnwind [.ofWord block.address],
          .hook .pausing :: t.frames, t.depth + 1⟩⟩

def stepHook (i : Instance) (sandbox : Sandbox) (t : Thread) (cost : Int) : Step :=
  if sandbox.paused then stepResume i sandbox t
  else
    let sandbox := { sandbox with gas := sandbox.gas - cost }
    if 0 ≤ sandbox.gas then .next ⟨sandbox, { t with control := .give [] }⟩
    else stepPause i sandbox t

/-! ## Entering and leaving functions -/

/-- Whether a host function answers with what it declares. -/
def answersTo (type : FuncType) (results : List Value) : Bool :=
  results.length = type.results.length && (List.zipWith Value.hasType results type.results).all id

def stepInvoke (i : Instance) (sandbox : Sandbox) (t : Thread) (func : UInt32)
    (args : List Value) : Step :=
  match i.function? func with
  | none => .failed (.trap .unreachable) sandbox
  | some .hook =>
    match args with
    | [.i32 cost] => stepHook i sandbox t cost.toInt
    | _ => .failed (.trap .unreachable) sandbox
  | some (.host module name type behaviour) =>
    let sandbox' := { sandbox with calls := ⟨module, name, args⟩ :: sandbox.calls }
    match behaviour sandbox.calls args with
    | .error e => .failed (.host e) sandbox'
    | .ok results =>
      if answersTo type results then .next ⟨sandbox', { t with control := .give results }⟩
      else .failed (.host .resultType) sandbox'
  | some (.code type locals body) =>
    if t.depth < i.maxDepth then
      .next ⟨sandbox, { t with control := .run (.start func type locals body args) }⟩
    else .failed (.trap .callStackExhausted) sandbox

/-- Hands results to the frame below. -/
def stepGive (sandbox : Sandbox) (t : Thread) (results : List Value) : Step :=
  match t.frames with
  | [] => .finished results sandbox
  | .activation a :: frames =>
    .next ⟨sandbox,
      ⟨.run { a with operands := results.reverse ++ a.operands }, frames, t.depth - 1⟩⟩
  | .hook stage :: frames =>
    .next ⟨{ sandbox with paused := stage = .pausing }, ⟨.give [], frames, t.depth - 1⟩⟩

def step (i : Instance) : State → Step
  | ⟨sandbox, t⟩ =>
    match t.control with
    | .run a => stepCode i sandbox t a
    | .invoke func args => stepInvoke i sandbox t func args
    | .give results => stepGive sandbox t results

end MeteredWasm.Machine
