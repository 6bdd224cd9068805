import MeteredWasm.Machine.Access
import MeteredWasm.Machine.Storage

/-!
# Operators that only compute

What an operator other than control flow does to the storage, to the locals of its function and to
the operand stack, whose top is in front. An operator that does not find the operands it takes
traps with `unreachable`, which validated code never shows.
-/

set_option autoImplicit false

namespace MeteredWasm.Machine

open Wasm

/-- The first byte that a memory access touches. -/
def address (arg : MemArg) (base : Value) : Except Trap Nat := do
  let start ← base.index
  return start + arg.offset.toNat

/-- Like `address`, for accesses that must be aligned. -/
def alignedAddress (arg : MemArg) (bytes : Nat) (base : Value) : Except Trap Nat := do
  let a ← address arg base
  if a % bytes = 0 then return a else throw .unalignedAtomic

/-! ## Memory -/

def computeMemory (op : Operator) (operands : List Value) : Action (List Value) :=
  match op, operands with
  | .load op arg, base :: vs => do
    let n ← Action.loadNumber arg.memory.toNat (← address arg base) op.bytes
    return op.value n :: vs
  | .store op arg, v :: base :: vs => do
    let n ← op.number v
    Action.storeNumber arg.memory.toNat (← address arg base) op.bytes n
    return vs
  | .memorySize memory, vs => do
    let m ← Action.memory memory.toNat
    return .ofIndex m.is64 m.pages :: vs
  | .memoryGrow memory, delta :: vs => do
    return (← Action.growMemory memory.toNat (← delta.index)) :: vs
  | .memoryInit segment memory, n :: source :: target :: vs => do
    let (target, source, n) := (← target.index, ← source.index, ← n.index)
    let bytes ← Action.data segment.toNat
    let part ← Action.sliceOr .memoryOutOfBounds bytes source n
    Action.writeMemory memory.toNat target part
    return vs
  | .dataDrop segment, vs => do
    Action.dropData segment.toNat
    return vs
  | .memoryCopy targetMemory sourceMemory, n :: source :: target :: vs => do
    let (target, source, n) := (← target.index, ← source.index, ← n.index)
    Action.copyMemory targetMemory.toNat sourceMemory.toNat target source n
    return vs
  | .memoryFill memory, n :: byte :: target :: vs => do
    let (target, byte, n) := (← target.index, ← byte.index, ← n.index)
    Action.fillMemory memory.toNat target n byte.toUInt8
    return vs
  | _, _ => Action.trap .unreachable

/-! ## Vectors in memory -/

/-- The byte indices of a shuffle pick from both vectors in a row. -/
def shuffle (indices u v : BitVec 128) : BitVec 128 := lookUpBytes (lanes 8 u ++ lanes 8 v) indices

def computeVector (op : Operator) (operands : List Value) : Action (List Value) :=
  match op, operands with
  | .v128Const v, vs => return .v128 v :: vs
  | .shuffle indices, b :: a :: vs => do
    return .v128 (shuffle indices (← a.vector) (← b.vector)) :: vs
  | .vectorLoad op arg, base :: vs => do
    let n ← Action.loadNumber arg.memory.toNat (← address arg base) op.bytes
    return .v128 (op.value n) :: vs
  | .vectorStore arg, v :: base :: vs => do
    let v ← v.vector
    Action.storeNumber arg.memory.toNat (← address arg base) 16 v.toNat
    return vs
  | .loadLane width arg lane, v :: base :: vs => do
    let v ← v.vector
    let n ← Action.loadNumber arg.memory.toNat (← address arg base) width.bytes
    return .v128 (replaceLaneAt lane.toNat (BitVec.ofNat width.bits n) v) :: vs
  | .storeLane width arg lane, v :: base :: vs => do
    let v ← v.vector
    Action.storeNumber arg.memory.toNat (← address arg base) width.bytes
      (laneAt width.bits lane.toNat v).toNat
    return vs
  | .extractLane op lane, v :: vs => do return op.eval lane.toNat (← v.vector) :: vs
  | .replaceLane shape lane, a :: v :: vs => do
    let v ← replaceLaneBy shape lane.toNat a (← v.vector)
    return .v128 v :: vs
  | .vector op, vs => op.op.eval vs
  | _, _ => Action.trap .unreachable

/-! ## Atomic accesses -/

/-- Whether a thread that waits finds the number it expects. Nobody ever wakes it, so it then
waits until its time is over. -/
def waitResult (expected found : Nat) : Value := .ofNat (if expected = found then 2 else 1)

def computeAtomic (op : Operator) (operands : List Value) : Action (List Value) :=
  match op, operands with
  | .atomicFence, vs => return vs
  | .atomicNotify arg, n :: base :: vs => do
    let _ ← n.index
    let _ ← Action.loadNumber arg.memory.toNat (← alignedAddress arg 4 base) 4
    return .ofNat 0 :: vs
  | .atomicWait width arg, timeout :: expected :: base :: vs => do
    let _ ← timeout.int .w64
    let expected ← expected.int width
    let bytes := width.lane.bytes
    let n ← Action.loadNumber arg.memory.toNat (← alignedAddress arg bytes base) bytes
    if (← Action.memory arg.memory.toNat).shared then
      return waitResult expected.toNat n :: vs
    else Action.trap .waitOnUnshared
  | .atomic .load width arg, base :: vs => do
    let n ← Action.loadNumber arg.memory.toNat (← alignedAddress arg width.bytes base) width.bytes
    return .ofInt width.word (BitVec.ofNat _ n) :: vs
  | .atomic .store width arg, v :: base :: vs => do
    let n ← v.int width.word
    let a ← alignedAddress arg width.bytes base
    Action.storeNumber arg.memory.toNat a width.bytes n.toNat
    return vs
  | .atomic .compareExchange width arg, replacement :: expected :: base :: vs => do
    let (expected, replacement) := (← expected.int width.word, ← replacement.int width.word)
    let a ← alignedAddress arg width.bytes base
    let old ← Action.loadNumber arg.memory.toNat a width.bytes
    if old = expected.toNat % (1 <<< (8 * width.bytes)) then
      Action.storeNumber arg.memory.toNat a width.bytes replacement.toNat
    return .ofInt width.word (BitVec.ofNat _ old) :: vs
  | .atomic action width arg, v :: base :: vs => do
    let operand ← v.int width.word
    let a ← alignedAddress arg width.bytes base
    let old ← Action.loadNumber arg.memory.toNat a width.bytes
    Action.storeNumber arg.memory.toNat a width.bytes
      (action.combine (8 * width.bytes) old operand.toNat)
    return .ofInt width.word (BitVec.ofNat _ old) :: vs
  | _, _ => Action.trap .unreachable

/-! ## Tables and references -/

def refIsNull : List Value → Action (List Value)
  | v :: vs => do return .ofBool (← v.reference).isNone :: vs
  | [] => Action.trap .unreachable

def computeTable (op : Operator) (operands : List Value) : Action (List Value) :=
  match op, operands with
  | .refIsNull, vs => refIsNull vs
  | .tableGet table, position :: vs => do
    return .ref (← Action.tableGet table.toNat (← position.index)) :: vs
  | .tableSet table, v :: position :: vs => do
    let v ← v.reference
    Action.writeTable table.toNat (← position.index) [v]
    return vs
  | .tableInit segment table, n :: source :: target :: vs => do
    let (target, source, n) := (← target.index, ← source.index, ← n.index)
    let items ← Action.element segment.toNat
    let part ← Action.sliceOr .tableOutOfBounds items source n
    Action.writeTable table.toNat target part
    return vs
  | .elemDrop segment, vs => do
    Action.dropElement segment.toNat
    return vs
  | .tableCopy targetTable sourceTable, n :: source :: target :: vs => do
    let (target, source, n) := (← target.index, ← source.index, ← n.index)
    let items := (← Action.table sourceTable.toNat).items
    let part ← Action.sliceOr .tableOutOfBounds items.toList source n
    Action.writeTable targetTable.toNat target part
    return vs
  | .tableGrow table, n :: v :: vs => do
    let v ← v.reference
    return (← Action.growTable table.toNat (← n.index) v) :: vs
  | .tableSize table, vs => do
    let t ← Action.table table.toNat
    return .ofIndex t.is64 t.items.size :: vs
  | .tableFill table, n :: v :: position :: vs => do
    let (position, v, n) := (← position.index, ← v.reference, ← n.index)
    if (← Action.table table.toNat).items.size < position + n then
      Action.trap .tableOutOfBounds
    else
      Action.writeTable table.toNat position (List.replicate n v)
      return vs
  | .refNull _, vs => return .ref none :: vs
  | .refFunc func, vs => return .ref (some func) :: vs
  | _, _ => Action.trap .unreachable

/-! ## All of them -/

/-- What an operator does to the operand stack and the storage; control flow and locals apart. -/
def compute (op : Operator) (operands : List Value) : Action (List Value) :=
  match op, operands with
  | .nop, vs => return vs
  | .drop, _ :: vs => return vs
  | .refIsNull, vs => computeTable op vs
  | .atomicFence, vs => computeAtomic op vs
  | .select, c :: b :: a :: vs | .selectTyped _, c :: b :: a :: vs => do
    return (if (← c.int .w32) = 0 then b else a) :: vs
  | .drop, _ | .select, _ => Action.trap .unreachable
  | .globalGet index, vs => do return (← Action.global index.toNat) :: vs
  | .globalSet index, v :: vs => do
    Action.setGlobal index.toNat v
    return vs
  | .i32Const v, vs => return .ofWord v :: vs
  | .i64Const v, vs => return .i64 v.toBitVec :: vs
  | .f32Const v, vs => return .f32 v.toBitVec :: vs
  | .f64Const v, vs => return .f64 v.toBitVec :: vs
  | .numeric op, vs => op.eval vs
  | .load _ _, vs | .store _ _, vs | .memorySize _, vs | .memoryGrow _, vs
  | .memoryInit _ _, vs | .dataDrop _, vs | .memoryCopy _ _, vs | .memoryFill _, vs =>
    computeMemory op vs
  | .v128Const _, vs | .shuffle _, vs | .vectorLoad _ _, vs | .vectorStore _, vs
  | .loadLane _ _ _, vs | .storeLane _ _ _, vs | .extractLane _ _, vs | .replaceLane _ _, vs
  | .vector _, vs => computeVector op vs
  | .atomicNotify _, vs | .atomicWait _ _, vs | .atomic _ _ _, vs =>
    computeAtomic op vs
  | .tableGet _, vs | .tableSet _, vs | .tableInit _ _, vs | .elemDrop _, vs
  | .tableCopy _ _, vs | .tableGrow _, vs | .tableSize _, vs | .tableFill _, vs
  | .refNull _, vs | .refFunc _, vs => computeTable op vs
  | _, _ => Action.trap .unreachable

/-- What an operator does to the locals and the operand stack; control flow apart. -/
def perform (op : Operator) (locals operands : List Value) : Action (List Value × List Value) :=
  match op, operands with
  | .localGet index, vs =>
    match locals[index.toNat]? with
    | some v => return (locals, v :: vs)
    | none => Action.trap .unreachable
  | .localSet index, v :: vs => return (locals.set index.toNat v, vs)
  | .localTee index, v :: vs => return (locals.set index.toNat v, v :: vs)
  | op, vs => do return (locals, ← compute op vs)

end MeteredWasm.Machine
