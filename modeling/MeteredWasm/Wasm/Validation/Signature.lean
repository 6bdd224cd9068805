import MeteredWasm.Wasm.Operator.Access
import MeteredWasm.Wasm.Validation.Context

/-!
# Signatures of operators

The operands an operator takes and the results it leaves, where its context alone decides them.
Operators that move control, and those whose operands may be of any type, have no signature here.
-/

set_option autoImplicit false

namespace MeteredWasm.Wasm

namespace Validation

/-- Operand types, last operand last, and result types. -/
abbrev Signature := List ValType × List ValType

variable (c : Context)

/-- An access to a memory that exists, at an offset that it can have. -/
def offsetOk (arg : MemArg) : Bool :=
  (c.memory? arg.memory).any fun type => type.is64 || arg.offset.toNat < UInt32.size

/-- An access is aligned no more than its width. -/
def accessOk (arg : MemArg) (align : Nat) : Bool := offsetOk c arg && arg.align.toNat ≤ align

/-- An atomic access is aligned to its width. -/
def atomicOk (arg : MemArg) (align : Nat) : Bool := offsetOk c arg && arg.align.toNat = align

/-- A signature that holds under a condition. -/
def given (condition : Bool) (operands results : List ValType) : Option Signature :=
  if condition then some (operands, results) else none

def dataOk (segment : UInt32) : Bool := c.dataCount.any (segment.toNat < ·)

def atomicSignature (action : AtomicAction) (address type : ValType) : Signature :=
  match action with
  | .load => ([address], [type])
  | .store => ([address, type], [])
  | .compareExchange => ([address, type, type], [type])
  | _ => ([address, type], [type])

/-- What lengths count in that are used with two memories or tables. -/
def shorter (a b : ValType) : ValType := if a = .i32 then .i32 else b

/-- A lane that a vector of such lanes has. -/
def laneOk (width : LaneWidth) (lane : UInt8) : Bool := lane.toNat < width.count

/-- Whether every lane number is one of two vectors of bytes. -/
def shuffleOk (lanes : BitVec 128) : Bool := (writeVector lanes).all (· < 32)

/-- The signature of an operator among locals of these types. -/
def signature? (locals : Array ValType) : Operator → Option Signature
  | .nop | .atomicFence => some ([], [])
  | .call func => (c.func? func).map fun type => (type.params, type.results)
  | .callIndirect type table => do
    let type ← c.type? type
    let table ← c.table? table
    given (table.element = .funcref) (type.params ++ [indexType table.is64]) type.results
  | .localGet index => do
    let type ← locals[index.toNat]?
    return ([], [type])
  | .localSet index => do
    let type ← locals[index.toNat]?
    return ([type], [])
  | .localTee index => do
    let type ← locals[index.toNat]?
    return ([type], [type])
  | .globalGet index => do
    let type ← c.global? index
    return ([], [type.content])
  | .globalSet index => do
    let type ← c.global? index
    given type.isMutable [type.content] []
  | .tableGet table => do
    let type ← c.table? table
    return ([indexType type.is64], [.ref type.element])
  | .tableSet table => do
    let type ← c.table? table
    return ([indexType type.is64, .ref type.element], [])
  | .tableInit segment table => do
    let type ← c.table? table
    let source ← c.element? segment
    given (source = type.element) [indexType type.is64, .i32, .i32] []
  | .elemDrop segment => do
    let _ ← c.element? segment
    return ([], [])
  | .tableCopy target source => do
    let target ← c.table? target
    let source ← c.table? source
    let (into, out) := (indexType target.is64, indexType source.is64)
    given (source.element = target.element) [into, out, shorter into out] []
  | .tableGrow table => do
    let type ← c.table? table
    return ([.ref type.element, indexType type.is64], [indexType type.is64])
  | .tableSize table => do
    let type ← c.table? table
    return ([], [indexType type.is64])
  | .tableFill table => do
    let type ← c.table? table
    return ([indexType type.is64, .ref type.element, indexType type.is64], [])
  | .load op arg => do
    let address ← c.address? arg.memory
    given (accessOk c arg op.align) [address] [op.type]
  | .store op arg => do
    let address ← c.address? arg.memory
    given (accessOk c arg op.align) [address, op.type] []
  | .memorySize memory => do
    let address ← c.address? memory
    return ([], [address])
  | .memoryGrow memory => do
    let address ← c.address? memory
    return ([address], [address])
  | .memoryInit segment memory => do
    let address ← c.address? memory
    given (dataOk c segment) [address, .i32, .i32] []
  | .dataDrop segment => given (dataOk c segment) [] []
  | .memoryCopy target source => do
    let target ← c.address? target
    let source ← c.address? source
    return ([target, source, shorter target source], [])
  | .memoryFill memory => do
    let address ← c.address? memory
    return ([address, .i32, address], [])
  | .i32Const _ => some ([], [.i32])
  | .i64Const _ => some ([], [.i64])
  | .f32Const _ => some ([], [.f32])
  | .f64Const _ => some ([], [.f64])
  | .refNull heap => given (refTypeOk ⟨true, heap⟩) [] [.ref ⟨true, heap⟩]
  | .refFunc func =>
    given ((c.func? func).isSome && c.references.contains func) [] [.funcref]
  | .numeric op => some (op.signature.1, [op.signature.2])
  | .v128Const _ => some ([], [.v128])
  | .shuffle lanes => given (shuffleOk lanes) [.v128, .v128] [.v128]
  | .vectorLoad op arg => do
    let address ← c.address? arg.memory
    given (accessOk c arg op.align) [address] [.v128]
  | .vectorStore arg => do
    let address ← c.address? arg.memory
    given (accessOk c arg 4) [address, .v128] []
  | .loadLane width arg lane => do
    let address ← c.address? arg.memory
    given (accessOk c arg width.align && laneOk width lane) [address, .v128] [.v128]
  | .storeLane width arg lane => do
    let address ← c.address? arg.memory
    given (accessOk c arg width.align && laneOk width lane) [address, .v128] []
  | .extractLane op lane => given (laneOk op.width lane) [.v128] [op.type]
  | .replaceLane shape lane => given (laneOk shape.width lane) [.v128, shape.scalar] [.v128]
  | .vector op => some (op.op.signature.1, [op.op.signature.2])
  | .atomicNotify arg => do
    let address ← c.address? arg.memory
    given (atomicOk c arg 2) [address, .i32] [.i32]
  | .atomicWait width arg => do
    let address ← c.address? arg.memory
    given (atomicOk c arg width.lane.align) [address, width.int, .i64] [.i32]
  | .atomic action width arg => do
    let address ← c.address? arg.memory
    let signature := atomicSignature action address width.type
    given (atomicOk c arg width.align) signature.1 signature.2
  | .proposal p => do
    let arity ← p.relaxedArity?
    given c.features.relaxedVectors (List.replicate arity .v128) [.v128]
  | _ => none

end Validation

end MeteredWasm.Wasm
