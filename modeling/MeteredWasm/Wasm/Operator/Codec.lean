import MeteredWasm.Wasm.Operator.Basic

/-!
# The binary form of operators

`Operator.read` takes one operator, `Operator.write` puts it down with its numbers in shortest
form. `Operator.readNested` also follows the frames that the operators open and close, which
decides whether an operator may stand where it does.
-/

set_option autoImplicit false

namespace MeteredWasm.Wasm

open Leb128

/-! ## Families in opcode order -/

def Load.all : List Load :=
  [.i32, .i64, .f32, .f64, .i32From8 .signed, .i32From8 .unsigned, .i32From16 .signed,
    .i32From16 .unsigned, .i64From8 .signed, .i64From8 .unsigned, .i64From16 .signed,
    .i64From16 .unsigned, .i64From32 .signed, .i64From32 .unsigned]

def Store.all : List Store :=
  [.i32, .i64, .f32, .f64, .i32To8, .i32To16, .i64To8, .i64To16, .i64To32]

def VectorLoad.all : List VectorLoad :=
  [.full, .widen .w8 .signed, .widen .w8 .unsigned, .widen .w16 .signed, .widen .w16 .unsigned,
    .widen .w32 .signed, .widen .w32 .unsigned, .splat .w8, .splat .w16, .splat .w32, .splat .w64]

def LaneWidth.all : List LaneWidth := [.w8, .w16, .w32, .w64]

def AtomicWidth.all : List AtomicWidth :=
  [.i32, .i64, .i32Low8, .i32Low16, .i64Low8, .i64Low16, .i64Low32]

def AtomicAction.all : List AtomicAction :=
  [.load, .store, .add, .sub, .and, .or, .xor, .exchange, .compareExchange]

/-- Reading and replacing lanes: codes 21 to 34. -/
def laneAccesses : List (LaneExtract ⊕ LaneShape) :=
  [.inl (.i8 .signed), .inl (.i8 .unsigned), .inr (.int .w8), .inl (.i16 .signed),
    .inl (.i16 .unsigned), .inr (.int .w16), .inl .i32, .inr (.int .w32), .inl .i64,
    .inr (.int .w64), .inl .f32, .inr (.float .w32), .inl .f64, .inr (.float .w64)]

def LaneExtract.width : LaneExtract → LaneWidth
  | .i8 _ => .w8
  | .i16 _ => .w16
  | .i32 | .f32 => .w32
  | .i64 | .f64 => .w64

namespace Operator

/-! ## Reading -/

/-- After the byte `0xFC`. -/
def readMisc (dialect : Dialect) (code : Nat) : Reader Operator :=
  match code with
  | 8 => return .memoryInit (← readU32) (← readMemoryIndex dialect)
  | 9 => return .dataDrop (← readU32)
  | 10 => return .memoryCopy (← readMemoryIndex dialect) (← readMemoryIndex dialect)
  | 11 => return .memoryFill (← readMemoryIndex dialect)
  | 12 => return .tableInit (← readU32) (← readU32)
  | 13 => return .elemDrop (← readU32)
  | 14 => return .tableCopy (← readU32) (← readU32)
  | 15 => return .tableGrow (← readU32)
  | 16 => return .tableSize (← readU32)
  | 17 => return .tableFill (← readU32)
  | _ =>
    match Numeric.ofSaturatingCode? code with
    | some op => return .numeric op
    | none => return .proposal (← Proposal.readAfter dialect ⟨some 0xFC, code⟩)

/-- After the byte `0xFD`. -/
def readVectorOp (dialect : Dialect) (code : Nat) : Reader Operator :=
  match code with
  | 11 => return .vectorStore (← MemArg.read dialect)
  | 12 => return .v128Const (← readVector)
  | 13 => return .shuffle (← readVector)
  | 92 => return .vectorLoad (.zeroExtend .w32) (← MemArg.read dialect)
  | 93 => return .vectorLoad (.zeroExtend .w64) (← MemArg.read dialect)
  | _ => do
    if let some op := VectorLoad.all[code]? then
      return .vectorLoad op (← MemArg.read dialect)
    if 21 ≤ code then
      match laneAccesses[code - 21]? with
      | some (.inl op) => return .extractLane op (← Reader.byte)
      | some (.inr shape) => return .replaceLane shape (← Reader.byte)
      | none => pure ()
    if 84 ≤ code then
      if let some width := LaneWidth.all[code - 84]? then
        return .loadLane width (← MemArg.read dialect) (← Reader.byte)
    if 88 ≤ code then
      if let some width := LaneWidth.all[code - 88]? then
        return .storeLane width (← MemArg.read dialect) (← Reader.byte)
    match VectorInstr.ofCode? code with
    | some op => return .vector op
    | none => return .proposal (← Proposal.readAfter dialect ⟨some 0xFD, code⟩)

/-- After the byte `0xFE`. -/
def readAtomic (dialect : Dialect) (code : Nat) : Reader Operator :=
  match code with
  | 0 => return .atomicNotify (← MemArg.read dialect)
  | 1 => return .atomicWait .w32 (← MemArg.read dialect)
  | 2 => return .atomicWait .w64 (← MemArg.read dialect)
  | 3 => do
    let b ← Reader.byte
    Reader.require (b == 0)
    return .atomicFence
  | _ => do
    if 16 ≤ code then
      match AtomicAction.all[(code - 16) / 7]?, AtomicWidth.all[(code - 16) % 7]? with
      | some action, some width => return .atomic action width (← MemArg.read dialect)
      | _, _ => pure ()
    return .proposal (← Proposal.readAfter dialect ⟨some 0xFE, code⟩)

/-- The operators of one byte that belong to a family, and those of proposals. -/
def readFamily (dialect : Dialect) (code : UInt8) : Reader Operator := do
  if 0x28 ≤ code then
    if let some op := Load.all[code.toNat - 0x28]? then
      return .load op (← MemArg.read dialect)
  if 0x36 ≤ code then
    if let some op := Store.all[code.toNat - 0x36]? then
      return .store op (← MemArg.read dialect)
  match Numeric.ofCode? code.toNat with
  | some op => return .numeric op
  | none => return .proposal (← Proposal.readAfter dialect ⟨none, code.toNat⟩)

/-- A `select` names at most this many types. -/
def maxSelected : Nat := 10

def readSelected : Reader (List ValType) := do
  let types ← readVec ValType.read
  Reader.require (types.length ≤ maxSelected)
  return types

/-- One operator. -/
def read (dialect : Dialect) : Reader Operator := do
  match ← Reader.byte with
  | 0x00 => return .unreachable
  | 0x01 => return .nop
  | 0x02 => return .block (← BlockType.read)
  | 0x03 => return .loop (← BlockType.read)
  | 0x04 => return .ifThen (← BlockType.read)
  | 0x05 => return .elseMark
  | 0x0B => return .endMark
  | 0x0C => return .br (← readU32)
  | 0x0D => return .brIf (← readU32)
  | 0x0E => return .brTable (← readVec readU32) (← readU32)
  | 0x0F => return .ret
  | 0x10 => return .call (← readU32)
  | 0x11 => return .callIndirect (← readU32) (← readU32)
  | 0x12 => return .returnCall (← readU32)
  | 0x13 => return .returnCallIndirect (← readU32) (← readU32)
  | 0x1A => return .drop
  | 0x1B => return .select
  | 0x1C => return .selectTyped (← readSelected)
  | 0x20 => return .localGet (← readU32)
  | 0x21 => return .localSet (← readU32)
  | 0x22 => return .localTee (← readU32)
  | 0x23 => return .globalGet (← readU32)
  | 0x24 => return .globalSet (← readU32)
  | 0x25 => return .tableGet (← readU32)
  | 0x26 => return .tableSet (← readU32)
  | 0x3F => return .memorySize (← readMemoryIndex dialect)
  | 0x40 => return .memoryGrow (← readMemoryIndex dialect)
  | 0x41 => return .i32Const (← readS32)
  | 0x42 => return .i64Const (← readS64)
  | 0x43 => return .f32Const (← LittleEndian.read 4).toUInt32
  | 0x44 => return .f64Const (← LittleEndian.read 8).toUInt64
  | 0xD0 => return .refNull (← HeapType.read)
  | 0xD1 => return .refIsNull
  | 0xD2 => return .refFunc (← readU32)
  | 0xFB =>
    let code ← readUnsigned 32
    return .proposal (← Proposal.readAfter dialect ⟨some 0xFB, code⟩)
  | 0xFC =>
    let code ← readUnsigned 32
    readMisc dialect code
  | 0xFD =>
    let code ← readUnsigned 32
    readVectorOp dialect code
  | 0xFE =>
    let code ← readUnsigned 32
    readAtomic dialect code
  | code => readFamily dialect code

/-! ## Writing -/

/-- An operator after a page byte. -/
def writePaged (page : UInt8) (code : Nat) : Bytes := page :: writeUnsigned code

def write : Operator → Bytes
  | .unreachable => [0x00]
  | .nop => [0x01]
  | .block type => 0x02 :: type.write
  | .loop type => 0x03 :: type.write
  | .ifThen type => 0x04 :: type.write
  | .elseMark => [0x05]
  | .endMark => [0x0B]
  | .br label => 0x0C :: writeU32 label
  | .brIf label => 0x0D :: writeU32 label
  | .brTable labels fallback => 0x0E :: (writeVec writeU32 labels ++ writeU32 fallback)
  | .ret => [0x0F]
  | .call func => 0x10 :: writeU32 func
  | .callIndirect type table => 0x11 :: (writeU32 type ++ writeU32 table)
  | .returnCall func => 0x12 :: writeU32 func
  | .returnCallIndirect type table => 0x13 :: (writeU32 type ++ writeU32 table)
  | .drop => [0x1A]
  | .select => [0x1B]
  | .selectTyped types => 0x1C :: writeVec ValType.write types
  | .localGet index => 0x20 :: writeU32 index
  | .localSet index => 0x21 :: writeU32 index
  | .localTee index => 0x22 :: writeU32 index
  | .globalGet index => 0x23 :: writeU32 index
  | .globalSet index => 0x24 :: writeU32 index
  | .tableGet table => 0x25 :: writeU32 table
  | .tableSet table => 0x26 :: writeU32 table
  | .tableInit segment table => writePaged 0xFC 12 ++ writeU32 segment ++ writeU32 table
  | .elemDrop segment => writePaged 0xFC 13 ++ writeU32 segment
  | .tableCopy target source => writePaged 0xFC 14 ++ writeU32 target ++ writeU32 source
  | .tableGrow table => writePaged 0xFC 15 ++ writeU32 table
  | .tableSize table => writePaged 0xFC 16 ++ writeU32 table
  | .tableFill table => writePaged 0xFC 17 ++ writeU32 table
  | .load op arg => (0x28 + Load.all.idxOf op).toUInt8 :: arg.write
  | .store op arg => (0x36 + Store.all.idxOf op).toUInt8 :: arg.write
  | .memorySize memory => 0x3F :: writeU32 memory
  | .memoryGrow memory => 0x40 :: writeU32 memory
  | .memoryInit segment memory => writePaged 0xFC 8 ++ writeU32 segment ++ writeU32 memory
  | .dataDrop segment => writePaged 0xFC 9 ++ writeU32 segment
  | .memoryCopy target source => writePaged 0xFC 10 ++ writeU32 target ++ writeU32 source
  | .memoryFill memory => writePaged 0xFC 11 ++ writeU32 memory
  | .i32Const value => 0x41 :: writeS32 value
  | .i64Const value => 0x42 :: writeS64 value
  | .f32Const bits => 0x43 :: LittleEndian.write 4 bits.toNat
  | .f64Const bits => 0x44 :: LittleEndian.write 8 bits.toNat
  | .refNull heap => 0xD0 :: heap.write
  | .refIsNull => [0xD1]
  | .refFunc func => 0xD2 :: writeU32 func
  | .numeric op => if op.isSaturating then writePaged 0xFC op.code else [op.code.toUInt8]
  | .v128Const value => writePaged 0xFD 12 ++ writeVector value
  | .shuffle lanes => writePaged 0xFD 13 ++ writeVector lanes
  | .vectorLoad (.zeroExtend .w32) arg => writePaged 0xFD 92 ++ arg.write
  | .vectorLoad (.zeroExtend .w64) arg => writePaged 0xFD 93 ++ arg.write
  | .vectorLoad op arg => writePaged 0xFD (VectorLoad.all.idxOf op) ++ arg.write
  | .vectorStore arg => writePaged 0xFD 11 ++ arg.write
  | .loadLane width arg lane =>
    writePaged 0xFD (84 + LaneWidth.all.idxOf width) ++ arg.write ++ [lane]
  | .storeLane width arg lane =>
    writePaged 0xFD (88 + LaneWidth.all.idxOf width) ++ arg.write ++ [lane]
  | .extractLane op lane => writePaged 0xFD (21 + laneAccesses.idxOf (.inl op)) ++ [lane]
  | .replaceLane shape lane => writePaged 0xFD (21 + laneAccesses.idxOf (.inr shape)) ++ [lane]
  | .vector op => writePaged 0xFD op.code
  | .atomicNotify arg => writePaged 0xFE 0 ++ arg.write
  | .atomicWait .w32 arg => writePaged 0xFE 1 ++ arg.write
  | .atomicWait .w64 arg => writePaged 0xFE 2 ++ arg.write
  | .atomicFence => writePaged 0xFE 3 ++ [0]
  | .atomic action width arg =>
    writePaged 0xFE (16 + 7 * AtomicAction.all.idxOf action + AtomicWidth.all.idxOf width) ++
      arg.write
  | .proposal op => op.write

/-! ## Code -/

/-- One operator, and the frames it leaves open. -/
def readNested (dialect : Dialect) (frames : List Frame) : Reader (Operator × List Frame) := do
  let op ← read dialect
  let frames ← Reader.ofOption (op.nest? frames)
  return (op, frames)

/-- Operators to the end of the input, starting in the open frames `frames`; at most `n`. The
operators in front of the first that cannot be read, and whether there is such a one. -/
def readRun (dialect : Dialect) : (n : Nat) → List Frame → Bytes → List Operator × Bool
  | _, _, [] => ([], true)
  | 0, _, _ :: _ => ([], false)
  | n + 1, frames, input@(_ :: _) =>
    match readNested dialect frames input with
    | none => ([], false)
    | some ((op, frames), rest) =>
      let (ops, complete) := readRun dialect n frames rest
      (op :: ops, complete)

/-- The operators of `code`, which starts in one open frame, up to the first that cannot be read;
and whether all of it could be read. -/
def readPrefixes (dialect : Dialect) (code : Bytes) : List Operator × Bool :=
  readRun dialect code.length [.plain] code

/-- The operators of `code`, if all of it can be read. -/
def readAll? (dialect : Dialect) (code : Bytes) : Option (List Operator) :=
  match readPrefixes dialect code with
  | (ops, true) => some ops
  | (_, false) => none

/-- Operators up to the first `endMark`, which is not part of the result: the form of constant
expressions. That mark has to close the outermost frame. At most `n` operators are read. -/
def readToEnd (dialect : Dialect) : (n : Nat) → List Frame → Reader (List Operator)
  | 0, _ => Reader.refuse
  | n + 1, frames => do
    let (op, frames) ← readNested dialect frames
    if op = .endMark then
      Reader.require frames.isEmpty
      return []
    let ops ← readToEnd dialect n frames
    return op :: ops

/-- A constant expression, without its final `endMark`. -/
def readConst (dialect : Dialect) : Reader (List Operator) := fun input =>
  readToEnd dialect input.length [.plain] input

def writeAll (ops : List Operator) : Bytes := ops.flatMap write

def writeConst (ops : List Operator) : Bytes := writeAll ops ++ endMark.write

end Operator

end MeteredWasm.Wasm
