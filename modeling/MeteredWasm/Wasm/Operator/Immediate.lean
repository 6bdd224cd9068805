import MeteredWasm.Bytes.LittleEndian
import MeteredWasm.Wasm.Type.Codec

/-!
# Immediates of operators

What stands after an opcode: block types, memory arguments, and the clause lists of exception and
effect handlers. Each has a reader beside its writer.
-/

set_option autoImplicit false

namespace MeteredWasm.Wasm

open Leb128

/-! ## Block types -/

inductive BlockType
  | empty
  | value (type : ValType)
  | func (index : UInt32)
  deriving Repr, DecidableEq, Inhabited

/-- A negative number of one byte is a value type or stands for none; the type of a function is
said by its index. -/
def BlockType.read : Reader BlockType := do
  let b ← Reader.peek
  if b == 0x40 then
    let _ ← Reader.byte
    return .empty
  else if b &&& 0xC0 == 0x40 then return .value (← ValType.read)
  else return .func (← readSignedIndex)

def BlockType.write : BlockType → Bytes
  | .empty => [0x40]
  | .value type => type.write
  | .func index => writeSignedIndex index

/-! ## Memory arguments -/

/-- Alignment (a binary logarithm), offset and memory of an access. -/
structure MemArg where
  align : UInt32
  offset : UInt64
  memory : UInt32
  deriving Repr, DecidableEq, Inhabited

/-- The bit of the alignment that says that a memory index follows. -/
def MemArg.memoryFlag : Nat := 64

def MemArg.read (dialect : Dialect) : Reader MemArg := do
  let flags ← readUnsigned 32
  match dialect with
  | .core =>
    Reader.require (flags < 32)
    let offset ← readUnsigned 32
    return ⟨flags.toUInt32, offset.toUInt64, 0⟩
  | .full =>
    if flags < memoryFlag then
      let offset ← readUnsigned 64
      return ⟨flags.toUInt32, offset.toUInt64, 0⟩
    else
      Reader.require (flags < 2 * memoryFlag)
      let memory ← readU32
      let offset ← readUnsigned 64
      return ⟨(flags - memoryFlag).toUInt32, offset.toUInt64, memory⟩

def MemArg.write (arg : MemArg) : Bytes :=
  if arg.memory = 0 then writeUnsigned arg.align.toNat ++ writeU64 arg.offset
  else writeUnsigned (arg.align.toNat + memoryFlag) ++ writeU32 arg.memory ++ writeU64 arg.offset

/-- The index of a memory; in the core dialect a zero byte. -/
def readMemoryIndex : Dialect → Reader UInt32
  | .full => readU32
  | .core => do
    let b ← Reader.byte
    Reader.require (b == 0)
    return 0

/-! ## Handlers -/

/-- A list of clauses has at most this many. -/
def maxClauses : Nat := 10000

/-- A list of clauses. -/
def readClauses {α : Type} (clause : Reader α) : Reader (List α) := do
  let n ← readUnsigned 32
  Reader.require (n ≤ maxClauses)
  Reader.times n clause

inductive Catch
  | one (tag label : UInt32)
  | oneRef (tag label : UInt32)
  | all (label : UInt32)
  | allRef (label : UInt32)
  deriving Repr, DecidableEq

def Catch.read : Reader Catch := do
  match ← Reader.byte with
  | 0 => return .one (← readU32) (← readU32)
  | 1 => return .oneRef (← readU32) (← readU32)
  | 2 => return .all (← readU32)
  | 3 => return .allRef (← readU32)
  | _ => Reader.refuse

def Catch.write : Catch → Bytes
  | .one tag label => 0 :: writeU32 tag ++ writeU32 label
  | .oneRef tag label => 1 :: writeU32 tag ++ writeU32 label
  | .all label => 2 :: writeU32 label
  | .allRef label => 3 :: writeU32 label

/-- What a resumed continuation's effects lead to. -/
inductive Handler
  | onLabel (tag label : UInt32)
  | onSwitch (tag : UInt32)
  deriving Repr, DecidableEq

def Handler.read : Reader Handler := do
  match ← Reader.byte with
  | 0 => return .onLabel (← readU32) (← readU32)
  | 1 => return .onSwitch (← readU32)
  | _ => Reader.refuse

def Handler.write : Handler → Bytes
  | .onLabel tag label => 0 :: writeU32 tag ++ writeU32 label
  | .onSwitch tag => 1 :: writeU32 tag

/-! ## Vectors -/

/-- The sixteen bytes of a vector, lowest first. -/
def readVector : Reader (BitVec 128) := do
  let n ← LittleEndian.read 16
  return BitVec.ofNat 128 n

def writeVector (v : BitVec 128) : Bytes := LittleEndian.write 16 v.toNat

end MeteredWasm.Wasm
