import MeteredWasm.Artifact.Basic
import MeteredWasm.Bytes.Utf8

/-!
# The byte form of artifacts

Fields follow one another without padding. Numbers are little-endian and of fixed size; byte
strings and text stand behind their length, a number of eight bytes; a truth value and the
presence of an optional value are one byte, 0 or 1. The form is canonical, and no form is the
start of another, so whatever follows an artifact is passed over.
-/

set_option autoImplicit false

namespace MeteredWasm

/-- Why bytes are not an artifact. -/
inductive DecodeError
  /-- The bytes ran out. -/
  | ended
  | boolByte (b : UInt8)
  | optionByte (b : UInt8)
  | text (fault : Utf8.Fault)
  deriving Repr, DecidableEq

/-- The text of an error; bytes that ran out have none of their own. -/
def DecodeError.message : DecodeError → Option String
  | .ended => none
  | .boolByte b => some ("invalid u8 while decoding bool, expected 0 or 1, found " ++
      toString b.toNat)
  | .optionByte b => some ("tag for enum is not valid, found " ++ toString b.toNat)
  | .text fault => some ("string is not valid utf8: " ++ fault.message)

namespace Artifact

/-! ## Writing -/

def writeBlock (bs : Bytes) : Bytes := LittleEndian.write 8 bs.length ++ bs

def writeText (s : String) : Bytes := writeBlock (Utf8.encode s)

def writeBool (b : Bool) : Bytes := [if b then 1 else 0]

def writeOption {α : Type} (write : α → Bytes) : Option α → Bytes
  | none => [0]
  | some a => 1 :: write a

def writeWord (n : UInt64) : Bytes := LittleEndian.write 8 n.toNat

def encode (a : Artifact) : Bytes :=
  writeBlock a.wasm ++ writeText a.entry ++ writeWord a.memory.limits.min ++
    writeOption writeWord a.memory.limits.max ++ writeBool a.memory.isShared ++
    writeBool a.memory.isImported ++ writeOption writeText a.memoryExport ++
    LittleEndian.write 4 a.controlBlock.address.toNat ++
    LittleEndian.write 4 a.controlBlock.stackEnd.toNat

/-! ## Reading -/

/-- Takes a value off the front of a byte string, or says why not. -/
abbrev Decoder (α : Type) := StateT Bytes (Except DecodeError) α

def readBytes (n : Nat) : Decoder Bytes := fun input =>
  match Reader.splitExactly n input with
  | some (front, rest) => .ok (front, rest)
  | none => .error .ended

def readNumber (bytes : Nat) : Decoder Nat := do
  let bs ← readBytes bytes
  return LittleEndian.value bs

def readByte : Decoder UInt8
  | [] => .error .ended
  | b :: rest => .ok (b, rest)

/-- A length may promise more than there is, up to numbers that no input can hold. -/
def readBlock : Decoder Bytes := do
  let n ← readNumber 8
  let rest ← get
  if rest.length < n then throw .ended
  readBytes n

def readText : Decoder String := do
  let bs ← readBlock
  match Utf8.decode? bs with
  | some s => return s
  | none =>
    match Utf8.firstFault bs 0 with
    | some fault => throw (.text fault)
    | none => throw .ended

def readBool : Decoder Bool := do
  match ← readByte with
  | 0 => return false
  | 1 => return true
  | b => throw (.boolByte b)

def readOption {α : Type} (read : Decoder α) : Decoder (Option α) := do
  match ← readByte with
  | 0 => return none
  | 1 => return some (← read)
  | b => throw (.optionByte b)

def readWord : Decoder UInt64 := do
  let n ← readNumber 8
  return n.toUInt64

def readHalf : Decoder UInt32 := do
  let n ← readNumber 4
  return n.toUInt32

def read : Decoder Artifact := do
  let wasm ← readBlock
  let entry ← readText
  let min ← readWord
  let max ← readOption readWord
  let isShared ← readBool
  let isImported ← readBool
  let memoryExport ← readOption readText
  let address ← readHalf
  let stackEnd ← readHalf
  return ⟨wasm, entry, ⟨⟨min, max⟩, isShared, isImported⟩, memoryExport, ⟨address, stackEnd⟩⟩

/-- The artifact that `bytes` start with. -/
def decode (bytes : Bytes) : Except DecodeError Artifact := do
  let (a, _) ← read.run bytes
  return a

end Artifact

end MeteredWasm
