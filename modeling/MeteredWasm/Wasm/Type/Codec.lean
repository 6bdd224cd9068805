import MeteredWasm.Bytes.Leb128
import MeteredWasm.Bytes.Utf8
import MeteredWasm.Wasm.Type.Basic

/-!
# The binary form of types

A reader beside each writer. A nullable reference may be written as what it points to alone; writers
do so where that is a predefined heap type. Readers take every form.
-/

set_option autoImplicit false

namespace MeteredWasm.Wasm

open Leb128

/-! ## Which forms are read -/

/-- The forms a reader takes: all that any proposal has, or those that go with 32-bit sizes and
one memory only. -/
inductive Dialect
  | full | core
  deriving Repr, DecidableEq

/-- The width of sizes and offsets. -/
def Dialect.sizeBits : Dialect → Nat
  | .full => 64
  | .core => 32

/-! ## Names -/

/-- Text behind its length in bytes. -/
def readText : Reader String := do
  let n ← readUnsigned 32
  let bs ← Reader.take n
  Reader.ofOption (Utf8.decode? bs)

/-- Names longer than this are refused. -/
def maxNameLength : Nat := 100000

def readName : Reader String := do
  let s ← readText
  Reader.require (s.utf8ByteSize ≤ maxNameLength)
  return s

def writeName (s : String) : Bytes := writeBlob (Utf8.encode s)

/-! ## Value types -/

def AbstractHeap.code : AbstractHeap → UInt8
  | .func => 0x70
  | .external => 0x6F
  | .any => 0x6E
  | .bottom => 0x71
  | .noExternal => 0x72
  | .noFunc => 0x73
  | .eq => 0x6D
  | .struct => 0x6B
  | .array => 0x6A
  | .i31 => 0x6C
  | .exn => 0x69
  | .noExn => 0x74
  | .cont => 0x68
  | .noCont => 0x75

def AbstractHeap.ofCode? : UInt8 → Option AbstractHeap
  | 0x70 => some .func
  | 0x6F => some .external
  | 0x6E => some .any
  | 0x71 => some .bottom
  | 0x72 => some .noExternal
  | 0x73 => some .noFunc
  | 0x6D => some .eq
  | 0x6B => some .struct
  | 0x6A => some .array
  | 0x6C => some .i31
  | 0x69 => some .exn
  | 0x74 => some .noExn
  | 0x68 => some .cont
  | 0x75 => some .noCont
  | _ => none

theorem AbstractHeap.ofCode?_code (kind : AbstractHeap) : ofCode? kind.code = some kind := by
  cases kind <;> rfl

/-- A type index in a place where a signed number stands. -/
def readSignedIndex : Reader UInt32 := do
  let i ← readS33
  Reader.require (0 ≤ i)
  return i.toNat.toUInt32

def writeSignedIndex (index : UInt32) : Bytes := writeSigned index.toNat

/-- A reference points to one of at most this many defined types. -/
def maxReferencedTypes : Nat := 0x100000

/-- What a reference points to. The index of a defined type is bounded, unless it is that of an
exact type. -/
def HeapType.read : Reader HeapType := do
  match ← Reader.peek with
  | 0x65 =>
    let _ ← Reader.byte
    let kind ← Reader.ofOption (AbstractHeap.ofCode? (← Reader.byte))
    return .abstract true kind
  | 0x62 =>
    let _ ← Reader.byte
    return .precisely (← readU32)
  | b =>
    match AbstractHeap.ofCode? b with
    | some kind =>
      let _ ← Reader.byte
      return .abstract false kind
    | none =>
      let index ← readSignedIndex
      Reader.require (index.toNat < maxReferencedTypes)
      return .concrete index

def HeapType.write : HeapType → Bytes
  | .abstract true kind => [0x65, kind.code]
  | .abstract false kind => [kind.code]
  | .concrete index => writeSignedIndex index
  | .precisely index => 0x62 :: writeU32 index

/-- Whether a reference type can have this target: every index in it is bounded. -/
def HeapType.isReferable : HeapType → Bool
  | .concrete index | .precisely index => index.toNat < maxReferencedTypes
  | .abstract _ _ => true

/-- A heap type as a reference type has it. -/
def HeapType.readReferable : Reader HeapType := do
  let heap ← HeapType.read
  Reader.require heap.isReferable
  return heap

def RefType.read : Reader RefType := do
  match ← Reader.peek with
  | 0x63 =>
    let _ ← Reader.byte
    return ⟨true, ← HeapType.readReferable⟩
  | 0x64 =>
    let _ ← Reader.byte
    return ⟨false, ← HeapType.readReferable⟩
  | _ => return ⟨true, ← HeapType.readReferable⟩

def RefType.write (type : RefType) : Bytes :=
  match type.nullable, type.heap with
  | true, .abstract shared kind => HeapType.write (.abstract shared kind)
  | true, heap => 0x63 :: heap.write
  | false, heap => 0x64 :: heap.write

def ValType.read : Reader ValType := do
  match ← Reader.peek with
  | 0x7F => let _ ← Reader.byte; return .i32
  | 0x7E => let _ ← Reader.byte; return .i64
  | 0x7D => let _ ← Reader.byte; return .f32
  | 0x7C => let _ ← Reader.byte; return .f64
  | 0x7B => let _ ← Reader.byte; return .v128
  | _ => return .ref (← RefType.read)

def ValType.write : ValType → Bytes
  | .i32 => [0x7F]
  | .i64 => [0x7E]
  | .f32 => [0x7D]
  | .f64 => [0x7C]
  | .v128 => [0x7B]
  | .ref type => type.write

/-! ## Function types -/

/-- A function type has at most this many parameters, and at most this many results. -/
def maxArity : Nat := 1000

/-- The types of a list of parameters or results. -/
def readResultType : Reader (List ValType) := do
  let n ← readUnsigned 32
  Reader.require (n ≤ maxArity)
  Reader.times n ValType.read

def FuncType.read : Reader FuncType := do
  let params ← readResultType
  let results ← readResultType
  return ⟨params, results⟩

def FuncType.write (type : FuncType) : Bytes :=
  writeVec ValType.write type.params ++ writeVec ValType.write type.results

/-! ## Entities -/

/-- Sizes are as wide as the dialect has them, whatever the index type; `bounded` says whether
there is a greatest size. -/
def Limits.read (dialect : Dialect) (bounded : Bool) : Reader Limits := do
  let min ← readUnsigned dialect.sizeBits
  let max ← if bounded then some <$> readUnsigned dialect.sizeBits else pure none
  return ⟨min.toUInt64, max.map Nat.toUInt64⟩

def Limits.write (limits : Limits) : Bytes :=
  writeU64 limits.min ++ (limits.max.elim [] writeU64)

def flagByte (flags : List (Bool × UInt8)) : UInt8 :=
  flags.foldl (fun acc (set, bit) => if set then acc ||| bit else acc) 0

def TableType.read (dialect : Dialect) : Reader TableType := do
  let element ← RefType.read
  let flags ← Reader.byte
  Reader.require (flags ≤ 7)
  let limits ← Limits.read dialect (flags &&& 1 != 0)
  return { element, limits, is64 := flags &&& 4 != 0, shared := flags &&& 2 != 0 }

def TableType.write (type : TableType) : Bytes :=
  type.element.write ++
    [flagByte [(type.limits.max.isSome, 1), (type.shared, 2), (type.is64, 4)]] ++
    type.limits.write

/-- The binary logarithm of a page size is below this. -/
def pageSizeLogBound : Nat := 64

def readPageSizeLog : Reader UInt32 := do
  let size ← readU32
  Reader.require (size.toNat < pageSizeLogBound)
  return size

def MemoryType.read (dialect : Dialect) : Reader MemoryType := do
  let flags ← Reader.byte
  Reader.require (flags ≤ 15)
  let limits ← Limits.read dialect (flags &&& 1 != 0)
  let pageSizeLog ← if flags &&& 8 != 0 then some <$> readPageSizeLog else pure none
  return { limits, is64 := flags &&& 4 != 0, shared := flags &&& 2 != 0, pageSizeLog }

def MemoryType.write (type : MemoryType) : Bytes :=
  [flagByte [(type.limits.max.isSome, 1), (type.shared, 2), (type.is64, 4),
    (type.pageSizeLog.isSome, 8)]] ++
    type.limits.write ++ (type.pageSizeLog.elim [] writeU32)

def GlobalType.read : Reader GlobalType := do
  let content ← ValType.read
  let flags ← Reader.byte
  Reader.require (flags ≤ 3)
  return { content, isMutable := flags &&& 1 != 0, shared := flags &&& 2 != 0 }

def GlobalType.write (type : GlobalType) : Bytes :=
  type.content.write ++ [flagByte [(type.isMutable, 1), (type.shared, 2)]]

def ExternKind.code : ExternKind → UInt8
  | .func => 0
  | .table => 1
  | .memory => 2
  | .global => 3
  | .tag => 4

def ExternKind.ofCode? : UInt8 → Option ExternKind
  | 0 => some .func
  | 1 => some .table
  | 2 => some .memory
  | 3 => some .global
  | 4 => some .tag
  | _ => none

/-- The type index of a tag, after its attribute byte. -/
def readTagType : Reader UInt32 := do
  let marker ← Reader.byte
  Reader.require (marker == 0)
  readU32

def writeTagType (type : UInt32) : Bytes := 0 :: writeU32 type

end MeteredWasm.Wasm
