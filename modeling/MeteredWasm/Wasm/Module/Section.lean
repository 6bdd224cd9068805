import MeteredWasm.Wasm.Module.Outline
import MeteredWasm.Wasm.Operator.Codec

/-!
# Sections

The items of each known section. A constant expression is the list of its operators without the
final `endMark`. The section of a kind keeps its items in order; nothing is looked up or checked
across sections here.
-/

set_option autoImplicit false

namespace MeteredWasm.Wasm

open Leb128

/-- The operators of a constant expression, without the final `endMark`. -/
abbrev ConstExpr := List Operator

/-! ## Items -/

/-- A function type of the type section; `grouped` if it is written as a recursion group of its
own. It may say what type it describes and what type describes it. -/
structure TypeEntry where
  grouped : Bool
  shared : Bool
  describes : Option UInt32
  descriptor : Option UInt32
  type : FuncType
  deriving Repr, DecidableEq

/-- A function type and nothing else. -/
def TypeEntry.plain (type : FuncType) : TypeEntry := ⟨false, false, none, none, type⟩

/-- What an import asks for. -/
inductive ImportType
  | func (type : UInt32)
  /-- A function of exactly this type. -/
  | funcPrecisely (type : UInt32)
  | table (type : TableType)
  | memory (type : MemoryType)
  | global (type : GlobalType)
  | tag (type : UInt32)
  deriving Repr, DecidableEq

structure Import where
  module : String
  name : String
  type : ImportType
  deriving Repr, DecidableEq

structure Export where
  name : String
  kind : ExternKind
  index : UInt32
  deriving Repr, DecidableEq

structure Table where
  type : TableType
  init : Option ConstExpr
  deriving DecidableEq

structure Global where
  type : GlobalType
  init : ConstExpr
  deriving DecidableEq

inductive ElementMode
  | active (table : Option UInt32) (offset : ConstExpr)
  | passive
  | declared
  deriving DecidableEq

inductive ElementItems
  | functions (indices : List UInt32)
  | expressions (type : RefType) (items : List ConstExpr)
  deriving DecidableEq

structure Element where
  mode : ElementMode
  items : ElementItems
  deriving DecidableEq

inductive DataMode
  | active (memory : UInt32) (offset : ConstExpr)
  | passive
  deriving DecidableEq

structure Data where
  mode : DataMode
  bytes : Bytes
  deriving DecidableEq

/-- A function body: its locals in groups of equal type, and its code with the final `endMark`. -/
structure Body where
  locals : List (UInt32 × ValType)
  code : List Operator
  deriving DecidableEq

/-! ## Readers -/

/-- The index of a related type, if it stands here behind its marker. -/
def readRelated (marker : UInt8) : Reader (Option UInt32) := do
  if (← Reader.peek) == marker then
    let _ ← Reader.byte
    let index ← readU32
    Reader.require (index.toNat < maxReferencedTypes)
    return some index
  else return none

/-- A function type, perhaps marked as final; supertypes are refused. -/
def TypeEntry.readMember (grouped : Bool) : Reader TypeEntry := do
  if (← Reader.peek) == 0x4F then
    let _ ← Reader.byte
    let supertypes ← readUnsigned 32
    Reader.require (supertypes == 0)
  let shared := (← Reader.peek) == 0x65
  if shared then
    let _ ← Reader.byte
  let describes ← readRelated 0x4C
  let descriptor ← readRelated 0x4D
  let form ← Reader.byte
  Reader.require (form == 0x60)
  return { grouped, shared, describes, descriptor, type := ← FuncType.read }

/-- A function type, perhaps in a recursion group of its own. Every other form of type is
refused. -/
def TypeEntry.read : Reader TypeEntry := do
  if (← Reader.peek) == 0x4E then
    let _ ← Reader.byte
    let members ← readUnsigned 32
    Reader.require (members == 1)
    TypeEntry.readMember true
  else TypeEntry.readMember false

def ImportType.read (dialect : Dialect) : Reader ImportType := do
  match ← Reader.byte with
  | 0x00 => return .func (← readU32)
  | 0x01 => return .table (← TableType.read dialect)
  | 0x02 => return .memory (← MemoryType.read dialect)
  | 0x03 => return .global (← GlobalType.read)
  | 0x04 => return .tag (← readTagType)
  | 0x20 => return .funcPrecisely (← readU32)
  | _ => Reader.refuse

def Import.read (dialect : Dialect) : Reader Import := do
  let module ← readName
  let name ← readName
  return ⟨module, name, ← ImportType.read dialect⟩

def Export.read : Reader Export := do
  let name ← readName
  let kind ← Reader.ofOption (ExternKind.ofCode? (← Reader.byte))
  return ⟨name, kind, ← readU32⟩

def Table.read (dialect : Dialect) : Reader Table := do
  if (← Reader.peek) == 0x40 then
    let _ ← Reader.byte
    let b ← Reader.byte
    Reader.require (b == 0)
    let type ← TableType.read dialect
    return ⟨type, some (← Operator.readConst dialect)⟩
  else return ⟨← TableType.read dialect, none⟩

def Global.read (dialect : Dialect) : Reader Global := do
  let type ← GlobalType.read
  return ⟨type, ← Operator.readConst dialect⟩

/-- The mode of an element segment, by the lower two bits of its flags. -/
def ElementMode.read (dialect : Dialect) (flags : Nat) : Reader ElementMode :=
  match flags % 4 with
  | 0 => return .active none (← Operator.readConst dialect)
  | 1 => return .passive
  | 2 => return .active (some (← readU32)) (← Operator.readConst dialect)
  | _ => return .declared

/-- Bit 2 of the flags says that the items are expressions; a type or kind is written unless the
segment is active in an implicit table. -/
def Element.read (dialect : Dialect) : Reader Element := do
  let flags ← readUnsigned 32
  Reader.require (flags < 8)
  let mode ← ElementMode.read dialect flags
  if 4 ≤ flags then
    let type ← if flags = 4 then pure RefType.funcref else RefType.read
    return ⟨mode, .expressions type (← readVec (Operator.readConst dialect))⟩
  else
    if flags ≠ 0 then
      let kind ← Reader.byte
      Reader.require (kind == 0)
    return ⟨mode, .functions (← readVec readU32)⟩

def Data.read (dialect : Dialect) : Reader Data := do
  match ← readUnsigned 32 with
  | 0 =>
    let offset ← Operator.readConst dialect
    return ⟨.active 0 offset, ← readBlob⟩
  | 1 => return ⟨.passive, ← readBlob⟩
  | 2 =>
    let memory ← readU32
    let offset ← Operator.readConst dialect
    return ⟨.active memory offset, ← readBlob⟩
  | _ => Reader.refuse

def readLocals : Reader (List (UInt32 × ValType)) := readVec do
  let count ← readU32
  return (count, ← ValType.read)

/-- How many locals there are. -/
def localCount (groups : List (UInt32 × ValType)) : Nat :=
  groups.foldl (fun total (count, _) => total + count.toNat) 0

/-- The body whose bytes these are. The number of its locals fits a word. -/
def Body.ofBytes? (dialect : Dialect) (bs : Bytes) : Option Body :=
  match readLocals bs with
  | none => none
  | some (locals, code) =>
    if localCount locals < UInt32.size then (Operator.readAll? dialect code).map (⟨locals, ·⟩)
    else none

/-! ## Writers -/

def writeRelated (marker : UInt8) (index : Option UInt32) : Bytes :=
  index.elim [] fun index => marker :: writeU32 index

def TypeEntry.write (entry : TypeEntry) : Bytes :=
  (if entry.grouped then [0x4E, 1] else []) ++ (if entry.shared then [0x65] else []) ++
    writeRelated 0x4C entry.describes ++ writeRelated 0x4D entry.descriptor ++
    0x60 :: entry.type.write

def ImportType.write : ImportType → Bytes
  | .func type => 0x00 :: writeU32 type
  | .table type => 0x01 :: type.write
  | .memory type => 0x02 :: type.write
  | .global type => 0x03 :: type.write
  | .tag type => 0x04 :: writeTagType type
  | .funcPrecisely type => 0x20 :: writeU32 type

def Import.write (i : Import) : Bytes := writeName i.module ++ writeName i.name ++ i.type.write

def Export.write (e : Export) : Bytes := writeName e.name ++ e.kind.code :: writeU32 e.index

def Table.write (t : Table) : Bytes :=
  match t.init with
  | none => t.type.write
  | some init => [0x40, 0x00] ++ t.type.write ++ Operator.writeConst init

def Global.write (g : Global) : Bytes := g.type.write ++ Operator.writeConst g.init

/-- The items of an element segment, behind their type or kind if `typed`. -/
def ElementItems.write (typed : Bool) : ElementItems → Bytes
  | .functions indices => (if typed then [0x00] else []) ++ writeVec writeU32 indices
  | .expressions type items =>
    (if typed then type.write else []) ++ writeVec Operator.writeConst items

/-- Whether the items fit the form that names neither table nor type. -/
def ElementItems.plain : ElementItems → Bool
  | .functions _ => true
  | .expressions type _ => type = .funcref

def ElementItems.flag : ElementItems → UInt8
  | .functions _ => 0
  | .expressions _ _ => 4

def Element.write (e : Element) : Bytes :=
  match e.mode with
  | .active none offset =>
    if e.items.plain then
      e.items.flag :: (Operator.writeConst offset ++ e.items.write false)
    else (2 + e.items.flag) :: (writeU32 0 ++ Operator.writeConst offset ++ e.items.write true)
  | .active (some table) offset =>
    (2 + e.items.flag) :: (writeU32 table ++ Operator.writeConst offset ++ e.items.write true)
  | .passive => (1 + e.items.flag) :: e.items.write true
  | .declared => (3 + e.items.flag) :: e.items.write true

def Data.write (d : Data) : Bytes :=
  match d.mode with
  | .active memory offset =>
    (if memory = 0 then [0x00] else 0x02 :: writeU32 memory) ++ Operator.writeConst offset ++
      writeBlob d.bytes
  | .passive => 0x01 :: writeBlob d.bytes

def writeLocals (locals : List (UInt32 × ValType)) : Bytes :=
  writeVec (fun (count, type) => writeU32 count ++ type.write) locals

def Body.write (b : Body) : Bytes := writeLocals b.locals ++ Operator.writeAll b.code

end MeteredWasm.Wasm
