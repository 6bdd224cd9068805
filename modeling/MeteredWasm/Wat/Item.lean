import MeteredWasm.Sandbox.Pages
import MeteredWasm.Wasm.Module.Basic
import MeteredWasm.Wat.Field
import MeteredWasm.Wat.Segment

/-!
# Items of a module in the text format

The items that fields declare, in the order of the fields. A memory or table may be given by what it
holds at first, which makes a segment of its own.
-/

set_option autoImplicit false

namespace MeteredWasm.Wat

open Wasm

/-- The parts of a module as far as they have been read. -/
structure Parts where
  imports : List Import := []
  functions : List UInt32 := []
  bodies : List Body := []
  tables : List Table := []
  memories : List MemoryType := []
  tags : List UInt32 := []
  globals : List Global := []
  exports : List Export := []
  starts : List UInt32 := []
  elements : List Element := []
  datas : List Data := []
  customs : List Custom := []

def importKind : ImportType → ExternKind
  | .func _ | .funcPrecisely _ => .func
  | .table _ => .table
  | .memory _ => .memory
  | .global _ => .global
  | .tag _ => .tag

/-- The index that the next item of a kind has. -/
def Parts.next (p : Parts) (kind : ExternKind) : UInt32 :=
  let defined :=
    match kind with
    | .func => p.functions.length
    | .table => p.tables.length
    | .memory => p.memories.length
    | .global => p.globals.length
    | .tag => p.tags.length
  ((p.imports.filter fun i => importKind i.type = kind).length + defined).toUInt32

/-! ## Types -/

/-- The inside of a list that marks a type, if it is one. -/
def unwrap (head : String) (t : Tree) : Bool × Tree :=
  match listOf? head t with
  | some [inner] => (true, inner)
  | _ => (false, t)

/-- The inside of a list that names a related type. -/
def unwrapRelated (types : Names) (head : String) (t : Tree) : Option (Option UInt32 × Tree) :=
  match listOf? head t with
  | some [index, inner] => (resolve? types index).map (some ·, inner)
  | some _ => none
  | none => some (none, t)

/-- A function type, perhaps with marks around it. A type that has subtypes or a supertype and one
of another kind are refused. -/
def entryOf? (types : Names) (grouped : Bool) (t : Tree) : Option TypeEntry := do
  let t ← match listOf? "sub" t with
    | some [.word mark, t] => if mark = "final".toList then some t else none
    | some _ => none
    | none => some t
  let (shared, t) := unwrap "shared" t
  let (describes, t) ← unwrapRelated types "describes" t
  let (descriptor, t) ← unwrapRelated types "descriptor" t
  let signature ← (takeSignature types true).whole (← listOf? "func" t)
  return { grouped, shared, describes, descriptor, type := signature.type }

/-- The type that an import asks for. -/
def importType (s : Scope) : Space → Items (Meaning ImportType)
  | .funcs => do
    let use ← takeTypeUse s true
    return do return .func (← use.resolve)
  | .tags => do
    let use ← takeTypeUse s true
    return do return .tag (← use.resolve)
  | .tables => do return pure (.table (← tableType (s.names .types)))
  | .memories => do return pure (.memory (← memoryType))
  | .globals => do return pure (.global (← Items.one (globalType? (s.names .types))))
  | _ => Items.malformed

/-! ## Functions -/

/-- The names of the parameters of a function. -/
def paramNames (s : Scope) (u : TypeUse) : Names :=
  match u.signature, u.index with
  | some signature, _ => signature.params.map (·.1)
  | none, some index => ((s.types[index.toNat]?).map FuncType.params).getD [] |>.map fun _ => none
  | none, none => []

/-- A function: its type, its locals and its code. -/
def function (fuel : Nat) (s : Scope) : Items (Meaning (UInt32 × Body)) := do
  let use ← takeTypeUse s true
  let locals := (← Items.lists "local" (declarations (s.names .types) true)).flatten
  let names := paramNames s use ++ locals.map (·.1)
  Items.require (distinct names)
  let inside : Scope :=
    { s with names := fun space => if space = .locals then names else s.names space }
  let ops ← takeCode fuel inside
  return do
    let type ← use.resolve
    return (type, ⟨locals.map fun (_, type) => (1, type), (← ops) ++ [.endMark]⟩)

/-! ## Tables and memories -/

/-- An offset of zero. -/
def zeroOffset (wide : Bool) : ConstExpr := if wide then [.i64Const 0] else [.i32Const 0]

/-- A table and the items it holds at first, if they say its size. -/
def table (fuel : Nat) (s : Scope) : Items (Meaning (Table × Option ElementItems)) := do
  let start ← get
  let shared ← Items.word "shared"
  let wide ← takeWide
  match ← Items.optional (refType? (s.names .types)) with
  | some element =>
    let some inner ← Items.one fun t => some (listOf? "elem" t) | Items.malformed
    let typed := inner.head?.any isList
    let items ← Items.ofOption
      ((takeElements fuel s (if typed then some element else none)).whole inner)
    let size := inner.length.toUInt64
    return do
      let items ← items
      let size := match items with
        | .functions indices => indices.length.toUInt64
        | .expressions _ _ => size
      return (⟨⟨element, ⟨size, some size⟩, wide, shared⟩, none⟩, some items)
  | none =>
    set start
    let type ← tableType (s.names .types)
    if (← get).isEmpty then return pure (⟨type, none⟩, none)
    let init ← takeCode fuel s
    return do return (⟨type, some (← init)⟩, none)

/-- A memory and the bytes it holds at first, if they say its size. -/
def memory : Items (MemoryType × Option Bytes) := do
  let start ← get
  let wide ← takeWide
  if (← Items.peek?).any isList then
    let pageSizeLog ← takePageSize
    let some bytes ← Items.list? "data" takeContents | Items.malformed
    let size := (pageSizeLog.map fun log => 1 <<< log.toNat).getD pageSize
    let pages := ((bytes.length + size - 1) / size).toUInt64
    return (⟨⟨pages, some pages⟩, wide, false, pageSizeLog⟩, some bytes)
  else
    set start
    return (← memoryType, none)

/-! ## Definitions -/

/-- What all of a list means. -/
def Items.meaning {α : Type} (x : Items (Meaning α)) (items : List Tree) : Meaning α := do
  ← Meaning.ofOption (x.whole items)

/-- Adds an item that the module defines. -/
def define (fuel : Nat) (s : Scope) (p : Parts) (space : Space) (items : List Tree) :
    Meaning Parts := do
  match space with
  | .funcs =>
    let (type, body) ← (function fuel s).meaning items
    return { p with functions := p.functions ++ [type], bodies := p.bodies ++ [body] }
  | .tables =>
    let (t, contents) ← (table fuel s).meaning items
    let mode := ElementMode.active (some (p.next .table)) (zeroOffset t.type.is64)
    return { p with
      tables := p.tables ++ [t]
      elements := p.elements ++ contents.toList.map (⟨mode, ·⟩) }
  | .memories =>
    let (type, contents) ← Meaning.ofOption (memory.whole items)
    let mode := DataMode.active (p.next .memory) (zeroOffset type.is64)
    return { p with
      memories := p.memories ++ [type]
      datas := p.datas ++ contents.toList.map (⟨mode, ·⟩) }
  | .globals =>
    let (type, init) ← Meaning.ofOption <| Items.whole (do
      let type ← Items.one (globalType? (s.names .types))
      return (type, ← takeCode fuel s)) items
    return { p with globals := p.globals ++ [⟨type, ← init⟩] }
  | .tags =>
    let use ← Meaning.ofOption ((takeTypeUse s true).whole items)
    return { p with tags := p.tags ++ [← use.resolve] }
  | .elements =>
    return { p with elements := p.elements ++ [← (elementSegment fuel s).meaning items] }
  | .datas => return { p with datas := p.datas ++ [← (dataSegment fuel s).meaning items] }
  | .types | .locals => Meaning.malformed

/-- The index space of a kind of export. -/
def kindSpace : ExternKind → Space
  | .func => .funcs
  | .table => .tables
  | .memory => .memories
  | .global => .globals
  | .tag => .tags

def addField (fuel : Nat) (s : Scope) (p : Parts) (f : Field) : Meaning Parts :=
  match f with
  | .type .. => return p
  | .custom section_ => return { p with customs := p.customs ++ [section_] }
  | .start index => do
    let func ← Meaning.ofOption (resolve? (s.names .funcs) index)
    return { p with starts := p.starts ++ [func] }
  | .exported name kind index => do
    let index ← Meaning.ofOption (resolve? (s.names (kindSpace kind)) index)
    return { p with exports := p.exports ++ [⟨name, kind, index⟩] }
  | .item space _ exports imported body => do
    let shown := space.kind?.elim [] fun kind => exports.map (⟨·, kind, p.next kind⟩)
    let p := { p with exports := p.exports ++ shown }
    match imported with
    | some (module, name) =>
      let type ← (importType s space).meaning body
      return { p with imports := p.imports ++ [⟨module, name, type⟩] }
    | none => define fuel s p space body

end MeteredWasm.Wat
