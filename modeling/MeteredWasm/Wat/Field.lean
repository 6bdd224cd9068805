import MeteredWasm.Wat.Custom

/-!
# Fields of a module in the text format

A field declares a type or an item of an index space, perhaps imported, and exported under any
number of names, or it is an export, the start function or a custom section. Names are collected
from all fields first, since a field may mean one that comes later.
-/

set_option autoImplicit false

namespace MeteredWasm.Wat

open Wasm

inductive Field
  /-- A type; `grouped` if it is a recursion group of its own. -/
  | type (name : Option (List Char)) (grouped : Bool) (definition : Tree)
  | item (space : Space) (name : Option (List Char)) (exports : List String)
    (imported : Option (String × String)) (body : List Tree)
  | exported (name : String) (kind : ExternKind) (index : Tree)
  | start (index : Tree)
  | custom (section_ : Custom)

/-! ## Reading fields -/

/-- The keywords of items. -/
def itemSpace? (keyword : String) : Option Space :=
  [("func", Space.funcs), ("table", .tables), ("memory", .memories), ("global", .globals),
    ("tag", .tags), ("elem", .elements), ("data", .datas)].lookup keyword

/-- What is imported and exported in each index space. -/
def Space.kind? : Space → Option ExternKind
  | .funcs => some .func
  | .tables => some .table
  | .memories => some .memory
  | .globals => some .global
  | .tags => some .tag
  | .types | .elements | .datas | .locals => none

def externKind? : Tree → Option ExternKind
  | .word cs => (itemSpace? (String.ofList cs)).bind Space.kind?
  | _ => none

/-- Two byte strings that are text. -/
def twoTexts : Items (String × String) := do return (← Items.one text?, ← Items.one text?)

/-- A type behind its keyword. -/
def typeField (grouped : Bool) : Items Field := do
  let name ← takeName
  return .type name grouped (← Items.next)

/-- An item behind its keyword. -/
def itemField (space : Space) : Items Field := do
  let name ← takeName
  if space.kind?.isSome then
    let exports ← Items.lists "export" (Items.one text?)
    let imported ← Items.list? "import" twoTexts
    return .item space name exports imported (← Items.rest)
  else return .item space name [] none (← Items.rest)

/-- What is imported: a list of its kind, its name here and its type. -/
def importedItem (source : String × String) : Items Field := do
  let kind ← Items.next
  let space ← Items.ofOption <| match kind with
    | .word cs => itemSpace? (String.ofList cs)
    | _ => none
  Items.require space.kind?.isSome
  let name ← takeName
  return .item space name [] (some source) (← Items.rest)

def importField : Items Field := do
  let source ← twoTexts
  match ← Items.next with
  | .list items => Items.ofOption ((importedItem source).whole items)
  | _ => Items.malformed

def exportField : Items Field := do
  let name ← Items.one text?
  match ← Items.next with
  | .list [kind, index] => return .exported name (← Items.ofOption (externKind? kind)) index
  | _ => Items.malformed

/-- A field behind its keyword. A recursion group is that of a single type. -/
def fieldOf (keyword : String) : Items Field :=
  match keyword with
  | "type" => typeField false
  | "rec" => do
    let items ← Items.one (listOf? "type")
    Items.ofOption ((typeField true).whole items)
  | "import" => importField
  | "export" => exportField
  | "start" => do return .start (← Items.next)
  | keyword =>
    match itemSpace? keyword with
    | some space => itemField space
    | none => do return .custom (← customOf keyword)

def field? : Tree → Option Field
  | .list (.word cs :: items) => (fieldOf (String.ofList cs)).whole items
  | _ => none

/-! ## What fields declare -/

/-- The names of an index space. -/
def namesOf (fields : List Field) (space : Space) : Names :=
  fields.filterMap fun f =>
    match f with
    | .type name _ _ => if space = .types then some name else none
    | .item s name _ _ _ => if s = space then some name else none
    | _ => none

/-- Whether no import stands behind an item that is defined here, tags apart. -/
def importsFirst (fields : List Field) : Bool :=
  let marks := fields.filterMap fun f =>
    match f with
    | .item space _ _ imported _ =>
      if imported.isSome then some true
      else if space.kind?.isSome ∧ space ≠ .tags then some false
      else none
    | _ => none
  (marks.dropWhile id).all (!·)

end MeteredWasm.Wat
