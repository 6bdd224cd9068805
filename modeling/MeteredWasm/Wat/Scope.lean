import MeteredWasm.Wat.Items
import MeteredWasm.Wat.Keyword.Basic
import MeteredWasm.Wat.Literal

/-!
# Names in the text format

An item may be given a name, and be meant by it or by its index. What the names of items stand for
is known before code is read (`Scope`). What a part of the text means can depend on what stands in
front of it as well: on the labels of the blocks that are open, and on the types that have been said
in place so far (`Meaning`).
-/

set_option autoImplicit false

namespace MeteredWasm.Wat

open Wasm

/-- The names of the items of an index space, in order. -/
abbrev Names := List (Option (List Char))

/-- What is known before code is read. -/
structure Scope where
  names : Space → Names
  /-- Types, as far as an earlier reading has found them. -/
  types : List FuncType

/-! ## Indices -/

def name? : Tree → Option (List Char)
  | .word ('$' :: cs) => some cs
  | _ => none

/-- Whether a tree is an integer. -/
def isNumber : Tree → Bool
  | .word cs => Literal.isInteger cs
  | _ => false

/-- Whether a tree is a name or a number. -/
def isIndex (t : Tree) : Bool := (name? t).isSome || isNumber t

/-- The index that a tree means. -/
def resolve? (names : Names) : Tree → Option UInt32
  | .word ('$' :: cs) => (names.findIdx? (· = some cs)).map Nat.toUInt32
  | .word cs => Literal.u32? cs
  | _ => none

/-- Whether no name is given twice. -/
def distinct (names : Names) : Bool := (names.filterMap id).Nodup

/-- Takes the name of an item off, if one is there. An annotation may follow that says what the item
is called elsewhere. -/
def takeName : Items (Option (List Char)) := do
  let name ← Items.optional name?
  let _ ← Items.list? "@name" (Items.one text?)
  return name

def takeIndex (names : Names) : Items UInt32 := Items.one (resolve? names)

/-- Takes an index off, if one is there. -/
def takeOptionalIndex (names : Names) : Items (Option UInt32) := do
  if (← Items.peek?).any isIndex then some <$> takeIndex names else return none

/-! ## What depends on the text in front -/

/-- What the text so far has said. -/
structure Known where
  types : List FuncType
  /-- Labels of the blocks that are open, innermost first. -/
  labels : Names

/-- What a part of the text means, given what stands in front of it; it may add a type, or open and
close blocks. -/
abbrev Meaning (α : Type) := StateT Known Option α

namespace Meaning

def malformed {α : Type} : Meaning α := fun _ => none

def ofOption {α : Type} : Option α → Meaning α
  | some a => pure a
  | none => malformed

/-- The index of a type, which is added if it is new. -/
def typeIndex (type : FuncType) : Meaning UInt32 := fun known =>
  match known.types.findIdx? (· = type) with
  | some i => some (i.toUInt32, known)
  | none =>
    some (known.types.length.toUInt32, { known with types := known.types ++ [type] })

/-- The label that a tree means. -/
def label (t : Tree) : Meaning UInt32 := do ofOption (resolve? (← get).labels t)

/-- Opens a block. -/
def openBlock (label : Option (List Char)) : Meaning Unit :=
  modify fun known => { known with labels := label :: known.labels }

/-- Closes the innermost block. -/
def closeBlock : Meaning Unit :=
  modify fun known => { known with labels := known.labels.drop 1 }

/-- A mark of the innermost block may repeat the name of its label. -/
def checkLabel (name : Option (List Char)) : Meaning Unit := do
  match name, (← get).labels with
  | some _, label :: _ => if label = name then return else malformed
  | _, _ => return

end Meaning

end MeteredWasm.Wat
