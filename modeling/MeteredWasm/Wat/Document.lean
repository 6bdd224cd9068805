import MeteredWasm.Wat.Module

/-!
# Documents in the text format

A document holds a module or a component. Either may be given by the bytes of its binary. A document
of fields alone is that of a module. A component is not looked into further than its kinds of
sections and the modules in it.
-/

set_option autoImplicit false

namespace MeteredWasm.Wat

open Wasm Leb128

/-- The binary of what follows the keyword `module`. -/
def moduleBinary? (fuel : Nat) (items : List Tree) : Option Bytes := do
  let (_, items) ← takeName items
  let (isBinary, items) ← Items.word "binary" items
  if isBinary then Items.bytes.whole items
  else return (← moduleOfFields? fuel (← items.mapM field?)).encode

/-! ## Components -/

/-- The id of the section that a field of a component becomes, and whether it belongs to the core
language. -/
def componentSection? (core : Bool) (keyword : String) : Option UInt8 :=
  if core then
    [("module", (1 : UInt8)), ("instance", 2), ("type", 3), ("rec", 3), ("alias", 6),
      ("func", 8)].lookup keyword
  else
    [("component", (4 : UInt8)), ("instance", 5), ("alias", 6), ("type", 7), ("func", 8),
      ("canon", 8), ("start", 9), ("import", 10), ("export", 11)].lookup keyword

/-- A section of a component, with nothing in it. -/
def emptySection (id : UInt8) : Bytes := id :: writeBlob [0, 0, 0]

mutual

/-- The binary of what follows the keyword `component`. -/
def componentBinary? (fuel : Nat) (items : List Tree) : Option Bytes :=
  match fuel with
  | 0 => none
  | fuel + 1 => do
    let (_, items) ← takeName items
    let (isBinary, items) ← Items.word "binary" items
    if isBinary then Items.bytes.whole items
    else
      let sections ← items.mapM (componentField? fuel)
      return Header.component.bytes ++ sections.flatten

/-- The section that a field of a component becomes. -/
def componentField? (fuel : Nat) (t : Tree) : Option Bytes :=
  match fuel, t with
  | fuel + 1, .list (.word cs :: items) =>
    match String.ofList cs, items with
    | "core", .word kind :: items => do
      let id ← componentSection? true (String.ofList kind)
      if id = 1 then return id :: writeBlob (← moduleBinary? fuel items)
      return emptySection id
    | "component", items => do return 4 :: writeBlob (← componentBinary? fuel items)
    | keyword, items =>
      match componentSection? false keyword with
      | some id => some (emptySection id)
      | none => do
        let c ← (customOf keyword).whole items
        if keyword = "@dylink.0" then none
        return (Section.custom c.name c.contents).write
  | _, _ => none

end

/-! ## Documents -/

/-- The binary that a text describes. -/
def binary? (text : String) : Option Bytes := do
  let trees ← Tree.ofText? text
  let fuel := 2 * text.length + 2
  match trees with
  | [t] =>
    match listOf? "module" t, listOf? "component" t with
    | some items, _ => moduleBinary? fuel items
    | none, some items => componentBinary? fuel items
    | none, none => return (← moduleOfFields? fuel [← field? t]).encode
  | trees => return (← moduleOfFields? fuel (← trees.mapM field?)).encode

end MeteredWasm.Wat
