import MeteredWasm.Wasm.Module.Section
import MeteredWasm.Wat.Type

/-!
# Custom sections in the text format

Annotations say what custom sections a module has: any section with its bytes and its place, a list
of the tools that made the module, or how it is linked. Of the last, which only a linker asks for,
the form is checked and the contents are left out.
-/

set_option autoImplicit false

namespace MeteredWasm.Wat

open Wasm Leb128

/-- A custom section. Places are odd; the known section of rank `r` has place `2 * r`. -/
structure Custom where
  place : Nat
  name : String
  contents : Bytes

/-- Behind all known sections. -/
def lastPlace : Nat := 2 * SectionKind.data.rank + 3

/-! ## Places -/

/-- The known sections that a place may be next to. -/
def anchor? : Tree → Option SectionKind
  | .word cs =>
    [("type", SectionKind.types), ("import", .imports), ("func", .functions), ("table", .tables),
      ("memory", .memories), ("tag", .tags), ("global", .globals), ("export", .exports),
      ("start", .start), ("elem", .elements), ("code", .code), ("data", .data)].lookup
      (String.ofList cs)
  | _ => none

def takeBefore : Items Nat := do
  if ← Items.word "first" then return 1
  return 2 * (← Items.one anchor?).rank - 1

def takeAfter : Items Nat := do
  if ← Items.word "last" then return lastPlace
  return 2 * (← Items.one anchor?).rank + 1

def takePlace : Items Nat := do
  if (← Items.peek?).any isList then
    match ← Items.list? "before" takeBefore, ← Items.list? "after" takeAfter with
    | some place, none | none, some place => return place
    | _, _ => Items.malformed
  else return lastPlace

/-! ## Sections -/

def rawCustom : Items Custom := do
  let name ← Items.one text?
  let place ← takePlace
  return ⟨place, name, ← Items.bytes⟩

/-- A tool and its version. -/
abbrev Tool := String × String

def writeTool (tool : Tool) : Bytes := writeName tool.1 ++ writeName tool.2

/-- The kinds of tools. -/
def toolKinds : List String := ["language", "sdk", "processed-by"]

/-- A tool behind the kind it is of. -/
def toolOf? (t : Tree) : Option (String × Tool) :=
  toolKinds.findSome? fun kind =>
    match listOf? kind t with
    | some [name, version] => do return (kind, ← text? name, ← text? version)
    | _ => none

def producers : Items Custom := do
  let tools ← Items.all toolOf?
  let groups := toolKinds.filterMap fun kind =>
    match tools.filter (·.1 = kind) with
    | [] => none
    | tools => some (kind, tools.map (·.2))
  let contents := writeVec (fun (kind, tools) => writeName kind ++ writeVec writeTool tools) groups
  return ⟨lastPlace, "producers", contents⟩

/-! ## Linking -/

def linkFlags : List String :=
  ["binding-weak", "binding-local", "visibility-hidden", "undefined", "exported", "explicit-name",
    "no-strip"]

def isLinkFlag : Tree → Bool
  | .word cs => linkFlags.contains (String.ofList cs) || (Literal.u32? cs).isSome
  | _ => false

/-- The size and alignment of a memory or table. -/
def linkSize : Items Unit := do
  let _ ← Items.one (number? UInt32.size)
  let _ ← Items.one (number? UInt32.size)

def linkSizes : Items Unit := do
  let _ ← Items.list? "memory" linkSize
  let _ ← Items.list? "table" linkSize

/-- Names of other libraries, or places to look for them. -/
def linkTexts : Items Unit := do let _ ← Items.all text?

/-- `count` names, and flags. -/
def linkSymbol (count : Nat) : Items Unit := do
  let _ ← Items.times count (Items.one text?)
  let _ ← Items.all fun t => if isLinkFlag t then some t else none

def linkPart? (t : Tree) : Option Unit :=
  let part (head : String) (x : Items Unit) : Option Unit := (listOf? head t).bind x.whole
  part "mem-info" linkSizes <|> part "needed" linkTexts <|> part "export-info" (linkSymbol 1) <|>
    part "import-info" (linkSymbol 2) <|> part "runtime-path" linkTexts

def linking : Items Custom := do
  let _ ← Items.all linkPart?
  return ⟨1, "dylink.0", []⟩

/-- A custom section behind its annotation. -/
def customOf (keyword : String) : Items Custom :=
  match keyword with
  | "@custom" => rawCustom
  | "@producers" => producers
  | "@dylink.0" => linking
  | _ => Items.malformed

end MeteredWasm.Wat
