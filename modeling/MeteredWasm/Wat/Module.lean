import MeteredWasm.Wat.Item

/-!
# Modules in the text format

Fields are read twice. A type that is only said in place follows those with an entry of their own,
so that the first reading tells which types there are; the second knows them all. A text that gives
a name twice, means what is not there, or puts an import behind a definition is malformed; whether
the module is valid is not asked here.
-/

set_option autoImplicit false

namespace MeteredWasm.Wat

open Wasm

/-- The types that have an entry of their own. -/
def declaredTypes? (fields : List Field) : Option (List TypeEntry) :=
  let types := namesOf fields .types
  (fields.filterMap fun f =>
    match f with
    | .type _ grouped definition => some (entryOf? types grouped definition)
    | _ => none).mapM id

/-! ## Sections -/

/-- A section, unless it is empty. -/
def sectionOf {α : Type} (items : List α) (make : List α → Section) : List Section :=
  if items.isEmpty then [] else [make items]

/-- The known sections, in the standard order. -/
def Parts.known (p : Parts) (types : List TypeEntry) : List Section :=
  List.flatten
    [sectionOf types .types, sectionOf p.imports .imports, sectionOf p.functions .functions,
      sectionOf p.tables .tables, sectionOf p.memories .memories, sectionOf p.tags .tags,
      sectionOf p.globals .globals, sectionOf p.exports .exports, p.starts.map .start,
      sectionOf p.elements .elements,
      if p.datas.isEmpty then [] else [.dataCount p.datas.length.toUInt32],
      sectionOf p.bodies .code, sectionOf p.datas .data]

/-- Where a known section stands among custom ones. -/
def placeOf (s : Section) : Nat := 2 * (s.kind?.elim 0 SectionKind.rank)

/-- All sections, custom ones at their places. -/
def Parts.module (p : Parts) (types : List TypeEntry) : Module where
  sections :=
    let known := (p.known types).map fun s => (placeOf s, s)
    let customs := p.customs.map fun c => (c.place, Section.custom c.name c.contents)
    ((known ++ customs).mergeSort fun a b => a.1 ≤ b.1).map (·.2)

/-! ## Reading -/

/-- The parts that fields declare and all types, where `types` are known beforehand. -/
def reading? (fuel : Nat) (fields : List Field) (types : List FuncType) :
    Option (Parts × List FuncType) := do
  let scope : Scope := ⟨namesOf fields, types⟩
  let (p, known) ← (fields.foldlM (addField fuel scope) {}).run ⟨types, []⟩
  return (p, known.types)

def namedSpaces : List Space :=
  [.types, .funcs, .tables, .memories, .globals, .tags, .elements, .datas]

def moduleOfFields? (fuel : Nat) (fields : List Field) : Option Module := do
  if !namedSpaces.all (fun space => distinct (namesOf fields space)) then none
  if !importsFirst fields then none
  let declared ← declaredTypes? fields
  let (_, types) ← reading? fuel fields (declared.map TypeEntry.type)
  let (p, _) ← reading? fuel fields types
  if p.starts.length ≤ 1 then
    return p.module (declared ++ (types.drop declared.length).map .plain)
  else none

end MeteredWasm.Wat
