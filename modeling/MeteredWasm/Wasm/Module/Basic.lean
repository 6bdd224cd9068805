import MeteredWasm.Wasm.Module.Section

/-!
# Modules

A decoded module is its row of sections, custom ones included, in the order they stand in.
`Module.encode` writes it with every number in shortest form.
-/

set_option autoImplicit false

namespace MeteredWasm.Wasm

open Leb128

inductive Section
  | custom (name : String) (contents : Bytes)
  | types (items : List TypeEntry)
  | imports (items : List Import)
  | functions (types : List UInt32)
  | tables (items : List Table)
  | memories (items : List MemoryType)
  | tags (types : List UInt32)
  | globals (items : List Global)
  | exports (items : List Export)
  | start (func : UInt32)
  | elements (items : List Element)
  | dataCount (count : UInt32)
  | code (bodies : List Body)
  | data (items : List Data)
  deriving DecidableEq

namespace Section

/-- The kind of a known section. -/
def kind? : Section → Option SectionKind
  | .custom _ _ => none
  | .types _ => some .types
  | .imports _ => some .imports
  | .functions _ => some .functions
  | .tables _ => some .tables
  | .memories _ => some .memories
  | .tags _ => some .tags
  | .globals _ => some .globals
  | .exports _ => some .exports
  | .start _ => some .start
  | .elements _ => some .elements
  | .dataCount _ => some .dataCount
  | .code _ => some .code
  | .data _ => some .data

def id (s : Section) : UInt8 := s.kind?.elim 0 SectionKind.id

/-! ## Reading -/

/-- Decodes bodies one by one. -/
def bodies? (dialect : Dialect) (contents : Bytes) : Option (List Body) := do
  let bodies ← Reader.whole readBodies contents
  bodies.mapM (Body.ofBytes? dialect)

/-- Decodes the contents of a known section, all of them. -/
def ofContents? (dialect : Dialect) (kind : SectionKind) (contents : Bytes) : Option Section :=
  let items {α : Type} (item : Reader α) : Option (List α) := Reader.whole (readVec item) contents
  match kind with
  | .types => (items TypeEntry.read).map .types
  | .imports => (items (Import.read dialect)).map .imports
  | .functions => (items readU32).map .functions
  | .tables => (items (Table.read dialect)).map .tables
  | .memories => (items (MemoryType.read dialect)).map .memories
  | .tags => (items readTagType).map .tags
  | .globals => (items (Global.read dialect)).map .globals
  | .exports => (items Export.read).map .exports
  | .start => (Reader.whole readU32 contents).map .start
  | .elements => (items (Element.read dialect)).map .elements
  | .dataCount => (Reader.whole readU32 contents).map .dataCount
  | .code => (bodies? dialect contents).map .code
  | .data => (items (Data.read dialect)).map .data

def ofRaw? (dialect : Dialect) : RawSection → Option Section
  | .custom name contents => some (.custom name contents)
  | .known kind contents => ofContents? dialect kind contents
  | .unknown _ => none

/-! ## Writing -/

/-- The contents of a section, without id and length. -/
def contents : Section → Bytes
  | .custom name contents => writeName name ++ contents
  | .types items => writeVec TypeEntry.write items
  | .imports items => writeVec Import.write items
  | .functions indices => writeVec writeU32 indices
  | .tables items => writeVec Table.write items
  | .memories items => writeVec MemoryType.write items
  | .tags indices => writeVec writeTagType indices
  | .globals items => writeVec Global.write items
  | .exports items => writeVec Export.write items
  | .start func => writeU32 func
  | .elements items => writeVec Element.write items
  | .dataCount count => writeU32 count
  | .code bodies => writeVec (fun body => writeBlob body.write) bodies
  | .data items => writeVec Data.write items

def write (s : Section) : Bytes := s.id :: writeBlob s.contents

end Section

structure Module where
  sections : List Section
  deriving DecidableEq

namespace Module

/-- Decodes a binary module. Custom sections are kept as they are. -/
def decode? (dialect : Dialect) (binary : Bytes) : Option Module :=
  match Outline.of? binary with
  | some ⟨.module, sections, true⟩ => (sections.mapM (Section.ofRaw? dialect)).map (⟨·⟩)
  | _ => none

def encode (m : Module) : Bytes := Header.module.bytes ++ m.sections.flatMap Section.write

end Module

end MeteredWasm.Wasm
