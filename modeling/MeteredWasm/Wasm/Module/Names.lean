import MeteredWasm.Wasm.Module.Basic

/-!
# The name section

The custom section `name` gives names to a module and its parts, in subsections. Names of labels
and tags, and subsections of other kinds, are passed over: their contents are not read beyond the
count they start with.
-/

set_option autoImplicit false

namespace MeteredWasm.Wasm

open Leb128

/-- Names by index. -/
abbrev NameMap := List (UInt32 × String)

/-- Names by two indices, such as function and local. -/
abbrev IndirectNameMap := List (UInt32 × NameMap)

/-- The index spaces with names of their own, functions apart. -/
inductive NameSpace
  | types | tables | memories | globals | elements | data
  deriving Repr, DecidableEq

inductive NameSubsection
  | module (name : String)
  | functions (names : NameMap)
  /-- Names of locals, by function. -/
  | locals (names : IndirectNameMap)
  | space (space : NameSpace) (names : NameMap)
  /-- Names of fields, by type. -/
  | fields (names : IndirectNameMap)
  | skipped (id : UInt8)
  deriving DecidableEq

namespace NameSpace

def id : NameSpace → UInt8
  | .types => 4
  | .tables => 5
  | .memories => 6
  | .globals => 7
  | .elements => 8
  | .data => 9

def ofId? : UInt8 → Option NameSpace
  | 4 => some .types
  | 5 => some .tables
  | 6 => some .memories
  | 7 => some .globals
  | 8 => some .elements
  | 9 => some .data
  | _ => none

end NameSpace

/-- A map whose names are read by `name`. -/
def NameMap.read (name : Reader String) : Reader NameMap := readVec do
  let index ← readU32
  return (index, ← name)

def NameMap.write (names : NameMap) : Bytes :=
  writeVec (fun (index, name) => writeU32 index ++ writeName name) names

def IndirectNameMap.read : Reader IndirectNameMap := readVec do
  let index ← readU32
  return (index, ← NameMap.read readName)

def IndirectNameMap.write (names : IndirectNameMap) : Bytes :=
  writeVec (fun (index, names) => writeU32 index ++ NameMap.write names) names

namespace NameSubsection

/-- Decodes the contents of the subsection with this id. Only names in indirect maps have a limit on
their length. -/
def ofContents? (id : UInt8) (contents : Bytes) : Option NameSubsection :=
  match id with
  | 0 => (Reader.whole readText contents).map .module
  | 1 => (Reader.whole (NameMap.read readText) contents).map .functions
  | 2 => (Reader.whole IndirectNameMap.read contents).map .locals
  | 10 => (Reader.whole IndirectNameMap.read contents).map .fields
  | 3 | 11 => ((readUnsigned 32).run contents).map fun _ => .skipped id
  | _ =>
    match NameSpace.ofId? id with
    | some which => (Reader.whole (NameMap.read readText) contents).map (.space which)
    | none => some (.skipped id)

def read : Reader NameSubsection := do
  let (id, contents) ← readFrame
  Reader.ofOption (ofContents? id contents)

/-- The subsections that the contents of a name section hold. -/
def all? (contents : Bytes) : Option (List NameSubsection) := Reader.many read contents

/-- A subsection with its id and length; nothing for one that was passed over. -/
def write (s : NameSubsection) : Bytes :=
  let framed (id : UInt8) (contents : Bytes) : Bytes := id :: writeBlob contents
  match s with
  | .module name => framed 0 (writeName name)
  | .functions names => framed 1 names.write
  | .locals names => framed 2 names.write
  | .space which names => framed which.id names.write
  | .fields names => framed 10 names.write
  | .skipped _ => []

/-- Replaces every function index. -/
def mapFunc (f : UInt32 → UInt32) : NameSubsection → NameSubsection
  | .functions names => .functions (names.map fun (func, name) => (f func, name))
  | .locals names => .locals (names.map fun (func, inner) => (f func, inner))
  | s => s

end NameSubsection

end MeteredWasm.Wasm
