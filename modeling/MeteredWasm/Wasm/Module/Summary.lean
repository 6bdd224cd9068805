import MeteredWasm.Sandbox.Pages
import MeteredWasm.Wasm.Module.Basic

/-!
# Summaries

What can be told of a module without decoding its code: types, imports and functions, exports,
memories, the start function, and where its data goes. Tables, globals, elements and tags are only
counted and bodies only measured, so a summary can exist where the module cannot be decoded. No
index is checked.

Sections are taken in order, and the first fault decides: a section of no known kind, or anything
that cannot be read.
-/

set_option autoImplicit false

namespace MeteredWasm.Wasm

/-- An imported function. -/
structure FunctionImport where
  module : String
  name : String
  type : UInt32
  deriving Repr, DecidableEq

/-- An active data segment whose offset is a constant. -/
structure DataRange where
  offset : UInt32
  length : UInt32
  deriving Repr, DecidableEq

structure Summary where
  types : List FuncType
  functionImports : List FunctionImport
  /-- Type index of every function, imported ones first. -/
  functions : List UInt32
  /-- At most one export of each name: the last one. -/
  exports : List Export
  memories : List MemoryInfo
  /-- Whether any memory has 64-bit addresses. -/
  memory64 : Bool
  data : List DataRange
  start : Option UInt32
  deriving Repr, DecidableEq

/-- Why a module has no summary. -/
inductive SummaryError
  | malformed
  | unknownSection (id : UInt8)
  deriving Repr, DecidableEq

namespace Summary

def empty : Summary := ⟨[], [], [], [], [], false, [], none⟩

/-- The export of this name. -/
def export? (s : Summary) (name : String) : Option Export := s.exports.find? (·.name = name)

/-- The type of a function. -/
def functionType? (s : Summary) (func : UInt32) : Option FuncType := do
  let type ← s.functions[func.toNat]?
  s.types[type.toNat]?

def hookIndex (s : Summary) : UInt32 := s.functionImports.length.toUInt32

/-! ## Adding items -/

def addMemory (s : Summary) (type : MemoryType) (isImported : Bool) : Summary :=
  { s with
    memories := s.memories ++ [⟨type.limits, type.shared, isImported⟩]
    memory64 := s.memory64 || type.is64 }

def addImport (s : Summary) (i : Import) : Summary :=
  match i.type with
  | .func type | .funcPrecisely type =>
    { s with
      functionImports := s.functionImports ++ [⟨i.module, i.name, type⟩]
      functions := s.functions ++ [type] }
  | .memory type => s.addMemory type true
  | _ => s

def addExport (s : Summary) (e : Export) : Summary :=
  { s with exports := s.exports.filter (·.name ≠ e.name) ++ [e] }

/-- Where a segment goes, if that is a constant. -/
def DataRange.of? (d : Data) : Option DataRange :=
  match d.mode with
  | .active _ (.i32Const offset :: _) => some ⟨offset, d.bytes.length.toUInt32⟩
  | _ => none

/-- Adds what a section says; sections without a part in the summary say nothing. -/
def addSection (s : Summary) : Section → Summary
  | .types items => { s with types := s.types ++ items.map TypeEntry.type }
  | .imports items => items.foldl addImport s
  | .functions types => { s with functions := s.functions ++ types }
  | .memories items => items.foldl (fun s type => s.addMemory type false) s
  | .exports items => items.foldl addExport s
  | .data items => { s with data := s.data ++ items.filterMap DataRange.of? }
  | .start func => { s with start := some func }
  | _ => s

/-! ## Reading -/

/-- Whether a section's items take part in the summary. -/
def summarizes : SectionKind → Bool
  | .types | .imports | .functions | .memories | .exports | .start | .data => true
  | .tables | .tags | .globals | .elements | .dataCount | .code => false

/-- Goes past one section. -/
def addRaw (s : Summary) : RawSection → Except SummaryError Summary
  | .custom _ _ => .ok s
  | .unknown id => .error (.unknownSection id)
  | .known kind contents =>
    if summarizes kind then
      match Section.ofContents? .full kind contents with
      | some sec => .ok (s.addSection sec)
      | none => .error .malformed
    else .ok s

/-- The summary of a binary. -/
def of (binary : Bytes) : Except SummaryError Summary :=
  match Outline.of? binary with
  | none => .error .malformed
  | some outline => do
    let s ← outline.sections.foldlM addRaw empty
    if outline.complete then return s else .error .malformed

end Summary

end MeteredWasm.Wasm
