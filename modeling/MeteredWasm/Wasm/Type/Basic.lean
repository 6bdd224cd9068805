/-!
# WebAssembly types

Value types, function types, and the types of tables, memories, globals and tags, with their text
form. References of every proposal can be written down; which of them a module may use is the
validator's business.
-/

set_option autoImplicit false

namespace MeteredWasm.Wasm

/-! ## Value types -/

/-- The predefined heap types. -/
inductive AbstractHeap
  | func | external | any | bottom | noExternal | noFunc | eq | struct | array | i31
  | exn | noExn | cont | noCont
  deriving Repr, DecidableEq, Inhabited

/-- What a reference points to. -/
inductive HeapType
  | abstract (shared : Bool) (kind : AbstractHeap)
  /-- A defined type or a subtype of it. -/
  | concrete (index : UInt32)
  /-- A defined type and none of its subtypes. -/
  | precisely (index : UInt32)
  deriving Repr, DecidableEq, Inhabited

structure RefType where
  nullable : Bool
  heap : HeapType
  deriving Repr, DecidableEq, Inhabited

inductive ValType
  | i32 | i64 | f32 | f64 | v128
  | ref (type : RefType)
  deriving Repr, DecidableEq, Inhabited

def RefType.funcref : RefType := ⟨true, .abstract false .func⟩

def RefType.externref : RefType := ⟨true, .abstract false .external⟩

def ValType.funcref : ValType := .ref .funcref

def ValType.externref : ValType := .ref .externref

/-- Numbers and vectors: everything that is not a reference. -/
def ValType.isNumeric : ValType → Bool
  | .ref _ => false
  | _ => true

structure FuncType where
  params : List ValType
  results : List ValType
  deriving Repr, DecidableEq, Inhabited

/-! ## Entities -/

/-- A least size and, if there is one, a greatest size. -/
structure Limits where
  min : UInt64
  max : Option UInt64
  deriving Repr, DecidableEq, Inhabited

structure TableType where
  element : RefType
  limits : Limits
  is64 : Bool
  shared : Bool
  deriving Repr, DecidableEq, Inhabited

structure MemoryType where
  limits : Limits
  is64 : Bool
  shared : Bool
  /-- Binary logarithm of the page size, where it is not the standard one. -/
  pageSizeLog : Option UInt32
  deriving Repr, DecidableEq, Inhabited

structure GlobalType where
  content : ValType
  isMutable : Bool
  shared : Bool
  deriving Repr, DecidableEq, Inhabited

/-- The kinds of things that are imported and exported. -/
inductive ExternKind
  | func | table | memory | global | tag
  deriving Repr, DecidableEq, Inhabited

def ExternKind.name : ExternKind → String
  | .func => "func"
  | .table => "table"
  | .memory => "memory"
  | .global => "global"
  | .tag => "tag"

/-! ## Text form -/

def AbstractHeap.all : List AbstractHeap :=
  [.func, .external, .any, .bottom, .noExternal, .noFunc, .eq, .struct, .array, .i31, .exn, .noExn,
    .cont, .noCont]

def AbstractHeap.name : AbstractHeap → String
  | .func => "func"
  | .external => "extern"
  | .any => "any"
  | .bottom => "none"
  | .noExternal => "noextern"
  | .noFunc => "nofunc"
  | .eq => "eq"
  | .struct => "struct"
  | .array => "array"
  | .i31 => "i31"
  | .exn => "exn"
  | .noExn => "noexn"
  | .cont => "cont"
  | .noCont => "nocont"

/-- The one-word name of a nullable reference. -/
def AbstractHeap.refName : AbstractHeap → String
  | .bottom => "nullref"
  | .noExternal => "nullexternref"
  | .noFunc => "nullfuncref"
  | .noExn => "nullexnref"
  | .noCont => "nullcontref"
  | kind => kind.name ++ "ref"

/-- The heap type of this name. -/
def AbstractHeap.ofName? (name : String) : Option AbstractHeap := all.find? (·.name = name)

/-- The heap type that a reference of this name points to. -/
def AbstractHeap.ofRefName? (name : String) : Option AbstractHeap := all.find? (·.refName = name)

theorem AbstractHeap.ofName?_name (kind : AbstractHeap) : ofName? kind.name = some kind := by
  cases kind <;> decide

theorem AbstractHeap.ofRefName?_refName (kind : AbstractHeap) :
    ofRefName? kind.refName = some kind := by
  cases kind <;> decide

def HeapType.text : HeapType → String
  | .abstract false kind => kind.name
  | .abstract true kind => "(shared " ++ kind.name ++ ")"
  | .concrete index => "(module " ++ toString index.toNat ++ ")"
  | .precisely index => "(exact (module " ++ toString index.toNat ++ "))"

/-- The full form of a reference type, without abbreviations. -/
def RefType.longText (type : RefType) : String :=
  (if type.nullable then "(ref null " else "(ref ") ++ type.heap.text ++ ")"

/-- The text of a reference type, nullable predefined ones abbreviated. -/
def RefType.text (type : RefType) : String :=
  match type.nullable, type.heap with
  | true, .abstract false kind => kind.refName
  | true, .abstract true kind => "(shared " ++ kind.refName ++ ")"
  | _, _ => type.longText

def ValType.text : ValType → String
  | .i32 => "i32"
  | .i64 => "i64"
  | .f32 => "f32"
  | .f64 => "f64"
  | .v128 => "v128"
  | .ref type => type.text

/-- Like `ValType.text`, with reference types in full. -/
def ValType.longText : ValType → String
  | .ref type => type.longText
  | type => type.text

end MeteredWasm.Wasm
