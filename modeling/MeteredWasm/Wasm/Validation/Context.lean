import MeteredWasm.Wasm.Module.Spaces

/-!
# What code is checked against

The types that the indices of an operator stand for, as far as a module declares them.
-/

set_option autoImplicit false

namespace MeteredWasm.Wasm.Validation

/-- Extensions that may be used beside the core of the language. -/
structure Features where
  /-- How binaries are read. -/
  dialect : Dialect
  tailCalls : Bool
  /-- Addition, subtraction and multiplication in constant expressions. -/
  extendedConst : Bool
  /-- Memories and tables that count in 64 bits. -/
  memory64 : Bool
  /-- Vector operators whose results are up to the hardware. -/
  relaxedVectors : Bool

/-- What may be instrumented. -/
def Features.sandbox : Features := ⟨.core, false, false, false, false⟩

/-- What may be run. -/
def Features.engine : Features := ⟨.full, true, true, true, true⟩

structure Context where
  features : Features
  types : Array FuncType
  /-- The type of every function. -/
  funcs : Array FuncType
  tables : Array TableType
  memories : Array MemoryType
  globals : Array GlobalType
  importedGlobals : Nat
  elements : Array RefType
  dataCount : Option Nat
  /-- Functions that code may take references to. -/
  references : List UInt32

/-- What a memory or a table counts in. -/
def indexType (is64 : Bool) : ValType := if is64 then .i64 else .i32

namespace Context

variable (c : Context)

def type? (index : UInt32) : Option FuncType := c.types[index.toNat]?

def func? (index : UInt32) : Option FuncType := c.funcs[index.toNat]?

def table? (index : UInt32) : Option TableType := c.tables[index.toNat]?

def memory? (index : UInt32) : Option MemoryType := c.memories[index.toNat]?

def global? (index : UInt32) : Option GlobalType := c.globals[index.toNat]?

def element? (index : UInt32) : Option RefType := c.elements[index.toNat]?

/-- The type of addresses in a memory. -/
def address? (memory : UInt32) : Option ValType :=
  (c.memory? memory).map fun type => indexType type.is64

end Context

/-! ## Types that may be used -/

/-- References are to functions or to the host, and nullable. -/
def refTypeOk (type : RefType) : Bool := type = .funcref || type = .externref

def valTypeOk : ValType → Bool
  | .ref type => refTypeOk type
  | _ => true

def funcTypeOk (type : FuncType) : Bool := type.params.all valTypeOk && type.results.all valTypeOk

/-- The parameters and results of a block. -/
def Context.blockType? (c : Context) : BlockType → Option FuncType
  | .empty => some ⟨[], []⟩
  | .value type => if valTypeOk type then some ⟨[], [type]⟩ else none
  | .func index => c.type? index

end MeteredWasm.Wasm.Validation
