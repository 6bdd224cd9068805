import MeteredWasm.Wasm.Validation.Code

/-!
# Validity of modules

A module is valid if its binary form can be read, its types are those of the core language, every
index stands for something of the right type, and all code is well typed.
-/

set_option autoImplicit false

namespace MeteredWasm.Wasm.Validation

/-! ## Types of entities -/

/-- The greatest size, if any, is no less than the least, and neither exceeds `bound`. -/
def limitsOk (bound : Nat) (limits : Limits) : Bool :=
  limits.min.toNat ≤ bound &&
    limits.max.all fun max => max.toNat ≤ bound && limits.min.toNat ≤ max.toNat

def tableTypeOk (f : Features) (type : TableType) : Bool :=
  refTypeOk type.element && (!type.is64 || f.memory64) && !type.shared &&
    limitsOk (if type.is64 then UInt64.size - 1 else UInt32.size - 1) type.limits

/-- A table that is defined starts with at most this many entries. -/
def maxTableEntries : Nat := 10000000

def tableOk (f : Features) (t : Table) : Bool :=
  tableTypeOk f t.type && t.type.limits.min.toNat ≤ maxTableEntries && t.init.isNone

/-- There are at most this many tables, imported ones among them. -/
def maxTables : Nat := 100

/-- A shared memory has a greatest size. -/
def memoryTypeOk (f : Features) (type : MemoryType) : Bool :=
  (!type.is64 || f.memory64) && type.pageSizeLog.isNone &&
    limitsOk (if type.is64 then 0x1000000000000 else 65536) type.limits &&
    (!type.shared || type.limits.max.isSome)

def globalTypeOk (type : GlobalType) : Bool := valTypeOk type.content && !type.shared

def typeEntryOk (entry : TypeEntry) : Bool :=
  !entry.grouped && !entry.shared && entry.describes.isNone && entry.descriptor.isNone &&
    funcTypeOk entry.type

def importOk (c : Context) (i : Import) : Bool :=
  match i.type with
  | .func type | .funcPrecisely type => (c.type? type).isSome
  | .table type => tableTypeOk c.features type
  | .memory type => memoryTypeOk c.features type
  | .global type => globalTypeOk type
  | .tag _ => false

/-! ## Items -/

def elementType (e : Element) : RefType :=
  match e.items with
  | .functions _ => .funcref
  | .expressions type _ => type

def elementOk (c : Context) (e : Element) : Bool :=
  let itemsOk :=
    match e.items with
    | .functions indices => indices.all fun func => (c.func? func).isSome
    | .expressions type items => refTypeOk type && items.all (constOk c (.ref type))
  let modeOk :=
    match e.mode with
    | .active table offset =>
      (c.table? (table.getD 0)).any fun type =>
        type.element = elementType e && constOk c (indexType type.is64) offset
    | .passive | .declared => true
  itemsOk && modeOk

def dataOffsetOk (c : Context) (d : Data) : Bool :=
  match d.mode with
  | .active memory offset => (c.address? memory).any fun address => constOk c address offset
  | .passive => true

def exportOk (c : Context) (e : Export) : Bool :=
  match e.kind with
  | .func => (c.func? e.index).isSome
  | .table => (c.table? e.index).isSome
  | .memory => (c.memory? e.index).isSome
  | .global => (c.global? e.index).isSome
  | .tag => false

/-- Whether no name occurs twice. -/
def distinctNames (exports : List Export) : Bool :=
  (exports.foldl (fun (seen : List String × Bool) e =>
    (e.name :: seen.1, seen.2 && !seen.1.contains e.name)) ([], true)).2

/-- The functions that a constant expression refers to. -/
def constReferences (e : ConstExpr) : List UInt32 := e.filterMap Operator.func?

/-- The functions that code may take references to: those that exports, globals and element
segments mention. -/
def referencedFuncs (m : Module) : List UInt32 :=
  (m.exports.filterMap fun e => if e.kind = .func then some e.index else none) ++
  (m.globals.flatMap fun g => constReferences g.init) ++
  (m.elements.flatMap fun e =>
    match e.items with
    | .functions indices => indices
    | .expressions _ items => items.flatMap constReferences)

/-! ## Size

The imports and exports of a module add up to a type, whose size is bounded.
-/

/-- The size of a function type. -/
def funcTypeSize (type : FuncType) : Nat := 2 + type.params.length + type.results.length

/-- The size of what is imported or exported, given the type of a function; all else has size
one. -/
def externSize (func : Option FuncType) : Nat := func.elim 1 funcTypeSize

def importSize (c : Context) (i : Import) : Nat :=
  match i.type with
  | .func type | .funcPrecisely type => externSize (c.type? type)
  | _ => externSize none

def exportSize (c : Context) (e : Export) : Nat :=
  externSize (if e.kind = .func then c.func? e.index else none)

def moduleSize (c : Context) (m : Module) : Nat :=
  let imported := m.imports.foldl (fun size i => size + importSize c i) 1
  m.exports.foldl (fun size e => size + exportSize c e) imported

/-- Modules are smaller than this. -/
def moduleSizeBound : Nat := 1000000

/-- There are at most this many types, functions and globals each, imported ones among them. -/
def maxItems : Nat := 1000000

/-- There are at most this many element segments, and as many data segments. -/
def maxSegments : Nat := 100000

def countsOk (m : Module) : Bool :=
  m.types.length ≤ maxItems && m.funcTypes.length ≤ maxItems && m.globalTypes.length ≤ maxItems &&
    m.elements.length ≤ maxSegments && m.datas.length ≤ maxSegments

/-! ## Modules -/

/-- What the code of a module is checked against; `none` if a function has no type. -/
def Context.of? (features : Features) (m : Module) : Option Context := do
  let types := (m.types.map TypeEntry.type).toArray
  let funcs ← m.funcTypes.mapM fun type => types[type.toNat]?
  return {
    features
    types
    funcs := funcs.toArray
    tables := m.tableTypes.toArray
    memories := m.memoryTypes.toArray
    globals := m.globalTypes.toArray
    importedGlobals := m.importedGlobals.length
    elements := (m.elements.map elementType).toArray
    dataCount := m.dataCounts.head?.map UInt32.toNat
    references := referencedFuncs m }

/-- The types of the defined functions. -/
def Context.definedFuncs (c : Context) (m : Module) : List FuncType :=
  c.funcs.toList.drop m.importedFuncs.length

def startOk (c : Context) (func : UInt32) : Bool := c.func? func = some ⟨[], []⟩

/-- Whether there is a section of tags, even an empty one. -/
def hasTags (m : Module) : Bool := m.sections.any (·.kind? = some .tags)

/-- Everything but the code. -/
def declarationsOk (c : Context) (m : Module) : Bool :=
  countsOk m && m.types.all typeEntryOk && m.imports.all (importOk c) && !hasTags m &&
    m.tables.all (tableOk c.features) && m.tableTypes.length ≤ maxTables &&
    m.memories.all (memoryTypeOk c.features) && m.memoryTypes.length ≤ 1 && moduleSize c m < moduleSizeBound &&
    m.globals.all (fun g => globalTypeOk g.type && constOk c g.type.content g.init) &&
    m.exports.all (exportOk c) && distinctNames m.exports && m.starts.all (startOk c) &&
    m.elements.all (elementOk c) && m.datas.all (dataOffsetOk c)

def moduleOk (features : Features) (m : Module) : Bool :=
  match Context.of? features m with
  | none => false
  | some c =>
    declarationsOk c m &&
      ((c.definedFuncs m).zip m.bodies).all fun (type, body) => bodyOk c type body

/-- The module that a valid binary holds. -/
def validate? (features : Features) (binary : Bytes) : Option Module := do
  let m ← Module.decode? features.dialect binary
  if moduleOk features m then return m else none

end MeteredWasm.Wasm.Validation
