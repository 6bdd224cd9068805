import MeteredWasm.Proofs.Module.Row
import MeteredWasm.Wasm.Validation.Module

/-!
# What valid code names is declared

Every function that an operator of valid code refers to, and every type that it names by an index,
is one of the module (`Declares`, `codeOk_declares`). A valid module has fewer functions than a
word can count, so indices of functions can move up by one.
-/

set_option autoImplicit false

namespace MeteredWasm.Wasm

/-- The type that the operator names by its index. -/
def Operator.typeIndex? : Operator → Option UInt32
  | .block (.func index) | .loop (.func index) | .ifThen (.func index) => some index
  | .callIndirect type _ | .returnCallIndirect type _ => some type
  | _ => none

namespace Validation

/-- The functions and types that an operator names are declared. -/
structure Declares (c : Context) (op : Operator) : Prop where
  func : ∀ func ∈ op.func?, (c.func? func).isSome
  type : ∀ type ∈ op.typeIndex?, (c.type? type).isSome

section
variable {c : Context} {locals : Array ValType} {results : List ValType}

theorem blockType_declares {type : BlockType} {t : FuncType} (h : c.blockType? type = some t) :
    ∀ index, type = .func index → (c.type? index).isSome := by
  rintro index rfl
  simp only [Context.blockType?] at h
  simp [h]

theorem signature_declares {op : Operator} {s : Signature}
    (h : signature? c locals op = some s) : Declares c op := by
  unfold signature? at h
  cases op
  case call func =>
    simp only [Option.map_eq_some_iff] at h
    obtain ⟨type, ht, -⟩ := h
    exact ⟨by simp [Operator.func?, ht], by simp [Operator.typeIndex?]⟩
  case refFunc func =>
    simp only [given, Option.ite_none_right_eq_some, Bool.and_eq_true] at h
    exact ⟨by simp [Operator.func?, h.1.1], by simp [Operator.typeIndex?]⟩
  case callIndirect type table =>
    simp only [Option.bind_eq_bind, Option.bind_eq_some_iff] at h
    obtain ⟨t, ht, -⟩ := h
    exact ⟨by simp [Operator.func?], by simp [Operator.typeIndex?, ht]⟩
  case block | loop | ifThen | returnCall | returnCallIndirect => cases h
  all_goals exact ⟨by simp [Operator.func?], by simp [Operator.typeIndex?]⟩

theorem step_declares {op : Operator} {frames frames' : List Frame}
    (h : step? c locals results op frames = some frames') : Declares c op := by
  cases frames with
  | nil => simp [step?] at h
  | cons f outer =>
    unfold step? at h
    cases op
    case block type | loop type | ifThen type =>
      simp only [Option.bind_eq_bind, Option.bind_eq_some_iff] at h
      obtain ⟨t, ht, -⟩ := h
      refine ⟨by simp [Operator.func?], ?_⟩
      cases type with
      | func index => simpa [Operator.typeIndex?] using blockType_declares ht index rfl
      | empty => simp [Operator.typeIndex?]
      | value type => simp [Operator.typeIndex?]
    case returnCall func =>
      simp only [Option.bind_eq_bind, Option.bind_eq_some_iff] at h
      obtain ⟨t, ht, -⟩ := h
      exact ⟨by simp [Operator.func?, ht], by simp [Operator.typeIndex?]⟩
    case returnCallIndirect type table =>
      simp only [Option.bind_eq_bind, Option.bind_eq_some_iff] at h
      obtain ⟨t, ht, -⟩ := h
      exact ⟨by simp [Operator.func?], by simp [Operator.typeIndex?, ht]⟩
    case call | refFunc | callIndirect =>
      simp only [Option.bind_eq_bind, Option.bind_eq_some_iff] at h
      obtain ⟨s, hs, -⟩ := h
      exact signature_declares hs
    all_goals exact ⟨by simp [Operator.func?], by simp [Operator.typeIndex?]⟩

theorem codeOk_declares {ops : List Operator} {frames : List Frame}
    (h : codeOk c locals results ops frames = true) : ∀ op ∈ ops, Declares c op := by
  induction ops generalizing frames with
  | nil => simp
  | cons op ops ih =>
    rw [codeOk] at h
    split at h
    · rename_i frames' hstep
      intro op' hop
      rcases List.mem_cons.1 hop with rfl | hop
      · exact step_declares hstep
      · exact ih h op' hop
    · cases h

end

/-! ## Valid modules -/

section
variable {features : Features} {m : Module} {c : Context}

theorem context_of_moduleOk (h : moduleOk features m = true) :
    ∃ c, Context.of? features m = some c ∧ declarationsOk c m = true ∧
      ((c.definedFuncs m).zip m.bodies).all (fun (type, body) => bodyOk c type body) = true := by
  unfold moduleOk at h
  split at h
  · cases h
  · rename_i c hc
    rw [Bool.and_eq_true] at h
    exact ⟨c, hc, h.1, h.2⟩

/-- What the code of a module is checked against if its functions have these types. -/
def contextOf (features : Features) (m : Module) (funcs : List FuncType) : Context where
  features
  types := (m.types.map TypeEntry.type).toArray
  funcs := funcs.toArray
  tables := m.tableTypes.toArray
  memories := m.memoryTypes.toArray
  globals := m.globalTypes.toArray
  importedGlobals := m.importedGlobals.length
  elements := (m.elements.map elementType).toArray
  dataCount := m.dataCounts.head?.map UInt32.toNat
  references := referencedFuncs m

theorem context_eq_some_iff : Context.of? features m = some c ↔
    ∃ funcs, m.funcTypes.mapM (fun index => (m.types.map TypeEntry.type)[index.toNat]?) =
      some funcs ∧ contextOf features m funcs = c := by
  simp only [Context.of?, List.getElem?_toArray, Option.bind_eq_bind, Option.bind_eq_some_iff,
    Option.pure_def, Option.some.injEq]
  rfl

theorem sizes_of_context (h : Context.of? features m = some c) :
    c.funcs.size = m.funcTypes.length ∧ c.types.size = m.types.length := by
  obtain ⟨funcs, hfuncs, rfl⟩ := context_eq_some_iff.1 h
  exact ⟨length_of_mapM hfuncs, List.length_map _⟩

theorem memories_of_context (h : Context.of? features m = some c) :
    c.memories = m.memoryTypes.toArray := by
  obtain ⟨funcs, -, rfl⟩ := context_eq_some_iff.1 h
  rfl

theorem tables_of_context (h : Context.of? features m = some c) :
    c.tables = m.tableTypes.toArray := by
  obtain ⟨funcs, -, rfl⟩ := context_eq_some_iff.1 h
  rfl

/-- What constant expressions are checked against. -/
theorem const_of_context (h : Context.of? features m = some c) :
    c.features = features ∧ c.importedGlobals = m.importedGlobals.length := by
  obtain ⟨funcs, -, rfl⟩ := context_eq_some_iff.1 h
  exact ⟨rfl, rfl⟩

/-- What the declarations of a valid module fulfil, one by one. -/
structure Declarations (c : Context) (m : Module) : Prop where
  counts : countsOk m = true
  types : m.types.all typeEntryOk = true
  imports : m.imports.all (importOk c) = true
  untagged : hasTags m = false
  tables : m.tables.all (tableOk c.features) = true
  tableCount : m.tableTypes.length ≤ maxTables
  memories : m.memories.all (memoryTypeOk c.features) = true
  memoryCount : m.memoryTypes.length ≤ 1
  size : moduleSize c m < moduleSizeBound
  globals : m.globals.all (fun g => globalTypeOk g.type && constOk c g.type.content g.init) = true
  exports : m.exports.all (exportOk c) = true
  distinct : distinctNames m.exports = true
  starts : m.starts.all (startOk c) = true
  elements : m.elements.all (elementOk c) = true
  datas : m.datas.all (dataOffsetOk c) = true

theorem declarations_of_ok (h : declarationsOk c m = true) : Declarations c m := by
  simp only [declarationsOk, Bool.and_eq_true, decide_eq_true_eq, Bool.not_eq_eq_eq_not,
    Bool.not_true] at h
  obtain ⟨⟨⟨⟨⟨⟨⟨⟨⟨⟨⟨⟨⟨⟨counts, types⟩, imports⟩, untagged⟩, tables⟩, tableCount⟩, memories⟩, memoryCount⟩,
    size⟩, globals⟩, exports⟩, distinct⟩, starts⟩, elements⟩, datas⟩ := h
  exact ⟨counts, types, imports, untagged, tables, tableCount, memories, memoryCount, size, globals,
    exports, distinct, starts, elements, datas⟩

theorem Declarations.ok (h : Declarations c m) : declarationsOk c m = true := by
  simp only [declarationsOk, h.counts, h.types, h.imports, h.untagged, h.tables, h.tableCount,
    h.memories, h.memoryCount, h.size, h.globals, h.exports, h.distinct, h.starts, h.elements,
    h.datas, decide_true, Bool.not_false, Bool.and_self]

/-- Without the extension every table and every memory counts in 32 bits, imported or not. -/
theorem Declarations.narrow (h : Declarations c m) (hnarrow : c.features.memory64 = false) :
    (∀ type ∈ m.tableTypes, type.is64 = false) ∧ ∀ type ∈ m.memoryTypes, type.is64 = false := by
  have htable {type : TableType} (hok : tableTypeOk c.features type = true) : type.is64 = false := by
    simp only [tableTypeOk, hnarrow, Bool.or_false, Bool.and_eq_true, Bool.not_eq_true'] at hok
    exact hok.1.1.2
  have hmemory {type : MemoryType} (hok : memoryTypeOk c.features type = true) :
      type.is64 = false := by
    simp only [memoryTypeOk, hnarrow, Bool.or_false, Bool.and_eq_true, Bool.not_eq_true'] at hok
    exact hok.1.1.1
  have himport := List.all_eq_true.1 h.imports
  refine ⟨fun type hmem => ?_, fun type hmem => ?_⟩
  · rcases List.mem_append.1 hmem with hmem | hmem
    · obtain ⟨i, hi, htype⟩ := List.mem_filterMap.1 hmem
      have hok := himport i hi
      cases hkind : i.type <;> simp only [hkind, reduceCtorEq, Option.some.injEq] at htype
      subst htype
      simp only [importOk, hkind] at hok
      exact htable hok
    · obtain ⟨t, ht, rfl⟩ := List.mem_map.1 hmem
      have hok := List.all_eq_true.1 h.tables t ht
      simp only [tableOk, Bool.and_eq_true] at hok
      exact htable hok.1.1
  · rcases List.mem_append.1 hmem with hmem | hmem
    · obtain ⟨i, hi, htype⟩ := List.mem_filterMap.1 hmem
      have hok := himport i hi
      cases hkind : i.type <;> simp only [hkind, reduceCtorEq, Option.some.injEq] at htype
      subst htype
      simp only [importOk, hkind] at hok
      exact hmemory hok
    · exact hmemory (List.all_eq_true.1 h.memories type hmem)

theorem moduleOk_of_declarations (hc : Context.of? features m = some c) (hd : Declarations c m)
    (hb : ∀ p ∈ (c.definedFuncs m).zip m.bodies, bodyOk c p.1 p.2 = true) :
    moduleOk features m = true := by
  simp only [moduleOk, hc, hd.ok, Bool.true_and]
  exact List.all_eq_true.2 hb

theorem Declarations.lengths (h : Declarations c m) :
    m.types.length ≤ maxItems ∧ m.funcTypes.length ≤ maxItems := by
  have hcounts := h.counts
  simp only [countsOk, Bool.and_eq_true, decide_eq_true_eq] at hcounts
  exact ⟨hcounts.1.1.1.1, hcounts.1.1.1.2⟩

/-- Every body of a valid module has been checked. -/
theorem bodyOk_of_mem (hc : Context.of? features m = some c)
    (hb : ((c.definedFuncs m).zip m.bodies).all (fun (type, body) => bodyOk c type body) = true)
    (hl : m.bodies.length = m.functions.length) {body : Body} (h : body ∈ m.bodies) :
    ∃ type, bodyOk c type body = true := by
  obtain ⟨k, hk, rfl⟩ := List.getElem_of_mem h
  have hsize := (sizes_of_context hc).1
  have hdefined : k < (c.definedFuncs m).length := by
    simp only [Context.definedFuncs, List.length_drop, Array.length_toList, hsize,
      Module.funcTypes, List.length_append]
    omega
  have hmem : ((c.definedFuncs m)[k], m.bodies[k]) ∈ (c.definedFuncs m).zip m.bodies := by
    rw [List.mem_iff_getElem]
    exact ⟨k, by simp only [List.length_zip]; omega, by simp⟩
  exact ⟨_, List.all_eq_true.1 hb _ hmem⟩

theorem bodyOk_declares {type : FuncType} {body : Body} (h : bodyOk c type body = true) :
    ∀ op ∈ body.code, Declares c op := by
  simp only [bodyOk, Bool.and_eq_true] at h
  exact codeOk_declares h.2

theorem validate_eq_some {binary : Bytes} (h : validate? features binary = some m) :
    Module.decode? features.dialect binary = some m ∧ moduleOk features m = true := by
  simp only [validate?, Option.bind_eq_bind, Option.bind_eq_some_iff] at h
  obtain ⟨m', hd, hm⟩ := h
  split at hm
  · cases hm
    exact ⟨hd, ‹_›⟩
  · cases hm

theorem declarations_of_validate {binary : Bytes} (h : validate? features binary = some m) :
    ∃ c, Context.of? features m = some c ∧ Declarations c m := by
  obtain ⟨c, hc, hd, -⟩ := context_of_moduleOk (validate_eq_some h).2
  exact ⟨c, hc, declarations_of_ok hd⟩

end

end Validation

end MeteredWasm.Wasm
