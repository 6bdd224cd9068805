import MeteredWasm.Proofs.Validation.Declared
import MeteredWasm.Wasm.Module.MapFunc

/-!
# Valid code under other names

Where a context has every function of another one under a new index, has whatever else that one has
at the same index, and allows all that it allows (`Renames`), all that is valid in that one is valid
in this one once its functions are renamed: operator by operator (`Renames.step`), code
(`Renames.code_ok`), constant expressions (`Renames.const_ok`), and the items that they stand in.
-/

set_option autoImplicit false

namespace MeteredWasm.Wasm.Validation

/-- Extensions that are used by the one are used by the other. -/
structure Features.Within (features features' : Features) : Prop where
  tailCalls : features.tailCalls = true → features'.tailCalls = true
  extendedConst : features.extendedConst = true → features'.extendedConst = true
  memory64 : features.memory64 = true → features'.memory64 = true
  relaxedVectors : features.relaxedVectors = true → features'.relaxedVectors = true

theorem Features.Within.refl (features : Features) : features.Within features := ⟨id, id, id, id⟩

/-- The functions of `c` are functions of `c'` under the indices that `f` gives them; the types of
`c` are types of `c'`, and all else is the same. -/
structure Renames (f : UInt32 → UInt32) (c c' : Context) : Prop where
  features : c.features.Within c'.features
  type : ∀ index type, c.type? index = some type → c'.type? index = some type
  func : ∀ func type, c.func? func = some type → c'.func? (f func) = some type
  tables : c'.tables = c.tables
  memories : c'.memories = c.memories
  globals : c'.globals = c.globals
  importedGlobals : c'.importedGlobals = c.importedGlobals
  elements : c'.elements = c.elements
  dataCount : c'.dataCount = c.dataCount
  references : ∀ func ∈ c.references, f func ∈ c'.references

namespace Renames

variable {f : UInt32 → UInt32} {c c' : Context} (h : Renames f c c')
include h

/-! ## What indices stand for -/

theorem table (index : UInt32) : c'.table? index = c.table? index := by
  rw [Context.table?, Context.table?, h.tables]

theorem memory (index : UInt32) : c'.memory? index = c.memory? index := by
  rw [Context.memory?, Context.memory?, h.memories]

theorem address (memory : UInt32) : c'.address? memory = c.address? memory := by
  rw [Context.address?, Context.address?, h.memory]

theorem global (index : UInt32) : c'.global? index = c.global? index := by
  rw [Context.global?, Context.global?, h.globals]

theorem element (index : UInt32) : c'.element? index = c.element? index := by
  rw [Context.element?, Context.element?, h.elements]

theorem isSome_func {func : UInt32} (hfunc : (c.func? func).isSome) :
    (c'.func? (f func)).isSome := by
  obtain ⟨type, htype⟩ := Option.isSome_iff_exists.1 hfunc
  rw [h.func func type htype]
  rfl

theorem blockType {type : BlockType} {t : FuncType} (ht : c.blockType? type = some t) :
    c'.blockType? type = some t := by
  cases type with
  | empty => exact ht
  | value type => exact ht
  | func index => exact h.type index t ht

theorem offset_ok (arg : MemArg) : offsetOk c' arg = offsetOk c arg := by
  rw [offsetOk, h.memory, offsetOk]

theorem access_ok (arg : MemArg) (align : Nat) :
    accessOk c' arg align = accessOk c arg align := by
  rw [accessOk, h.offset_ok, accessOk]

theorem atomic_ok (arg : MemArg) (align : Nat) :
    atomicOk c' arg align = atomicOk c arg align := by
  rw [atomicOk, h.offset_ok, atomicOk]

theorem segment_ok (segment : UInt32) : dataOk c' segment = dataOk c segment := by
  rw [dataOk, h.dataCount, dataOk]

/-! ## Code -/

theorem signature {locals : Array ValType} {op : Operator} {s : Signature}
    (hs : signature? c locals op = some s) : signature? c' locals (op.mapFunc f) = some s := by
  cases op
  case call func =>
    obtain ⟨type, htype, rfl⟩ := Option.map_eq_some_iff.1 hs
    exact Option.map_eq_some_iff.2 ⟨type, h.func func type htype, rfl⟩
  case callIndirect index table =>
    simp only [signature?, Option.bind_eq_bind, Option.bind_eq_some_iff] at hs
    obtain ⟨type, htype, hs⟩ := hs
    simp only [Operator.mapFunc, signature?, h.type index type htype, h.table, Option.bind_eq_bind,
      Option.bind_some, Option.bind_eq_some_iff]
    exact hs
  case refFunc func =>
    simp only [signature?, given, Option.ite_none_right_eq_some, Bool.and_eq_true,
      List.contains_iff_mem] at hs
    obtain ⟨⟨hfunc, hmem⟩, hs⟩ := hs
    simpa [Operator.mapFunc, signature?, given, h.isSome_func hfunc, h.references func hmem] using hs
  case proposal p =>
    simp only [signature?, given, Option.bind_eq_bind, Option.bind_eq_some_iff,
      Option.ite_none_right_eq_some] at hs
    obtain ⟨arity, harity, hrelaxed, hs⟩ := hs
    simpa [Operator.mapFunc, signature?, given, harity, h.features.relaxedVectors hrelaxed] using hs
  all_goals
    simp only [signature?] at hs
    simp only [Operator.mapFunc, signature?, h.table, h.address, h.global, h.element, h.access_ok,
      h.atomic_ok, h.segment_ok, hs]

theorem step {locals : Array ValType} {results : List ValType} {op : Operator}
    {frames frames' : List Frame} (hs : step? c locals results op frames = some frames') :
    step? c' locals results (op.mapFunc f) frames = some frames' := by
  cases frames with
  | nil => cases hs
  | cons g outer =>
    cases op
    case block type | loop type | ifThen type =>
      simp only [step?, Option.bind_eq_bind, Option.bind_eq_some_iff] at hs
      obtain ⟨t, ht, hs⟩ := hs
      simp only [Operator.mapFunc, step?, h.blockType ht, Option.bind_eq_bind, Option.bind_some,
        Option.bind_eq_some_iff]
      exact hs
    case returnCall func =>
      simp only [step?, Option.bind_eq_bind, Option.bind_eq_some_iff] at hs
      obtain ⟨t, ht, hs⟩ := hs
      have htail : c.features.tailCalls = true :=
        Decidable.byContradiction fun hno => by simp [hno] at hs
      rw [htail] at hs
      simp only [Operator.mapFunc, step?, h.func func t ht, h.features.tailCalls htail,
        Option.bind_eq_bind, Option.bind_some]
      exact hs
    case returnCallIndirect index table =>
      simp only [step?, Option.bind_eq_bind, Option.bind_eq_some_iff] at hs
      obtain ⟨t, ht, tableType, htable, hs⟩ := hs
      have htail : c.features.tailCalls = true :=
        Decidable.byContradiction fun hno => by simp [hno] at hs
      rw [htail] at hs
      simp only [Operator.mapFunc, step?, h.type index t ht, h.table, htable,
        h.features.tailCalls htail, Option.bind_eq_bind, Option.bind_some]
      exact hs
    case unreachable | elseMark | endMark | ret | drop | select | refIsNull | br | brIf | brTable
        | selectTyped => exact hs
    all_goals
      simp only [step?, Option.bind_eq_bind, Option.bind_eq_some_iff] at hs
      obtain ⟨s, hsignature, hs⟩ := hs
      have hrenamed := h.signature hsignature
      simp only [Operator.mapFunc] at hrenamed
      simp only [Operator.mapFunc, step?, hrenamed, Option.bind_eq_bind, Option.bind_some,
        Option.bind_eq_some_iff]
      exact hs

theorem code_ok {locals : Array ValType} {results : List ValType} {ops : List Operator}
    {frames : List Frame} (hops : codeOk c locals results ops frames = true) :
    codeOk c' locals results (ops.map (Operator.mapFunc f)) frames = true := by
  induction ops generalizing frames with
  | nil => exact hops
  | cons op ops ih =>
    rw [codeOk] at hops
    split at hops
    · rename_i frames' hstep
      rw [List.map_cons, codeOk, h.step hstep]
      exact ih hops
    · cases hops

/-! ## Constant expressions -/

/-- The functions that code may refer to matter to `ref.func` only. -/
theorem withReferences (references : List UInt32) :
    Renames f { c with references } { c' with references := references.map f } :=
  { h with references := fun _ => List.mem_map_of_mem }

theorem const_operator {op : Operator} (hop : constOperator c op = true) :
    constOperator c' (op.mapFunc f) = true := by
  cases op
  case refFunc func => exact h.isSome_func hop
  case globalGet index =>
    simp only [constOperator] at hop
    simp only [Operator.mapFunc, constOperator, h.importedGlobals, h.global, hop]
  case numeric op =>
    cases op
    case intBinary width op =>
      simp only [constOperator, Bool.and_eq_true] at hop
      simp only [Operator.mapFunc, constOperator, h.features.extendedConst hop.1, hop.2,
        Bool.and_self]
    all_goals exact hop
  all_goals exact hop

theorem const_ok {type : ValType} {e : ConstExpr} (he : constOk c type e = true) :
    constOk c' type (ConstExpr.mapFunc f e) = true := by
  rw [constOk, Bool.and_eq_true] at he ⊢
  obtain ⟨hconst, hcode⟩ := he
  refine ⟨List.all_eq_true.2 fun op' hop' => ?_, ?_⟩
  · obtain ⟨op, hop, rfl⟩ := List.mem_map.1 hop'
    exact h.const_operator (List.all_eq_true.1 hconst op hop)
  · have hrefs {refer : Operator → Option UInt32}
        (hrefer : ∀ op, refer (op.mapFunc f) = (refer op).map f) :
        (ConstExpr.mapFunc f e).filterMap refer = (e.filterMap refer).map f := by
      rw [ConstExpr.mapFunc, List.filterMap_map, List.map_filterMap]
      exact congrArg (List.filterMap · e) (funext hrefer)
    have hrenamed := (h.withReferences _).code_ok hcode
    rw [List.map_append] at hrenamed
    rw [hrefs fun op => by cases op <;> rfl]
    exact hrenamed

/-! ## Items -/

theorem element_ok {e : Element} (he : elementOk c e = true) : elementOk c' (e.mapFunc f) = true := by
  obtain ⟨mode, items⟩ := e
  have htype : elementType ((⟨mode, items⟩ : Element).mapFunc f) = elementType ⟨mode, items⟩ := by
    cases items <;> rfl
  simp only [elementOk, Bool.and_eq_true] at he ⊢
  refine ⟨?_, ?_⟩
  · cases items with
    | functions indices =>
      refine List.all_eq_true.2 fun func' hfunc' => ?_
      obtain ⟨func, hfunc, rfl⟩ := List.mem_map.1 hfunc'
      exact h.isSome_func (List.all_eq_true.1 he.1 func hfunc)
    | expressions type items =>
      simp only [Bool.and_eq_true] at he
      simp only [Element.mapFunc, ElementItems.mapFunc, Bool.and_eq_true]
      refine ⟨he.1.1, List.all_eq_true.2 fun item' hitem' => ?_⟩
      obtain ⟨item, hitem, rfl⟩ := List.mem_map.1 hitem'
      exact h.const_ok (List.all_eq_true.1 he.1.2 item hitem)
  · cases mode with
    | active table offset =>
      simp only [Option.any_eq_true, Bool.and_eq_true] at he
      obtain ⟨-, t, htable, hsame, hoffset⟩ := he
      rw [htype]
      simp only [Element.mapFunc, ElementMode.mapFunc, h.table, Option.any_eq_true, Bool.and_eq_true]
      exact ⟨t, htable, hsame, h.const_ok hoffset⟩
    | passive | declared => rfl

theorem data_ok {d : Data} (hd : dataOffsetOk c d = true) : dataOffsetOk c' (d.mapFunc f) = true := by
  obtain ⟨mode, bytes⟩ := d
  cases mode with
  | active memory offset =>
    simp only [dataOffsetOk, Option.any_eq_true] at hd
    obtain ⟨address, haddress, hoffset⟩ := hd
    simp only [Data.mapFunc, DataMode.mapFunc, dataOffsetOk, h.address, Option.any_eq_true]
    exact ⟨address, haddress, h.const_ok hoffset⟩
  | passive => rfl

theorem global_ok {g : Global}
    (hg : (globalTypeOk g.type && constOk c g.type.content g.init) = true) :
    (globalTypeOk (g.mapFunc f).type &&
      constOk c' (g.mapFunc f).type.content (g.mapFunc f).init) = true := by
  rw [Bool.and_eq_true] at hg ⊢
  exact ⟨hg.1, h.const_ok hg.2⟩

theorem export_ok {e : Export} (he : exportOk c e = true) : exportOk c' (e.mapFunc f) = true := by
  obtain ⟨name, kind, index⟩ := e
  cases kind
  case func => exact h.isSome_func he
  all_goals
    simp only [exportOk] at he
    simp only [Export.mapFunc, exportOk, h.table, h.memory, h.global, he]

theorem start_ok {func : UInt32} (hfunc : startOk c func = true) : startOk c' (f func) = true := by
  simp only [startOk, decide_eq_true_eq] at hfunc ⊢
  exact h.func func _ hfunc

theorem memoryType_ok {type : MemoryType} (ht : memoryTypeOk c.features type = true) :
    memoryTypeOk c'.features type = true := by
  simp only [memoryTypeOk, Bool.and_eq_true, Bool.or_eq_true] at ht ⊢
  exact ⟨⟨⟨ht.1.1.1.imp_right h.features.memory64, ht.1.1.2⟩, ht.1.2⟩, ht.2⟩

theorem tableType_ok {type : TableType} (ht : tableTypeOk c.features type = true) :
    tableTypeOk c'.features type = true := by
  simp only [tableTypeOk, Bool.and_eq_true, Bool.or_eq_true] at ht ⊢
  exact ⟨⟨⟨ht.1.1.1, ht.1.1.2.imp_right h.features.memory64⟩, ht.1.2⟩, ht.2⟩

/-- Imports name types only. -/
theorem import_ok {i : Import} (hi : importOk c i = true) : importOk c' i = true := by
  unfold importOk at hi ⊢
  cases htype : i.type
  case func index | funcPrecisely index =>
    simp only [htype, Option.isSome_iff_exists] at hi ⊢
    obtain ⟨t, ht⟩ := hi
    exact ⟨t, h.type index t ht⟩
  case memory type =>
    simp only [htype] at hi ⊢
    exact h.memoryType_ok hi
  case table type =>
    simp only [htype] at hi ⊢
    exact h.tableType_ok hi
  all_goals simpa only [htype] using hi

/-! ## Sizes -/

theorem import_size {i : Import} (hi : importOk c i = true) : importSize c' i = importSize c i := by
  unfold importOk at hi
  unfold importSize
  cases htype : i.type
  case func index | funcPrecisely index =>
    simp only [htype, Option.isSome_iff_exists] at hi ⊢
    obtain ⟨t, ht⟩ := hi
    rw [ht, h.type index t ht]
  all_goals rfl

theorem export_size {e : Export} (he : exportOk c e = true) :
    exportSize c' (e.mapFunc f) = exportSize c e := by
  obtain ⟨name, kind, index⟩ := e
  cases kind
  case func =>
    obtain ⟨t, ht⟩ := Option.isSome_iff_exists.1 he
    change externSize (c'.func? (f index)) = externSize (c.func? index)
    rw [ht, h.func index t ht]
  all_goals rfl

end Renames

/-! ## Modules with more functions -/

/-- What has an index keeps it when more is put behind. -/
theorem kept_at_index {α : Type} {own more : List α} (index : UInt32) (x : α)
    (h : own[index.toNat]? = some x) : (own ++ more)[index.toNat]? = some x := by
  rw [List.getElem?_append_left (List.getElem?_eq_some_iff.1 h).1]
  exact h

/-- Both modules have the same tables, memories and globals. -/
structure SameSpaces (m m' : Module) : Prop where
  tables : m'.tableTypes = m.tableTypes
  memories : m'.memoryTypes = m.memoryTypes
  globals : m'.globalTypes = m.globalTypes
  importedGlobals : m'.importedGlobals = m.importedGlobals

/-- A module with more types behind those of `m` and more functions among those of `m` has a
context, and it renames that of `m`. -/
theorem context_of_spaces {features features' : Features} {m m' : Module} {c : Context}
    {f : UInt32 → UInt32} {added funcs' : List FuncType} (hc : Context.of? features m = some c)
    (hfeatures : features.Within features') (hspaces : SameSpaces m m')
    (helements : m'.elements.map elementType = m.elements.map elementType)
    (hcounts : m'.dataCounts = m.dataCounts)
    (htypes : m'.types.map TypeEntry.type = m.types.map TypeEntry.type ++ added)
    (hfuncs' : m'.funcTypes.mapM (fun index =>
      (m.types.map TypeEntry.type ++ added)[index.toNat]?) = some funcs')
    (hfunc : ∀ func type, c.func? func = some type → funcs'[(f func).toNat]? = some type)
    (hreferences : ∀ func ∈ referencedFuncs m, f func ∈ referencedFuncs m') :
    Context.of? features' m' = some (contextOf features' m' funcs') ∧
      Renames f c (contextOf features' m' funcs') := by
  refine ⟨context_eq_some_iff.2 ⟨funcs', htypes ▸ hfuncs', rfl⟩, ?_⟩
  obtain ⟨funcs, -, rfl⟩ := context_eq_some_iff.1 hc
  constructor
  case features => exact hfeatures
  case type =>
    intro index type h
    simp only [Context.type?, contextOf, htypes, List.getElem?_toArray] at h ⊢
    exact kept_at_index index type h
  case func =>
    intro func type h
    simpa only [Context.func?, contextOf, List.getElem?_toArray] using hfunc func type h
  case tables => exact congrArg List.toArray hspaces.tables
  case memories => exact congrArg List.toArray hspaces.memories
  case globals => exact congrArg List.toArray hspaces.globals
  case importedGlobals => exact congrArg List.length hspaces.importedGlobals
  case elements => exact congrArg List.toArray helements
  case dataCount => simp only [contextOf, hcounts]
  case references => exact hreferences

/-! ## Sizes and names of modules -/

theorem foldl_size {α : Type} (size : α → Nat) (n : Nat) (items : List α) :
    items.foldl (fun total x => total + size x) n = n + (items.map size).sum := by
  induction items generalizing n with
  | nil => rfl
  | cons x items ih =>
    rw [List.foldl_cons, ih, List.map_cons, List.sum_cons]
    omega

theorem moduleSize_eq (c : Context) (m : Module) :
    moduleSize c m = 1 + (m.imports.map (importSize c)).sum + (m.exports.map (exportSize c)).sum := by
  rw [moduleSize, foldl_size, foldl_size]

theorem distinctNames_iff (exports : List Export) :
    distinctNames exports = true ↔ (exports.map Export.name).Nodup := by
  have hfold (seen : List String) (ok : Bool) :
      (exports.foldl (fun (seen : List String × Bool) e =>
        (e.name :: seen.1, seen.2 && !seen.1.contains e.name)) (seen, ok)).2 = true ↔
        ok = true ∧ (exports.map Export.name).Nodup ∧
          ∀ name ∈ exports.map Export.name, name ∉ seen := by
    induction exports generalizing seen ok with
    | nil => simp
    | cons e exports ih =>
      rw [List.foldl_cons, ih]
      simp only [Bool.and_eq_true, Bool.not_eq_eq_eq_not, Bool.not_true, List.map_cons,
        List.nodup_cons, List.forall_mem_cons, List.contains_eq_mem, decide_eq_false_iff_not]
      constructor
      · rintro ⟨⟨hok, hseen⟩, hnodup, hrest⟩
        exact ⟨hok, ⟨fun hmem => hrest _ hmem (List.mem_cons_self ..), hnodup⟩, hseen,
          fun name hname hmem => hrest name hname (List.mem_cons_of_mem _ hmem)⟩
      · rintro ⟨hok, ⟨hnew, hnodup⟩, hseen, hrest⟩
        refine ⟨⟨hok, hseen⟩, hnodup, fun name hname hmem => ?_⟩
        rcases List.mem_cons.1 hmem with rfl | hmem
        · exact hnew hname
        · exact hrest name hname hmem
  rw [distinctNames, hfold]
  simp

end MeteredWasm.Wasm.Validation
