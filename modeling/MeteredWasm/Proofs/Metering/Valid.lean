import MeteredWasm.Proofs.Metering.Bounded
import MeteredWasm.Proofs.Metering.Shift
import MeteredWasm.Proofs.Module.Dialect
import MeteredWasm.Proofs.Module.References
import MeteredWasm.Proofs.Validation.Renamed

/-!
# Metered modules are valid

A charge takes nothing that was on the stack and leaves nothing there, wherever it stands
(`codeOk_charge`), so valid code is still valid once it is metered (`codeOk_meterCode`). The
context that a metered module is checked against renames the functions of the original one and has
the hook behind the imported ones (`context_of_meter`). So a valid module stays valid when it is
metered, if there is room for what is added (`valid_of_meter`).
-/

set_option autoImplicit false

namespace MeteredWasm.Metering

open Wasm Validation

variable {plan : Plan}

/-! ## Code -/

section
variable {c c' : Context} {locals : Array ValType} {results : List ValType}

/-- A charge leaves the stack as it is, also where control cannot come and the types on the stack
are not known. -/
theorem codeOk_charge (hhook : c.func? plan.hook = some ⟨[.i32], []⟩) (cost : UInt32)
    (code : List Operator) (f : Frame) (outer : List Frame) :
    codeOk c locals results (.i32Const cost :: .call plan.hook :: code) (f :: outer) =
      codeOk c locals results code (f :: outer) := by
  have hconst : step? c locals results (.i32Const cost) (f :: outer) =
      some (f.push [.i32] :: outer) := rfl
  have hcall : step? c locals results (.call plan.hook) (f.push [.i32] :: outer) =
      some (f :: outer) := by
    simp only [step?, signature?, hhook, Option.map_some, Option.bind_eq_bind, Option.bind_some]
    rfl
  rw [codeOk, hconst]
  dsimp only
  rw [codeOk, hcall]

theorem codeOk_meterCode (h : Renames (shift plan.hook) c c')
    (hhook : c'.func? plan.hook = some ⟨[.i32], []⟩) (code : List Operator) (frames : List Frame)
    (hok : codeOk c locals results code frames = true) :
    codeOk c' locals results (meterCode plan code) frames = true := by
  revert frames
  refine meterCode_induction code (fun _ => id) (fun op ops code ih frames hok => ?_)
    fun op ops code cost ih frames hok => ?_
  · rw [codeOk] at hok
    split at hok
    · rename_i frames' hstep
      rw [codeOk, h.step hstep]
      exact ih frames' hok
    · cases hok
  · cases frames with
    | nil => cases hok
    | cons f outer =>
      rw [codeOk_charge hhook]
      exact ih _ hok

theorem bodyOk_meterBody (h : Renames (shift plan.hook) c c')
    (hhook : c'.func? plan.hook = some ⟨[.i32], []⟩) {type : FuncType} {body : Body}
    (hok : bodyOk c type body = true) : bodyOk c' type (meterBody plan body) = true := by
  rw [bodyOk, Bool.and_eq_true] at hok ⊢
  exact ⟨hok.1, codeOk_meterCode h hhook body.code _ hok.2⟩

end

/-! ## The context -/

section
variable {features : Features} {m m' : Module} {c : Context}

/-- Metering adds no tags. -/
theorem hasTags_of_meter (hm : meterModule? plan m = some m') (h : hasTags m = false) :
    hasTags m' = false := by
  simp only [hasTags, List.any_eq_false, decide_eq_true_eq] at h ⊢
  refine forall_of_row (P := fun s => ¬s.kind? = some .tags) ?_ (fun s s' hs h => ?_) h
    (row_of_meter hm)
  · exact ⟨by simp [Section.kind?], by simp [Section.kind?], by simp [Section.kind?]⟩
  · rwa [kind_of_meterSection hs]

theorem dataCounts_of_meter (hm : meterModule? plan m = some m') :
    m'.dataCounts = m.dataCounts := by
  refine (@flatMap_of_meter _ _ _ id (fun _ _ => rfl) (fun _ => rfl) (fun _ => rfl)
    (fun _ => rfl) (fun s s' k hk hs => ?_) _ _ _ (row_of_meter hm)).trans (List.map_id _)
  cases s <;> cases hk <;> cases hs <;> simp

/-- The hook is the only thing that is imported in addition. -/
theorem importedFuncs_of_items (h : MeteredItems plan m m') :
    m'.importedFuncs = m.importedFuncs ++ [plan.hookType] := by
  simp [Module.importedFuncs, h.imports, Plan.hookImport]

theorem spaces_of_items (h : MeteredItems plan m m') : SameSpaces m m' := by
  have htables : m.tables.map (Table.type ∘ Table.mapFunc (shift plan.hook)) =
      m.tables.map Table.type := rfl
  have hglobals : m.globals.map (Global.type ∘ Global.mapFunc (shift plan.hook)) =
      m.globals.map Global.type := rfl
  constructor <;>
    simp [Module.tableTypes, Module.importedTables, Module.memoryTypes, Module.importedMemories,
      Module.globalTypes, Module.importedGlobals, h.imports, h.tables, h.memories, h.globals,
      Plan.hookImport, htables, hglobals]

theorem referencedFuncs_eq (m : Module) :
    referencedFuncs m = m.exports.flatMap Export.funcs ++ m.globals.flatMap Global.funcs ++
      m.elements.flatMap (·.items.funcs) := by
  have hexports : (m.exports.filterMap fun e => if e.kind = .func then some e.index else none) =
      m.exports.flatMap Export.funcs := by
    induction m.exports with
    | nil => rfl
    | cons e exports ih =>
      by_cases hkind : e.kind = .func <;> simp [Export.funcs, hkind, ih]
  rw [referencedFuncs, hexports]
  rfl

/-- Code may refer to the functions that it could refer to. -/
theorem referencedFuncs_of_items (h : MeteredItems plan m m') :
    referencedFuncs m' = (referencedFuncs m).map (shift plan.hook) := by
  have hadded : plan.addedExports.flatMap Export.funcs = [] := by
    unfold Plan.addedExports
    cases plan.memoryExport <;> rfl
  simp only [referencedFuncs_eq, h.globals, h.exports, h.elements, List.flatMap_append, hadded,
    List.append_nil, List.flatMap_map, List.map_append, List.map_flatMap, Global.funcs_mapFunc,
    Export.funcs_mapFunc, Element.mapFunc, ElementItems.funcs_mapFunc]

/-- What the context of a metered module has: the functions of the module under their new indices,
and the hook. -/
structure Hooked (plan : Plan) (m m' : Module) (c c' : Context) : Prop where
  renames : Renames (shift plan.hook) c c'
  features : c'.features = c.features
  hook : c'.func? plan.hook = some ⟨[.i32], []⟩
  hookType : c'.type? plan.hookType = some ⟨[.i32], []⟩
  defined : c'.definedFuncs m' = c.definedFuncs m

/-- With the hook behind what is imported, the functions are found where they have moved. -/
theorem getElem_shift {α : Type} {imported defined : List α} {hook func : UInt32} {x : α}
    (hindex : hook.toNat = imported.length) (hlast : func ≠ 0xFFFFFFFF) :
    (imported ++ x :: defined)[(shift hook func).toNat]? = (imported ++ defined)[func.toNat]? := by
  rw [toNat_shift hlast, hindex]
  split
  · rename_i hle
    rw [List.getElem?_append_right hle, List.getElem?_append_right (by omega),
      show func.toNat + 1 - imported.length = func.toNat - imported.length + 1 by omega,
      List.getElem?_cons_succ]
  · rename_i hlt
    rw [List.getElem?_append_left (by omega), List.getElem?_append_left (by omega)]

theorem elements_of_items (h : MeteredItems plan m m') :
    m'.elements.map elementType = m.elements.map elementType := by
  rw [h.elements, List.map_map]
  refine List.map_congr_left fun e _ => ?_
  obtain ⟨mode, items⟩ := e
  cases items <;> rfl

theorem context_of_meter (hord : Ordered m.sections) (hm : meterModule? plan m = some m')
    (hc : Context.of? features m = some c) (hindex : plan.hook.toNat = m.importedFuncs.length)
    (htype : plan.hookType.toNat = m.types.length) (hfuncs : m.funcTypes.length ≤ maxItems) :
    ∃ c', Context.of? features m' = some c' ∧ Hooked plan m m' c c' := by
  have h := items_of_meter hord hm
  have himported := importedFuncs_of_items h
  obtain ⟨funcs, hown, hcontext⟩ := context_eq_some_iff.1 hc
  have hcount : funcs.length = m.funcTypes.length := length_of_mapM hown
  simp only [Module.funcTypes, List.mapM_append, Option.bind_eq_bind, Option.bind_eq_some_iff,
    Option.pure_def, Option.some.injEq] at hown
  obtain ⟨imported, hi, defined, hd, rfl⟩ := hown
  have hlength : imported.length = m.importedFuncs.length := length_of_mapM hi
  have htypes : m'.types.map TypeEntry.type =
      m.types.map TypeEntry.type ++ [hookTypeEntry.type] := by
    rw [h.types, List.map_append]
    rfl
  -- The types of the module are found where they were.
  have hkept (index : UInt32) :=
    @kept_at_index _ (m.types.map TypeEntry.type) [hookTypeEntry.type] index
  have hhook : (m.types.map TypeEntry.type ++ [hookTypeEntry.type])[plan.hookType.toNat]? =
      some hookTypeEntry.type := by
    simp [htype]
  have hfuncs' : m'.funcTypes.mapM (fun index =>
      (m.types.map TypeEntry.type ++ [hookTypeEntry.type])[index.toNat]?) =
        some (imported ++ hookTypeEntry.type :: defined) := by
    rw [Module.funcTypes, himported, h.functions, List.append_assoc, List.mapM_append,
      mapM_widens hkept hi, List.mapM_append, mapM_widens hkept hd]
    simp only [List.mapM_cons, List.mapM_nil, hhook]
    rfl
  have hmoved (func : UInt32) (type : FuncType) (hfunc : c.func? func = some type) :
      (imported ++ hookTypeEntry.type :: defined)[(shift plan.hook func).toNat]? = some type := by
    simp only [← hcontext, Context.func?, contextOf, List.getElem?_toArray] at hfunc
    have hlt : func.toNat < m.funcTypes.length := hcount ▸ (List.getElem?_eq_some_iff.1 hfunc).1
    have hlast : func ≠ 0xFFFFFFFF := by
      rintro rfl
      have : (0xFFFFFFFF : UInt32).toNat = 0xFFFFFFFF := rfl
      have : maxItems = 1000000 := rfl
      omega
    rw [getElem_shift (hindex.trans hlength.symm) hlast]
    exact hfunc
  obtain ⟨hc', hrenames⟩ := context_of_spaces (f := shift plan.hook) hc (.refl _)
    (spaces_of_items h) (elements_of_items h) (dataCounts_of_meter hm) htypes hfuncs' hmoved
    fun func hmem => referencedFuncs_of_items h ▸ List.mem_map_of_mem hmem
  refine ⟨_, hc', hrenames, by rw [← hcontext, contextOf, contextOf], ?_, ?_, ?_⟩
  · simp only [Context.func?, contextOf, List.getElem?_toArray]
    rw [hindex, ← hlength, List.getElem?_append_right (Nat.le_refl _), Nat.sub_self]
    rfl
  · simp only [Context.type?, contextOf, htypes, List.getElem?_toArray]
    exact hhook
  · simp [← hcontext, Context.definedFuncs, contextOf, himported, ← hlength, List.drop_append]

/-! ## Declarations -/

/-- There is room for what metering adds: a type, a function, and an export of the memory under
its name if there is one. -/
structure HasRoom (features : Features) (memoryExport : Option String) (m m' : Module) : Prop where
  types : m.types.length + 1 ≤ maxItems
  funcs : m.funcTypes.length + 1 ≤ maxItems
  size : ∀ c ∈ Context.of? features m,
    moduleSize c m + funcTypeSize hookTypeEntry.type + memoryExport.toList.length < moduleSizeBound
  name : ∀ name ∈ memoryExport, NameFits name
  /-- Lengths of sections are written in 32 bits. -/
  lengths : ∀ s ∈ m'.sections, s.contents.length < 2 ^ 32

variable {c' : Context}

theorem moduleSize_of_items (h : MeteredItems plan m m') (hooked : Hooked plan m m' c c')
    (hd : Declarations c m) : moduleSize c' m' =
      moduleSize c m + funcTypeSize hookTypeEntry.type + plan.memoryExport.toList.length := by
  have himports : m.imports.map (importSize c') = m.imports.map (importSize c) :=
    List.map_congr_left fun i hi => hooked.renames.import_size (List.all_eq_true.1 hd.imports i hi)
  have hexports : m.exports.map (exportSize c' ∘ Export.mapFunc (shift plan.hook)) =
      m.exports.map (exportSize c) :=
    List.map_congr_left fun e he => hooked.renames.export_size (List.all_eq_true.1 hd.exports e he)
  have hhook : importSize c' plan.hookImport = funcTypeSize hookTypeEntry.type := by
    simp only [importSize, Plan.hookImport, hooked.hookType]
    rfl
  have hadded : (plan.addedExports.map (exportSize c')).sum = plan.memoryExport.toList.length := by
    unfold Plan.addedExports
    cases plan.memoryExport <;> rfl
  simp only [moduleSize_eq, h.imports, h.exports, List.map_append, List.map_map, himports, hexports,
    List.map_cons, List.map_nil, List.sum_append, List.sum_cons, List.sum_nil, hhook, hadded]
  omega

theorem distinctNames_of_items (h : MeteredItems plan m m') (hd : distinctNames m.exports = true)
    (hname : ∀ name ∈ plan.memoryExport, ∀ e ∈ m.exports, e.name ≠ name) :
    distinctNames m'.exports = true := by
  have hkept : m.exports.map (Export.name ∘ Export.mapFunc (shift plan.hook)) =
      m.exports.map Export.name := by
    refine List.map_congr_left fun e _ => ?_
    obtain ⟨name, kind, index⟩ := e
    cases kind <;> rfl
  have hadded : plan.addedExports.map Export.name = plan.memoryExport.toList := by
    rw [Plan.addedExports, List.map_map]
    exact List.map_id _
  rw [distinctNames_iff] at hd ⊢
  rw [h.exports, List.map_append, List.map_map, hkept, hadded, List.nodup_append]
  refine ⟨hd, ?_, fun name hmem name' hmem' heq => ?_⟩
  · cases plan.memoryExport <;> simp
  · obtain ⟨e, he, rfl⟩ := List.mem_map.1 hmem
    exact hname name' (Option.mem_toList.1 hmem') e he heq

theorem countsOk_of_items (h : MeteredItems plan m m') (hd : countsOk m = true)
    (htypes : m.types.length + 1 ≤ maxItems) (hfuncs : m.funcTypes.length + 1 ≤ maxItems) :
    countsOk m' = true := by
  have hfuncs' : m'.funcTypes.length = m.funcTypes.length + 1 := by
    simp only [Module.funcTypes, importedFuncs_of_items h, h.functions, List.length_append,
      List.length_singleton]
    omega
  simp only [countsOk, Bool.and_eq_true, decide_eq_true_eq, h.types, hfuncs',
    (spaces_of_items h).globals, h.elements, h.datas, List.length_append, List.length_map, List.length_singleton] at hd ⊢
  exact ⟨⟨⟨⟨htypes, hfuncs⟩, hd.1.1.2⟩, hd.1.2⟩, hd.2⟩

/-- The declarations of a valid module stay valid. -/
theorem declarations_of_meter (hord : Ordered m.sections) (hm : meterModule? plan m = some m')
    (hc : Context.of? features m = some c) (hooked : Hooked plan m m' c c')
    (hd : Declarations c m) (htypes : m.types.length + 1 ≤ maxItems)
    (hfuncs : m.funcTypes.length + 1 ≤ maxItems)
    (hsize : moduleSize c m + funcTypeSize hookTypeEntry.type + plan.memoryExport.toList.length <
      moduleSizeBound)
    (hname : ∀ name ∈ plan.memoryExport, m.memoryTypes ≠ [] ∧ ∀ e ∈ m.exports, e.name ≠ name) :
    Declarations c' m' := by
  have h := items_of_meter hord hm
  have hrenames := hooked.renames
  have hspaces := spaces_of_items h
  have hmap {α : Type} {f : α → α} {p p' : α → Bool} {items : List α}
      (hf : ∀ x, p x = true → p' (f x) = true) (hp : items.all p = true) :
      (items.map f).all p' = true :=
    List.all_eq_true.2 (List.forall_mem_map.2 fun x hx => hf x (List.all_eq_true.1 hp x hx))
  constructor
  case counts => exact countsOk_of_items h hd.counts htypes hfuncs
  case types =>
    rw [h.types, List.all_append, hd.types]
    rfl
  case imports =>
    rw [h.imports, List.all_append, Bool.and_eq_true]
    refine ⟨List.all_eq_true.2 fun i hi => hrenames.import_ok (List.all_eq_true.1 hd.imports i hi),
      ?_⟩
    simp only [List.all_cons, List.all_nil, Plan.hookImport, importOk, hooked.hookType]
    rfl
  case untagged => exact hasTags_of_meter hm hd.untagged
  case tables =>
    rw [h.tables]
    refine hmap (fun t ht => ?_) hd.tables
    simp only [tableOk, Bool.and_eq_true, Option.isNone_iff_eq_none] at ht ⊢
    exact ⟨hooked.features ▸ ht.1, by rw [Table.mapFunc, ht.2]; rfl⟩
  case tableCount => exact hspaces.tables ▸ hd.tableCount
  case memories => exact hooked.features ▸ h.memories ▸ hd.memories
  case memoryCount => exact hspaces.memories ▸ hd.memoryCount
  case size => exact moduleSize_of_items h hooked hd ▸ hsize
  case globals => exact h.globals ▸ hmap (fun _ => hrenames.global_ok) hd.globals
  case exports =>
    rw [h.exports, List.all_append, Bool.and_eq_true]
    refine ⟨hmap (fun _ => hrenames.export_ok) hd.exports, List.all_eq_true.2 fun e he => ?_⟩
    obtain ⟨name, hmem, rfl⟩ := List.mem_map.1 he
    have hmemory := (hname name (Option.mem_toList.1 hmem)).1
    change (c'.memory? 0).isSome = true
    rw [Context.memory?, hrenames.memories, memories_of_context hc, List.getElem?_toArray]
    cases hlist : m.memoryTypes with
    | nil => exact absurd hlist hmemory
    | cons type types => rfl
  case distinct => exact distinctNames_of_items h hd.distinct fun name hmem => (hname name hmem).2
  case starts => exact h.starts ▸ hmap (fun _ => hrenames.start_ok) hd.starts
  case elements => exact h.elements ▸ hmap (fun _ => hrenames.element_ok) hd.elements
  case datas => exact h.datas ▸ hmap (fun _ => hrenames.data_ok) hd.datas

/-- The bodies of a valid module stay valid. -/
theorem bodies_of_meter (hord : Ordered m.sections) (hm : meterModule? plan m = some m')
    (hooked : Hooked plan m m' c c')
    (hb : ((c.definedFuncs m).zip m.bodies).all (fun (type, body) => bodyOk c type body) = true) :
    ∀ p ∈ (c'.definedFuncs m').zip m'.bodies, bodyOk c' p.1 p.2 = true := by
  rw [hooked.defined, (items_of_meter hord hm).bodies, List.zip_map_right]
  refine List.forall_mem_map.2 fun p hmem => ?_
  exact bodyOk_meterBody hooked.renames hooked.hook (List.all_eq_true.1 hb _ hmem)

end

/-! ## Modules -/

/-- A module that is valid stays valid when it is metered, if there is room for what is added and
the name that the memory is exported under, if any, is new. -/
theorem valid_of_meter {features : Features} {rules : Rules} {memoryExport : Option String}
    {binary : Bytes} {s : Summary} {m m' : Module} (hs : Summary.of binary = .ok s)
    (hvalid : validate? features binary = some m)
    (hname : ∀ name ∈ memoryExport, m.memoryTypes ≠ [] ∧ ∀ e ∈ m.exports, e.name ≠ name)
    (hmeter : meter? s rules memoryExport binary = some m')
    (hroom : HasRoom features memoryExport m m') :
    validate? features m'.encode = some m' := by
  obtain ⟨hdecode, hok⟩ := validate_eq_some hvalid
  have hfull := decode_full hdecode
  have hord := ordered_of_decode hdecode
  simp only [meter?, hfull, Option.bind_eq_bind, Option.bind_some] at hmeter
  obtain ⟨c, hc, hd, hbodies⟩ := context_of_moduleOk hok
  have hd := declarations_of_ok hd
  obtain ⟨c', hc', hooked⟩ := context_of_meter hord hmeter hc (hookIndex_of_summary hs hfull)
    (typeIndex_of_summary hs hfull) hd.lengths.2
  have hdeclared := declarations_of_meter hord hmeter hc hooked hd hroom.types hroom.funcs
    (hroom.size c hc) hname
  have hmoduleOk : moduleOk features m' = true :=
    moduleOk_of_declarations hc' hdeclared (bodies_of_meter hord hmeter hooked hbodies)
  simp only [validate?, decode_of_meter hdecode hmeter hroom.name hroom.lengths, hmoduleOk,
    Option.bind_eq_bind, Option.bind_some, if_true, Option.pure_def]

/-- A module with a private memory. Its function calls itself in one branch, has a block above an
operand and takes a reference to itself in the other, and goes on where control cannot come. -/
def branching : Module :=
  ⟨[.types [.plain ⟨[.i32], [.i32]⟩], .functions [0], .memories [⟨⟨1, none⟩, false, false, none⟩],
    .exports [⟨"entry", .func, 0⟩], .elements [⟨.declared, .functions [0]⟩],
    .code [⟨[], [.localGet 0, .ifThen (.value .i32), .i32Const 1, .call 0, .elseMark, .i32Const 5,
      .loop .empty, .refFunc 0, .drop, .endMark, .endMark, .ret, .drop, .endMark]⟩]]⟩

def branchingSummary : Summary :=
  ⟨[⟨[.i32], [.i32]⟩], [], [0], [⟨"entry", .func, 0⟩], [⟨⟨1, none⟩, false, false⟩], false, [], none⟩

theorem valid_of_meter_branching :
    ∃ m', meter? branchingSummary (.constant 1) (some "memory") branching.encode = some m' ∧
      validate? .sandbox m'.encode = some m' := by
  have hs : Summary.of branching.encode = .ok branchingSummary := by decide +kernel
  have hvalid : validate? .sandbox branching.encode = some branching := by decide +kernel
  have hname : ∀ name ∈ some "memory", branching.memoryTypes ≠ [] ∧
      ∀ e ∈ branching.exports, e.name ≠ name := by decide +kernel
  have hsome : (meter? branchingSummary (.constant 1) (some "memory") branching.encode).isSome =
      true := by decide +kernel
  obtain ⟨m', hmeter⟩ := Option.isSome_iff_exists.1 hsome
  have hlengths : ∀ m' ∈ meter? branchingSummary (.constant 1) (some "memory") branching.encode,
      ∀ s ∈ m'.sections, s.contents.length < 2 ^ 32 := by decide +kernel
  have hfits : ∀ name ∈ some "memory", NameFits name := by
    unfold NameFits
    decide +kernel
  exact ⟨m', hmeter, valid_of_meter hs hvalid hname hmeter
    ⟨by decide +kernel, by decide +kernel, by decide +kernel, hfits, hlengths m' hmeter⟩⟩

end MeteredWasm.Metering
