import MeteredWasm.Proofs.Agreement.Fill
import MeteredWasm.Proofs.Module.Metered
import MeteredWasm.Proofs.Module.Summary
import MeteredWasm.Proofs.Metering.Shift
import MeteredWasm.Proofs.Simulation.Stage
import MeteredWasm.Proofs.Validation.Named

/-!
# Linking a metered module

A module that carries the metered form of another one (`Carries`) can be linked exactly if the
other can, and the two instances then run each other's code, metered (`linked_of_carries`). A
metered module carries its own metered form (`carries_of_meter`); a module may have more functions
behind those.
-/

set_option autoImplicit false

namespace MeteredWasm.Linking

open Wasm Machine Metering Simulation

/-! ## Functions of a module -/

/-- Imported functions with their types. -/
def importedTypes (m : Module) : List (Import × FuncType) :=
  m.imports.filterMap fun i => (funcType? m i).map (i, ·)

/-- A function with its body. -/
def define? (types : List TypeEntry) (index : UInt32) (body : Body) : Option Function := do
  let entry ← types[index.toNat]?
  return .code entry.type
    (body.locals.flatMap fun (n, type) => List.replicate n.toNat type) body.code

def imported? (m : Module) (imports : Imports) : Option (List Function) :=
  (importedTypes m).mapM fun (i, type) => hostFunction? imports i type

def defined? (m : Module) : Option (List Function) :=
  (m.functions.zip m.bodies).mapM fun (index, body) => define? m.types index body

theorem functions_eq (m : Module) (imports : Imports) : functions? m imports = (do
    let imported ← imported? m imports
    let defined ← defined? m
    return (imported ++ defined).toArray) := rfl

/-! ## Modules that carry a metered one -/

/-- `m'` has the metered form of `m` in front of all that it has besides. -/
structure Carries (plan : Plan) (m m' : Module) (extra : List Function) : Prop where
  types : ∃ more, m'.types = m.types ++ hookTypeEntry :: more
  imports : m'.imports = m.imports ++ [plan.hookImport]
  functions : ∃ indices bodies, m'.functions = m.functions ++ indices ∧
    m'.bodies = m.bodies.map (meterBody plan) ++ bodies ∧
    (indices.zip bodies).mapM (fun (index, body) => define? m'.types index body) = some extra
  tables : m'.tables = m.tables.map (Table.mapFunc (shift plan.hook))
  memories : m'.memories = m.memories
  globals : m'.globals = m.globals.map (Global.mapFunc (shift plan.hook))
  elements : m'.elements = m.elements.map (Element.mapFunc (shift plan.hook))
  datas : m'.datas = m.datas.map (Data.mapFunc (shift plan.hook))

/-- A module that can be metered with this plan. -/
structure Meterable (plan : Plan) (m : Module) : Prop where
  named : Named m
  hook : plan.hook = m.importedFuncs.length.toUInt32
  hookType : plan.hookType = m.types.length.toUInt32
  /-- The hook is not imported yet. -/
  reserved : ∀ i ∈ m.imports, i.function?.isSome → key i ≠ hookImport

/-- The type that stands at an index. -/
def indexedType? (m : Module) (index : UInt32) : Option FuncType :=
  (m.types[index.toNat]?).map TypeEntry.type

section
variable {plan : Plan} {m m' : Module} {extra : List Function}

theorem Named.toNat_toUInt32 {n : Nat} (h : n ≤ Validation.maxItems) : n.toUInt32.toNat = n := by
  have hn : n ≤ 1000000 := h
  simp only [Nat.toUInt32_eq, UInt32.toNat_ofNat']
  omega

theorem mapM_map_of_forall {α α' β : Type} {f : α → Option β} {f' : α' → Option β}
    {change : α → α'} {rename : β → β} {xs : List α}
    (h : ∀ x ∈ xs, f' (change x) = (f x).map rename) :
    (xs.map change).mapM f' = (xs.mapM f).map (List.map rename) := by
  induction xs with
  | nil => rfl
  | cons x xs ih =>
    rw [List.map_cons, List.mapM_cons, List.mapM_cons, h x (by simp),
      ih fun y hy => h y (by simp [hy])]
    cases f x with
    | none => rfl
    | some y => cases xs.mapM f <;> rfl

theorem Carries.type_of_lt (hc : Carries plan m m' extra) {index : Nat}
    (h : index < m.types.length) : m'.types[index]? = m.types[index]? := by
  obtain ⟨more, htypes⟩ := hc.types
  rw [htypes, List.getElem?_append_left h]

/-- Every import of a function has a type. -/
theorem isSome_funcType (hm : Named m) {i : Import} (hi : i ∈ m.imports)
    (hfunction : i.function?.isSome) : (funcType? m i).isSome := by
  obtain ⟨f, hf⟩ := Option.isSome_iff_exists.1 hfunction
  have hmem : f.type ∈ m.funcTypes := by
    refine List.mem_append_left _ ?_
    rw [Module.importedFuncs_eq]
    exact List.mem_map_of_mem (List.mem_filterMap.2 ⟨i, hi, hf⟩)
  have hlt := hm.typed _ hmem
  unfold Import.function? at hf
  unfold funcType?
  cases ht : i.type <;> simp only [ht, Option.some.injEq, reduceCtorEq] at hf <;> subst hf <;>
    simpa using hlt

/-- Types and functions are in step. -/
theorem types_importedTypes (hm : Named m) :
    (importedTypes m).map (fun p => some p.2) = m.importedFuncs.map (indexedType? m) := by
  rw [importedTypes, Module.importedFuncs_eq]
  have himports : ∀ i ∈ m.imports, i.function?.isSome → (funcType? m i).isSome :=
    fun _ hi => isSome_funcType hm hi
  generalize m.imports = imports at himports ⊢
  induction imports with
  | nil => rfl
  | cons i imports ih =>
    have hi := himports i (by simp)
    have ih := ih fun j hj => himports j (by simp [hj])
    simp only [List.filterMap_cons]
    cases hf : i.function? with
    | none =>
      have hnone : funcType? m i = none := by
        unfold Import.function? at hf
        unfold funcType?
        cases ht : i.type <;> simp_all
      simpa [hnone] using ih
    | some f =>
      obtain ⟨type, htype⟩ := Option.isSome_iff_exists.1 (hi (by simp [hf]))
      have hindexed : indexedType? m f.type = some type := by
        rw [← htype]
        unfold Import.function? at hf
        unfold funcType?
        cases ht : i.type <;> simp only [ht, Option.some.injEq, reduceCtorEq] at hf <;>
          subst hf <;> rfl
      simp [htype, hindexed, ih]

theorem length_importedTypes (hm : Named m) :
    (importedTypes m).length = m.importedFuncs.length := by
  simpa using congrArg List.length (types_importedTypes hm)

section
variable (hm : Meterable plan m)
include hm

theorem Meterable.toNat_hook : plan.hook.toNat = m.importedFuncs.length := by
  rw [hm.hook]
  have hfuncs := hm.named.funcs
  simp only [Module.funcTypes, List.length_append] at hfuncs
  exact Named.toNat_toUInt32 (by omega)

theorem Meterable.toNat_hookType : plan.hookType.toNat = m.types.length := by
  rw [hm.hookType]
  exact Named.toNat_toUInt32 hm.named.types

variable (hc : Carries plan m m' extra)
include hc

theorem Carries.funcType_of_mem {i : Import} (hi : i ∈ m.imports) :
    funcType? m' i = funcType? m i := by
  have htype := isSome_funcType hm.named hi
  unfold Import.function? at htype
  unfold funcType? at htype ⊢
  cases ht : i.type
  case func type | funcPrecisely type =>
    rw [ht] at htype
    simp only [Option.isSome_some, Option.isSome_map, forall_const] at htype
    have hlt : type.toNat < m.types.length := by
      obtain ⟨entry, hentry⟩ := Option.isSome_iff_exists.1 htype
      exact (List.getElem?_eq_some_iff.1 hentry).1
    simp only [hc.type_of_lt hlt]
  all_goals rfl

/-- A function keeps its type. -/
theorem Carries.indexedType_shift {func : UInt32} (hfunc : func.toNat < m.funcTypes.length) :
    (m'.funcTypes[(shift plan.hook func).toNat]?).bind (indexedType? m') =
      (m.funcTypes[func.toNat]?).bind (indexedType? m) := by
  obtain ⟨indices, _, hfunctions, -, -⟩ := hc.functions
  have hhook := hm.toNat_hook
  have himported : m'.importedFuncs = m.importedFuncs ++ [plan.hookType] := by
    simp [Module.importedFuncs, hc.imports, Plan.hookImport]
  have hlast : func ≠ 0xFFFFFFFF := by
    rintro rfl
    have hfuncs : m.funcTypes.length ≤ 1000000 := hm.named.funcs
    simp only [UInt32.reduceToNat] at hfunc
    omega
  have hindex : m'.funcTypes[(shift plan.hook func).toNat]? = m.funcTypes[func.toNat]? := by
    rw [toNat_shift hlast, Module.funcTypes, Module.funcTypes, himported, hfunctions,
      List.append_assoc]
    simp only [Module.funcTypes, List.length_append] at hfunc
    split
    · rw [List.getElem?_append_right (by omega), List.singleton_append,
        List.getElem?_append_right (by omega), show func.toNat + 1 - m.importedFuncs.length =
          (func.toNat - m.importedFuncs.length) + 1 by omega, List.getElem?_cons_succ,
        List.getElem?_append_left (by omega)]
    · rw [List.getElem?_append_left (by omega), List.getElem?_append_left (by omega)]
  rw [hindex]
  cases htype : m.funcTypes[func.toNat]? with
  | none => rfl
  | some type =>
    have hlt := hm.named.typed type (List.mem_of_getElem? htype)
    simp only [Option.bind_some, indexedType?, hc.type_of_lt hlt]

theorem Carries.funcType_hookImport : funcType? m' plan.hookImport = some Function.hookType := by
  obtain ⟨more, htypes⟩ := hc.types
  have hlen := hm.toNat_hookType
  simp only [funcType?, Plan.hookImport, htypes, hlen, Nat.le_refl,
    List.getElem?_append_right, Nat.sub_self, List.getElem?_cons_zero, Option.map_some]
  rfl

theorem Carries.importedTypes_eq :
    importedTypes m' = importedTypes m ++ [(plan.hookImport, Function.hookType)] := by
  rw [importedTypes, hc.imports, List.filterMap_append]
  congr 1
  · exact List.filterMap_congr fun i hi => by rw [hc.funcType_of_mem hm hi]
  · simp [hc.funcType_hookImport hm]

theorem Carries.imported_eq (imports : Imports) :
    imported? m' imports = (imported? m imports).map (· ++ [.hook]) := by
  rw [imported?, hc.importedTypes_eq hm, List.mapM_append]
  have hhook : hostFunction? imports plan.hookImport Function.hookType = some .hook := by
    simp [hostFunction?, key, Plan.hookImport, hookImport]
  change (imported? m imports >>= fun ls => [(plan.hookImport, Function.hookType)].mapM
    (fun (i, type) => hostFunction? imports i type) >>= fun rs => pure (ls ++ rs)) = _
  cases imported? m imports with
  | none => rfl
  | some ls => simp [hhook]

theorem Carries.define_eq {index : UInt32} (hi : index ∈ m.functions) (body : Body) :
    define? m'.types index (meterBody plan body) =
      (define? m.types index body).map (metering plan).function := by
  have hlt : index.toNat < m.types.length :=
    hm.named.typed index (List.mem_append_right _ hi)
  unfold define?
  rw [hc.type_of_lt hlt]
  cases m.types[index.toNat]? with
  | none => rfl
  | some entry => rfl

theorem Carries.defined_eq :
    defined? m' = (defined? m).map fun fs => fs.map (metering plan).function ++ extra := by
  obtain ⟨indices, bodies, hfunctions, hbodies, hextra⟩ := hc.functions
  have hown : (m.functions.zip (m.bodies.map (meterBody plan))).mapM
      (fun (index, body) => define? m'.types index body) =
        (defined? m).map (List.map (metering plan).function) := by
    rw [List.zip_map_right]
    exact mapM_map_of_forall fun p hp => hc.define_eq hm (List.of_mem_zip hp).1 p.2
  rw [defined?, hfunctions, hbodies, List.zip_append (by simp [hm.named.paired]),
    List.mapM_append, hown, hextra]
  cases defined? m <;> rfl

/-! ## The same imports fit -/

theorem Carries.agrees_of_mem (provided : Option Memory) {i : Import} (hi : i ∈ m.imports) :
    agrees m' provided i = agrees m provided i := by
  have hprovided : providedType? m' i = providedType? m i := by
    unfold providedType?
    rw [hc.imports, List.find?_append]
    cases hfind : m.imports.find? (key · = key i) with
    | none =>
      have := List.find?_eq_none.1 hfind i hi
      simp at this
    | some j => exact hc.funcType_of_mem hm (List.mem_of_find?_eq_some hfind)
  unfold agrees
  rw [hc.funcType_of_mem hm hi, hprovided]

theorem Carries.agrees_hookImport (provided : Option Memory) :
    agrees m' provided plan.hookImport = true := by
  have htype := hc.funcType_hookImport hm
  have hkey : key plan.hookImport = hookImport := rfl
  unfold agrees
  rw [htype, hkey]
  simp only [Plan.hookImport, if_true, decide_true, Bool.and_true, decide_eq_true_eq]
  decide

theorem Carries.all_agrees (provided : Option Memory) :
    m'.imports.all (agrees m' provided) = m.imports.all (agrees m provided) := by
  rw [hc.imports, List.all_append, List.all_cons, List.all_nil, hc.agrees_hookImport hm,
    Bool.and_true, Bool.and_true]
  rw [Bool.eq_iff_iff, List.all_eq_true, List.all_eq_true]
  exact forall₂_congr fun i hi => by rw [hc.agrees_of_mem hm provided hi]

omit hm in
theorem Carries.importedMemories_eq : m'.importedMemories = m.importedMemories := by
  simp [Module.importedMemories, hc.imports, Plan.hookImport]

omit hm in
theorem Carries.emptyStorage_eq (provided : Option Memory) (ceiling : UInt64) :
    emptyStorage? m' provided ceiling = emptyStorage? m provided ceiling := by
  have htables : m'.tables.map definedTable = m.tables.map definedTable := by
    rw [hc.tables, List.map_map]
    rfl
  unfold emptyStorage?
  rw [hc.importedMemories_eq, htables, hc.memories]

end

end

/-! ## Instances -/

/-- What linking makes. -/
def made (a : Artifact) (hardware : Hardware) (m : Module) (functions : Array Function)
    (storage : Storage) : Prepared where
  module := m
  storage
  instance_ := {
    types := (m.types.map TypeEntry.type).toArray
    functions
    relaxed := hardware.relaxed
    controls := none
    controlBlock := a.controlBlock
    blockMemory := 0
    maxDepth := hardware.maxDepth }

theorem instantiate_eq_some {a : Artifact} {imports : Imports} {ceiling : UInt64} {hardware : Hardware}
    {m : Module} {p : Prepared} : instantiate? a imports ceiling hardware m = some p ↔
      ∃ imported defined st₀ st,
        m.imports.all (agrees m (providedMemory a.memory ceiling)) = true ∧
        imported? m imports = some imported ∧ defined? m = some defined ∧
        emptyStorage? m (providedMemory a.memory ceiling) ceiling = some st₀ ∧
        fill m st₀ = .ok () st ∧ p = made a hardware m (imported ++ defined).toArray st := by
  unfold instantiate?
  rw [functions_eq]
  dsimp only
  split
  · rename_i hagrees
    simp only [Bool.not_eq_eq_eq_not, Bool.not_true] at hagrees
    simp [hagrees]
  · rename_i hagrees
    simp only [Bool.not_eq_eq_eq_not, Bool.not_true, Bool.not_eq_false] at hagrees
    simp only [hagrees, true_and, Option.bind_eq_bind, Option.bind_eq_some_iff, Option.pure_def]
    constructor
    · rintro ⟨fs, ⟨imported, himported, defined, hdefined, hfs⟩, st₀, hst₀, hp⟩
      cases hfs
      cases hfill : fill m st₀ with
      | error t st => simp [hfill] at hp
      | ok _ st =>
        simp only [hfill, Option.some.injEq] at hp
        exact ⟨imported, defined, st₀, st, himported, hdefined, hst₀, hfill, hp.symm⟩
    · rintro ⟨imported, defined, st₀, st, himported, hdefined, hst₀, hfill, rfl⟩
      refine ⟨_, ⟨imported, himported, defined, hdefined, rfl⟩, st₀, hst₀, ?_⟩
      simp only [hfill]
      rfl

theorem module_of_instantiate {a : Artifact} {imports : Imports} {ceiling : UInt64} {hardware : Hardware}
    {m : Module} {p : Prepared} (h : instantiate? a imports ceiling hardware m = some p) :
    p.module = m := by
  obtain ⟨_, _, _, _, -, -, -, -, -, rfl⟩ := instantiate_eq_some.1 h
  rfl

/-- Functions are made with the types that they are declared with. -/
theorem types_of_functions {m : Module} {imports : Imports}
    {imported defined : List Function} (hm : Named m)
    (himported : imported? m imports = some imported) (hdefined : defined? m = some defined) :
    (imported ++ defined).map (fun f => some f.type) = m.funcTypes.map (indexedType? m) := by
  have hhost : imported.map (fun f => some f.type) = m.importedFuncs.map (indexedType? m) := by
    rw [← types_importedTypes hm]
    refine map_of_mapM himported fun p f hf => congrArg some ?_
    obtain ⟨i, type⟩ := p
    change hostFunction? imports i type = some f at hf
    unfold hostFunction? at hf
    split at hf
    · split at hf
      · cases hf
        exact Eq.symm ‹_›
      · cases hf
    · split at hf
      · cases hf
        rfl
      · split at hf <;> cases hf
        rfl
  have hown : defined.map (fun f => some f.type) = m.functions.map (indexedType? m) := by
    have hzip : m.functions = (m.functions.zip m.bodies).map Prod.fst :=
      (List.map_fst_zip (Nat.le_of_eq hm.paired.symm)).symm
    rw [hzip, List.map_map]
    refine map_of_mapM hdefined fun p f hf => ?_
    simp only [define?, Option.bind_eq_bind, Option.bind_eq_some_iff, Option.pure_def,
      Option.some.injEq] at hf
    obtain ⟨entry, hentry, rfl⟩ := hf
    simp [indexedType?, hentry, Function.type]
  rw [List.map_append, hhost, hown, Module.funcTypes, List.map_append]

theorem length_functions {m : Module} {imports : Imports}
    {imported defined : List Function} (hm : Named m)
    (himported : imported? m imports = some imported) (hdefined : defined? m = some defined) :
    m.funcTypes.length = imported.length + defined.length := by
  simpa using congrArg List.length (types_of_functions hm himported hdefined).symm

/-- A function that is declared with a type has been made, with that type. -/
theorem exists_function {m : Module} {a : Artifact} {imports : Imports}
    {ceiling : UInt64} {hardware : Hardware} {p : Prepared} (hm : Named m)
    (hp : instantiate? a imports ceiling hardware m = some p) {func : UInt32} {type : FuncType}
    (h : (m.funcTypes[func.toNat]?).bind (indexedType? m) = some type) :
    ∃ f, p.instance_.function? func = some f ∧ f.type = type := by
  obtain ⟨imported, defined, _, _, -, himported, hdefined, -, -, rfl⟩ := instantiate_eq_some.1 hp
  obtain ⟨index, hindex, htype⟩ := Option.bind_eq_some_iff.1 h
  have hmade := congrArg (·[func.toNat]?) (types_of_functions hm himported hdefined)
  simp only [List.getElem?_map, hindex, Option.map_some, htype, Option.map_eq_some_iff,
    Option.some.injEq] at hmade
  obtain ⟨f, hf, hftype⟩ := hmade
  exact ⟨f, List.getElem?_toArray.trans hf, hftype⟩

/-- The instance `p'` runs the functions of `p`, metered, and starts with the same storage. -/
structure Linked (plan : Plan) (m : Module) (p p' : Prepared) : Prop where
  instances : (metering plan).Instances m.funcTypes.length p.instance_ p'.instance_
  hook : p'.instance_.function? plan.hook = some .hook
  storage : p.storage.Agrees (shift plan.hook) nothing p'.storage

section
variable {plan : Plan} {m m' : Module} {extra : List Function} {a : Artifact}
  {imports : Imports} {ceiling : UInt64} {hardware : Hardware}

/-- Imported functions have no code to be metered. -/
theorem function_of_imported {imported : List Function} (h : imported? m imports = some imported)
    (T : Translation) : ∀ f ∈ imported, T.function f = f := by
  unfold imported? at h
  generalize importedTypes m = pairs at h
  induction pairs generalizing imported with
  | nil =>
    cases h
    simp
  | cons p pairs ih =>
    simp only [List.mapM_cons, Option.bind_eq_bind, Option.bind_eq_some_iff, Option.pure_def,
      Option.some.injEq] at h
    obtain ⟨f, hf, rest, hrest, rfl⟩ := h
    intro f' hf'
    rcases List.mem_cons.1 hf' with rfl | hf'
    · unfold hostFunction? at hf
      split at hf
      · split at hf <;> cases hf
        rfl
      · split at hf
        · cases hf
          rfl
        · split at hf <;> cases hf
          rfl
    · exact ih hrest f' hf'

theorem empty_agrees {provided : Option Memory} {st : Storage}
    (h : emptyStorage? m provided ceiling = some st) (g : UInt32 → UInt32) :
    st.Agrees g nothing st := by
  simp only [emptyStorage?, Option.bind_eq_bind, Option.bind_eq_some_iff, Option.pure_def,
    Option.some.injEq] at h
  obtain ⟨defined, -, rfl⟩ := h
  rw [Storage.agrees_nothing_iff, Storage.mapFunc]
  congr 1
  simp [definedTable, RefTable.mapFunc, Function.comp_def]

variable (hm : Meterable plan m) (hc : Carries plan m m' extra)
include hm hc

theorem Carries.linked {imported defined : List Function} {st st' : Storage}
    (himported : imported? m imports = some imported) (hdefined : defined? m = some defined)
    (hst : st.Agrees (shift plan.hook) nothing st') :
    Linked plan m (made a hardware m (imported ++ defined).toArray st)
      (made a hardware m' (imported ++ [Function.hook] ++
        (defined.map (metering plan).function ++ extra)).toArray st') := by
  have hhook := hm.toNat_hook
  have hlength : imported.length = m.importedFuncs.length :=
    (length_of_mapM himported).trans (length_importedTypes hm.named)
  have hcount := length_functions hm.named himported hdefined
  refine ⟨⟨fun func hfunc => ?_, fun index hindex => ?_, rfl, rfl⟩, ?_, hst⟩
  · have hlast : func ≠ 0xFFFFFFFF := by
      rintro rfl
      have hfuncs : m.funcTypes.length ≤ 1000000 := hm.named.funcs
      simp only [UInt32.reduceToNat] at hfunc
      omega
    have hshift := toNat_shift hlast plan.hook
    change (imported ++ [Function.hook] ++ (defined.map (metering plan).function ++
      extra)).toArray[(shift plan.hook func).toNat]? =
        ((imported ++ defined).toArray[func.toNat]?).map (metering plan).function
    simp only [List.getElem?_toArray, hshift]
    split
    · rw [List.getElem?_append_right (by simp; omega), List.getElem?_append_left (by simp; omega),
        List.getElem?_append_right (by omega), List.getElem?_map]
      congr 2
      simp only [List.length_append, List.length_cons, List.length_nil]
      omega
    · rw [List.append_assoc, List.getElem?_append_left (by omega),
        List.getElem?_append_left (by omega)]
      cases hf : imported[func.toNat]? with
      | none => rfl
      | some f =>
        rw [Option.map_some, function_of_imported himported _ f (List.mem_of_getElem? hf)]
  · have hlt : index.toNat < m.types.length := by
      obtain ⟨type, htype⟩ := Option.isSome_iff_exists.1 hindex
      obtain ⟨hlt, -⟩ := Array.getElem?_eq_some_iff.1 htype
      simpa [made] using hlt
    change (m'.types.map TypeEntry.type).toArray[index.toNat]? =
      (m.types.map TypeEntry.type).toArray[index.toNat]?
    simp only [List.getElem?_toArray, List.getElem?_map, hc.type_of_lt hlt]
  · change (imported ++ [Function.hook] ++ (defined.map (metering plan).function ++
      extra)).toArray[plan.hook.toNat]? = some .hook
    rw [List.getElem?_toArray, List.getElem?_append_left (by simp; omega),
      List.getElem?_append_right (by omega), hhook, hlength, Nat.sub_self]
    rfl

omit hm in
theorem Carries.fill_alike {st₀ : Storage} {provided : Option Memory}
    (h : emptyStorage? m provided ceiling = some st₀) :
    Alike (Storage.Agrees (shift plan.hook) nothing) (fun _ _ => True) (fill m st₀)
      (fill m' st₀) :=
  fill_agrees (empty_agrees h _) hc.globals hc.elements hc.datas

/-- What can be linked can be linked metered. -/
theorem Carries.exists_linked {p : Prepared}
    (h : instantiate? a imports ceiling hardware m = some p) :
    ∃ p', instantiate? a imports ceiling hardware m' = some p' ∧ Linked plan m p p' := by
  obtain ⟨imported, defined, st₀, st, hagrees, himported, hdefined, hst₀, hfill, rfl⟩ :=
    instantiate_eq_some.1 h
  have halike := hc.fill_alike hst₀
  rw [hfill] at halike
  cases hfill' : fill m' st₀ with
  | error t st' =>
    rw [hfill'] at halike
    cases halike
  | ok _ st' =>
    rw [hfill'] at halike
    cases halike with
    | ok _ hst =>
      refine ⟨_, instantiate_eq_some.2 ⟨imported ++ [.hook],
        defined.map (metering plan).function ++ extra, st₀, st', ?_, ?_, ?_, ?_, hfill', rfl⟩,
        hc.linked hm himported hdefined hst⟩
      · rw [hc.all_agrees hm, hagrees]
      · rw [hc.imported_eq hm, himported]
        rfl
      · rw [hc.defined_eq hm, hdefined]
        rfl
      · rw [hc.emptyStorage_eq, hst₀]

/-- What can be linked metered can be linked. -/
theorem Carries.exists_linked_back {p' : Prepared}
    (h : instantiate? a imports ceiling hardware m' = some p') :
    ∃ p, instantiate? a imports ceiling hardware m = some p ∧ Linked plan m p p' := by
  obtain ⟨imported', defined', st₀, st', hagrees, himported, hdefined, hst₀, hfill', rfl⟩ :=
    instantiate_eq_some.1 h
  rw [hc.all_agrees hm] at hagrees
  rw [hc.imported_eq hm, Option.map_eq_some_iff] at himported
  rw [hc.defined_eq hm, Option.map_eq_some_iff] at hdefined
  rw [hc.emptyStorage_eq] at hst₀
  obtain ⟨imported, himported, rfl⟩ := himported
  obtain ⟨defined, hdefined, rfl⟩ := hdefined
  have halike := hc.fill_alike hst₀
  rw [hfill'] at halike
  cases hfill : fill m st₀ with
  | error t st =>
    rw [hfill] at halike
    cases halike
  | ok _ st =>
    rw [hfill] at halike
    cases halike with
    | ok _ hst =>
      exact ⟨_, instantiate_eq_some.2 ⟨imported, defined, st₀, st, hagrees, himported, hdefined,
        hst₀, hfill, rfl⟩, hc.linked hm himported hdefined hst⟩

/-- The functions that the module has besides come last. -/
theorem Carries.function_extra {p' : Prepared}
    (h : instantiate? a imports ceiling hardware m' = some p') (k : Nat) :
    p'.instance_.functions[m.funcTypes.length + 1 + k]? = extra[k]? := by
  obtain ⟨_, _, _, _, -, himported, hdefined, -, -, rfl⟩ := instantiate_eq_some.1 h
  rw [hc.imported_eq hm, Option.map_eq_some_iff] at himported
  rw [hc.defined_eq hm, Option.map_eq_some_iff] at hdefined
  obtain ⟨imported, himported, rfl⟩ := himported
  obtain ⟨defined, hdefined, rfl⟩ := hdefined
  have hcount := length_functions hm.named himported hdefined
  change (imported ++ [Function.hook] ++ (defined.map (metering plan).function ++
    extra)).toArray[m.funcTypes.length + 1 + k]? = extra[k]?
  rw [List.getElem?_toArray, ← List.append_assoc, List.getElem?_append_right (by simp; omega)]
  congr 1
  simp only [List.length_append, List.length_map, List.length_singleton]
  omega

end

end MeteredWasm.Linking
