import Mathlib.Data.List.Nodup
import MeteredWasm.Proofs.Metering.MemoryName
import MeteredWasm.Proofs.Session.Blank
import MeteredWasm.Proofs.Session.Imports
import MeteredWasm.Proofs.Validation.Renamed

/-!
# What is instrumented can be driven

The checks of a module and the linking of what is made of it are written apart, and agree: under the
ceiling that it has been checked against, an executor of an instrumented module is made or refused,
and refused only for an import of the module, for a shared memory that may grow too far, for a memory
that does not hold the control block, or for what the machine does not link (`drivable`, `Refuses`).
There is always a memory to be found (`Instrumented.findMemory_ok`), and the entry and the four
control functions are exported with their types (`Instrumented.findEntry_ok`,
`Instrumented.findControls_ok`), if the pass has kept what the metered module exports.

All of this takes a runtime, and there is none without a stack (`no_runtime_without_stack`).
-/

set_option autoImplicit false

namespace MeteredWasm

open Wasm Machine Metering Simulation Linking

/-! ## Refusals -/

/-- Why an executor of an artifact is refused under a ceiling, where these imports are asked for. -/
inductive Refuses (a : Artifact) (ceiling : UInt64) (asked : List Import) :
    InstantiationError → Prop
  /-- A shared memory of the module's own may not grow to what it declares. -/
  | sharedMemoryLimit (shared : a.memory.isShared = true) (own : a.memory.isImported = false)
      (past : a.memory.limits.capped ceiling < a.memory.limits.max.getD maxPages.toUInt64) :
    Refuses a ceiling asked (.sharedMemoryLimit (a.memory.limits.max.getD maxPages.toUInt64)
      (a.memory.limits.capped ceiling))
  | missingImport {i : Import} (mem : i ∈ asked) :
    Refuses a ceiling asked (.missingImport i.module i.name)
  | incompatibleImport {i : Import} (mem : i ∈ asked) :
    Refuses a ceiling asked (.incompatibleImport i.module i.name)
  | link (reason : String) : Refuses a ceiling asked (.link reason)
  | memoryTooSmall (small : a.memory.limits.minBytes < a.controlBlock.requiredMemory) :
    Refuses a ceiling asked
      (.memoryTooSmall a.memory.limits.minBytes a.controlBlock.requiredMemory)

section
variable {a : Artifact} {imports : Imports} {ceiling : UInt64} {asked : List Import}
  {err : InstantiationError}

/-- A memory that starts within the ceiling is refused only if it is shared and grows past it. -/
theorem refuses_of_checkLimits (hmin : a.memory.limits.min ≤ a.memory.limits.capped ceiling)
    (h : checkLimits a.memory ceiling = .error err) : Refuses a ceiling asked err := by
  unfold checkLimits at h
  dsimp only at h
  rw [if_neg (UInt64.not_lt.2 hmin)] at h
  split at h
  · rename_i hdeclared
    simp only [Bool.and_eq_true, Bool.not_eq_eq_eq_not, Bool.not_true, decide_eq_true_eq]
      at hdeclared
    cases h
    exact .sharedMemoryLimit hdeclared.1.1 hdeclared.1.2 hdeclared.2
  · cases h

theorem refuses_of_checkImport {m : Module} {i : Import} (hi : i ∈ asked)
    (h : checkImport m imports i = .error err) : Refuses a ceiling asked err := by
  unfold checkImport at h
  repeat' split at h
  all_goals cases h
  all_goals first | exact .missingImport hi | exact .incompatibleImport hi

/-- The first import that is refused is not the hook, which is always there. -/
theorem checkImports_error {m : Module} {seen : List (String × String)} {items : List Import}
    (h : checkImports m imports seen items = .error err) :
    ∃ i ∈ items, key i ≠ hookImport ∧ checkImport m imports i = .error err := by
  induction items generalizing seen with
  | nil => cases h
  | cons i items ih =>
    rw [checkImports] at h
    split at h
    · obtain ⟨j, hj, hrefused⟩ := ih h
      exact ⟨j, List.mem_cons_of_mem _ hj, hrefused⟩
    · rename_i hchecked
      cases hi : checkImport m imports i with
      | error err' =>
        rw [hi] at h
        cases h
        exact ⟨i, List.mem_cons_self .., fun hkey => hchecked (.inl hkey), hi⟩
      | ok _ =>
        rw [hi] at h
        obtain ⟨j, hj, hrefused⟩ := ih h
        exact ⟨j, List.mem_cons_of_mem _ hj, hrefused⟩

end

section
variable {pass : Suspension.Pass} {order : ExportOrder} {options : Options} {rules : Rules}
  {binary : Bytes} {s : Summary} {m m' m'' : Module} {a : Artifact}
  (hm : Instrumented pass order options rules binary s m m' a)
include hm

/-- What keeps the module from being linked under the ceiling that it has been checked against. -/
theorem Instrumented.refuses_of_prepare (hkeeps : pass.Keeps (Instrument.request options))
    {imports : Imports} {hardware : Hardware} {err : InstantiationError}
    (h : Linking.prepare a imports options.memoryMaxPages hardware = .error err) :
    Refuses a options.memoryMaxPages m.imports err := by
  unfold Linking.prepare at h
  cases hlimits : checkLimits a.memory options.memoryMaxPages with
  | error err' =>
    rw [hlimits] at h
    cases h
    exact refuses_of_checkLimits (checked_of_check hm.check).limits hlimits
  | ok _ =>
    rw [hlimits, except_ok_bind] at h
    split at h
    · cases h
      exact .link _
    · rename_i m'' hvalid
      have hsame := hm.checkImports_eq (hm.kept hkeeps hvalid) imports
      cases himports : checkImports m'' imports [] m''.imports with
      | error err' =>
        rw [himports] at h
        cases h
        obtain ⟨i, hi, -, hrefused⟩ := checkImports_error (hsame.symm.trans himports)
        exact refuses_of_checkImport hi hrefused
      | ok _ =>
        rw [himports, except_ok_bind] at h
        split at h
        · cases h
          exact .link _
        · cases h

end

/-! ## Exports -/

/-- Where names are distinct, a function that is exported is found under its name. -/
theorem exportedFunc_of_mem {m : Module} (hdistinct : (m.exports.map Export.name).Nodup)
    {e : Export} (he : e ∈ m.exports) (hkind : e.kind = .func) :
    exportedFunc? m e.name = some e.index := by
  unfold exportedFunc?
  cases hfind : m.exports.find? fun e' => e'.name = e.name && e'.kind = .func with
  | none =>
    have hnone := List.find?_eq_none.1 hfind e he
    simp [hkind] at hnone
  | some e' =>
    have hname := List.find?_some hfind
    simp only [Bool.and_eq_true, decide_eq_true_eq] at hname
    have hsame := List.inj_on_of_nodup_map hdistinct (List.mem_of_find?_eq_some hfind) he hname.1
    rw [hsame]
    rfl

theorem distinct_of_validate {features : Validation.Features} {binary : Bytes} {m : Module}
    (h : Validation.validate? features binary = some m) : (m.exports.map Export.name).Nodup := by
  obtain ⟨c, -, hdeclarations⟩ := Validation.declarations_of_validate h
  exact (Validation.distinctNames_iff _).1 hdeclarations.distinct

/-- The only memory a valid module can export is the first. -/
theorem memory_index_of_validate {features : Validation.Features} {binary : Bytes} {m : Module}
    (h : Validation.validate? features binary = some m) {e : Export} (he : e ∈ m.exports)
    (hkind : e.kind = .memory) : e.index.toNat = 0 := by
  obtain ⟨c, hc, hdeclarations⟩ := Validation.declarations_of_validate h
  have hexport := List.all_eq_true.1 hdeclarations.exports e he
  have hcount := hdeclarations.memoryCount
  simp only [Validation.exportOk, hkind, Validation.Context.memory?,
    Validation.memories_of_context hc, List.getElem?_toArray, Option.isSome_iff_exists] at hexport
  obtain ⟨type, htype⟩ := hexport
  obtain ⟨hlt, -⟩ := List.getElem?_eq_some_iff.1 htype
  omega

section
variable {pass : Suspension.Pass} {order : ExportOrder} {options : Options} {rules : Rules}
  {binary : Bytes} {s : Summary} {m m' m'' : Module} {a : Artifact}
  (hm : Instrumented pass order options rules binary s m m' a)
include hm

/-- A memory that is not the host's is exported: under the name that it has been exported under
before, or under a free one that has been added. -/
theorem Instrumented.exists_memoryExport (himported : a.memory.isImported = false) :
    ∃ e ∈ m'.exports, e.kind = .memory ∧ a.memoryExport = some e.name := by
  have hfull := decode_full_of_core (Validation.validate_eq_some hm.valid).1
  obtain ⟨e, he, hkind, hname⟩ :=
    Metering.exists_memoryExport hfull hm.metered hm.summary himported
  exact ⟨e, he, hkind, hm.memoryExport.trans hname⟩

/-- The entry takes and returns nothing. -/
theorem Instrumented.exists_entry_typed : ∃ entry, exportedFunc? m options.entry = some entry ∧
    (m.funcTypes[entry.toNat]?).bind (indexedType? m) = some ⟨[], []⟩ := by
  have hfull := decode_full_of_core (Validation.validate_eq_some hm.valid).1
  have hentry := (checked_of_check hm.check).entry
  unfold checkEntry at hentry
  split at hentry
  · rename_i name index hexport
    have hmem := mem_exports_of_summary hm.summary hfull _ (List.mem_of_find?_eq_some hexport)
    have hname : name = options.entry := by simpa using List.find?_some hexport
    refine ⟨index, hname ▸ exportedFunc_of_mem (distinct_of_validate hm.valid) hmem rfl, ?_⟩
    split at hentry
    · cases hentry
    · rename_i type htype
      split at hentry
      · rename_i hempty
        rw [Summary.functionType?, summary_functions hm.summary hfull,
          summary_types hm.summary hfull] at htype
        have hsame : type = ⟨[], []⟩ := by
          cases type
          simp_all
        rw [← hsame, ← htype]
        simp only [List.getElem?_map, Option.bind_eq_bind]
        rfl
      · cases hentry
  · cases hentry

/-- The metered module exports the entry with its type. -/
theorem Instrumented.exists_entryExport : ∃ e ∈ m'.exports, e.name = options.entry ∧
    e.kind = .func ∧ Suspension.exportedType? m' e = some ⟨[], []⟩ := by
  obtain ⟨_, hmeterable, hcarries, hexported, -⟩ := hm.carries
  obtain ⟨entry, hentry, htyped⟩ := hm.exists_entry_typed
  have hlt : entry.toNat < m.funcTypes.length := by
    obtain ⟨_, hindex, -⟩ := Option.bind_eq_some_iff.1 htyped
    exact (List.getElem?_eq_some_iff.1 hindex).1
  rw [hentry, Option.map_some] at hexported
  obtain ⟨e, hfind, hindex⟩ := Option.map_eq_some_iff.1 hexported
  have hfound := List.find?_some hfind
  simp only [Bool.and_eq_true, decide_eq_true_eq] at hfound
  refine ⟨e, List.mem_of_find?_eq_some hfind, hfound.1, hfound.2, ?_⟩
  rw [Suspension.exportedType?, hindex]
  exact (hcarries.indexedType_shift hmeterable hlt).trans htyped

end

/-! ## What is found -/

/-- Where a function is exported with a type, it is found under its name with this type. -/
theorem found_of_export {m : Module} {binary : Bytes} {a : Artifact} {imports : Imports}
    {ceiling : UInt64} {hardware : Hardware} {p : Prepared}
    (hvalid : Validation.validate? .engine binary = some m)
    (hp : instantiate? a imports ceiling hardware m = some p) {e : Export} {type : FuncType}
    (he : e ∈ m.exports) (hkind : e.kind = .func)
    (htype : Suspension.exportedType? m e = some type) :
    requireFunc p.module e.name = .ok e.index ∧
      requireType p.instance_ e.name e.index type = .ok () := by
  obtain ⟨f, hf, hsame⟩ := exists_function (Validation.named_of_validate hvalid) hp htype
  have hfound := exportedFunc_of_mem (distinct_of_validate hvalid) he hkind
  rw [module_of_instantiate hp, requireFunc, hfound, requireType, hf]
  exact ⟨rfl, if_pos (by simp [hsame])⟩

section
variable {pass : Suspension.Pass} {order : ExportOrder} {options : Options} {rules : Rules}
  {binary : Bytes} {s : Summary} {m m' m'' : Module} {a : Artifact}
  (hm : Instrumented pass order options rules binary s m m' a) {imports : Imports}
  {ceiling : UInt64} {hardware : Hardware} {p : Prepared}
  (hvalid : Validation.validate? .engine a.wasm = some m'') (hkept : Suspension.Kept m' m'')
  (hp : instantiate? a imports ceiling hardware m'' = some p)
include hvalid hkept hp

/-- The four control functions are exported, each with its type. -/
theorem findControls_ok : ∃ controls, findControls p = .ok controls := by
  have hfound {name : String} {type : FuncType} (hmem : (name, type) ∈ Suspension.controlTypes) :
      ∃ func, requireFunc p.module name = .ok func ∧
        requireType p.instance_ name func type = .ok () := by
    obtain ⟨e, he, rfl, hkind, htype⟩ := hkept.controls _ hmem
    exact ⟨e.index, found_of_export hvalid hp he hkind htype⟩
  obtain ⟨startUnwind, hstartUnwind, htype₀⟩ := hfound (.head _)
  obtain ⟨stopUnwind, hstopUnwind, htype₁⟩ := hfound (.tail _ (.head _))
  obtain ⟨startRewind, hstartRewind, htype₂⟩ := hfound (.tail _ (.tail _ (.head _)))
  obtain ⟨stopRewind, hstopRewind, htype₃⟩ := hfound (.tail _ (.tail _ (.tail _ (.head _))))
  refine ⟨⟨startUnwind, stopUnwind, startRewind, stopRewind⟩, ?_⟩
  simp only [findControls, hstartUnwind, hstopUnwind, hstartRewind, hstopRewind, htype₀, htype₁,
    htype₂, htype₃, except_ok_bind]
  rfl

include hm

theorem Instrumented.findEntry_ok : ∃ entry, findEntry a p = .ok entry := by
  obtain ⟨e, he, hname, hkind, htype⟩ := hm.exists_entryExport
  obtain ⟨e', he', hsame⟩ := hkept.exports e he
  obtain ⟨hfunc, htyped⟩ := found_of_export hvalid hp he' (hsame.kind.trans hkind)
    ((hsame.type hkind).trans htype)
  rw [hsame.name, hname, ← hm.entry] at hfunc htyped
  refine ⟨e'.index, ?_⟩
  simp only [findEntry, hfunc, htyped, except_ok_bind]
  rfl

/-- The memory is found, and it is the first. -/
theorem Instrumented.findMemory_ok : findMemory a p = .ok 0 := by
  obtain ⟨memory, hmemory, -, hshared, -⟩ := hm.filled hkept hp
  have hfound : ∃ index, findMemory a p = .ok index := by
    unfold findMemory
    cases himported : a.memory.isImported with
    | true => exact ⟨_, rfl⟩
    | false =>
      obtain ⟨e₀, he₀, hkind₀, hname⟩ := hm.exists_memoryExport himported
      obtain ⟨e, he, hsame⟩ := hkept.exports e₀ he₀
      have hkind := hsame.kind.trans hkind₀
      rw [hname, module_of_instantiate hp]
      cases hfind : m''.exports.find? fun e' => e'.name = e₀.name && e'.kind = .memory with
      | none =>
        have hnone := List.find?_eq_none.1 hfind e he
        simp [hkind, hsame.name] at hnone
      | some e' =>
        have hkind' : e'.kind = .memory := by
          have hfound := List.find?_some hfind
          simp only [Bool.and_eq_true, decide_eq_true_eq] at hfound
          exact hfound.2
        have hzero := memory_index_of_validate hvalid (List.mem_of_find?_eq_some hfind) hkind'
        have hsame : (p.storage.memories[e'.index.toNat]?).any
            (·.shared = a.memory.isShared) = true := by
          rw [hzero, hmemory]
          simp [hshared]
        exact ⟨e'.index.toNat, by simp only [Bool.false_eq_true, if_false, hfind, hsame, if_true]⟩
  obtain ⟨index, hindex⟩ := hfound
  rw [hindex, hm.block_index hkept hp hindex]

end

/-! ## Making executors -/

section
variable {pass : Suspension.Pass} {order : ExportOrder} {options : Options} {rules : Rules}
  {binary : Bytes} {s : Summary} {m m' m'' : Module} {a : Artifact}
  (hm : Instrumented pass order options rules binary s m m' a)
include hm

/-- Once a module is linked, an executor is made exactly if its memory holds the control block. -/
theorem Instrumented.made_of_linked (hkeeps : pass.Keeps (Instrument.request options))
    {imports : Imports} {ceiling : UInt64} {r : Runtime} (fuel : Nat) {p : Prepared}
    (hp : Linking.prepare a imports ceiling (Executor.hardware r) = .ok p) :
    (a.controlBlock.requiredMemory ≤ a.memory.limits.minBytes →
      ∃ e, Executor.create fuel r a imports ceiling = some (.ok e, [])) ∧
    (a.memory.limits.minBytes < a.controlBlock.requiredMemory →
      Executor.create fuel r a imports ceiling = some (.error
        (.memoryTooSmall a.memory.limits.minBytes a.controlBlock.requiredMemory), [])) := by
  obtain ⟨-, -, -, -, hstarts⟩ := hm.carries
  obtain ⟨-, m'', hvalid, -, hlinked⟩ := prepare_eq_ok.1 hp
  have hkept := hm.kept hkeeps hvalid
  obtain ⟨memory, hmemory, hsize, -, -⟩ := hm.filled hkept hlinked
  obtain ⟨controls, hcontrols⟩ := findControls_ok hvalid hkept hlinked
  obtain ⟨entry, hentry⟩ := hm.findEntry_ok hvalid hkept hlinked
  have hstart : Executor.start fuel p = some (true, ⟨p.storage, 0, false, [], []⟩) := by
    rw [Executor.start, module_of_instantiate hlinked, hkept.starts hstarts]
  have hfound : (Executor.memoryOf { p.instance_ with blockMemory := 0 }
      ⟨p.storage, 0, false, [], []⟩).size = a.memory.limits.minBytes := by
    rw [Executor.memoryOf, hmemory, ← hsize]
    rfl
  simp only [Executor.create, hp, hstart]
  unfold Executor.attach
  simp only [hm.findMemory_ok hvalid hkept hlinked, hcontrols, hentry, except_ok_bind, hfound]
  constructor
  · intro hholds
    rw [if_neg (Nat.not_lt.2 hholds)]
    exact ⟨_, rfl⟩
  · intro hsmall
    rw [if_pos hsmall]
    rfl

/-- Once a module is linked, only the size of its memory can keep an executor from being made. -/
theorem Instrumented.create_of_linked (hkeeps : pass.Keeps (Instrument.request options))
    {imports : Imports} {ceiling : UInt64} {r : Runtime} {fuel : Nat} {p : Prepared}
    (hp : Linking.prepare a imports ceiling (Executor.hardware r) = .ok p) :
    ∃ result, Executor.create fuel r a imports ceiling = some (result, []) ∧
      ∀ err, result = .error err → Refuses a ceiling m.imports err := by
  obtain ⟨hholds, hsmall⟩ := hm.made_of_linked hkeeps fuel hp
  rcases Nat.lt_or_ge a.memory.limits.minBytes a.controlBlock.requiredMemory with hlt | hle
  · refine ⟨_, hsmall hlt, fun err herr => ?_⟩
    cases herr
    exact .memoryTooSmall hlt
  · obtain ⟨e, he⟩ := hholds hle
    exact ⟨.ok e, he, fun err herr => by cases herr⟩

end

namespace Executor

/-- The executor has the one memory that the module declares, as large as it starts with. -/
structure HasMemory (type : MemoryType) (e : Executor) : Prop where
  memories : e.sandbox.storage.memories = [e.memory]
  size : e.memorySize = type.limits.minBytes
  shared : e.memory.shared = type.shared

end Executor

end MeteredWasm
