import Mathlib.Data.List.Basic
import MeteredWasm.Metering.Check
import MeteredWasm.Proofs.Basic
import MeteredWasm.Proofs.Module.Row
import MeteredWasm.Wasm.Module.Summary

/-!
# What a summary says about the module

A binary that can be decoded has a summary, made section by section of the decoded module
(`Summary.of_decode`). So what the summary says of types, functions, exports, memories and data is
what the items of the module say, in order.
-/

set_option autoImplicit false

namespace MeteredWasm

namespace Wasm

/-- What is collected item by item adds up. -/
theorem collect_foldl {σ α β : Type} (get : σ → List β) (add : σ → α → σ) (part : α → List β)
    (h : ∀ s x, get (add s x) = get s ++ part x) (xs : List α) (s : σ) :
    get (xs.foldl add s) = get s ++ xs.flatMap part := by
  induction xs generalizing s with
  | nil => simp
  | cons x xs ih => rw [List.foldl_cons, ih, h, List.flatMap_cons, List.append_assoc]

/-- The function that an import stands for, if it does. -/
def Import.function? (i : Import) : Option FunctionImport :=
  match i.type with
  | .func type | .funcPrecisely type => some ⟨i.module, i.name, type⟩
  | _ => none

/-- The memory that an import stands for, if it does. -/
def Import.memory? (i : Import) : Option MemoryInfo :=
  match i.type with
  | .memory type => some ⟨type.limits, type.shared, true⟩
  | _ => none

/-- Whether an import stands for a memory with 64-bit addresses. -/
def Import.isMemory64 (i : Import) : Bool :=
  match i.type with
  | .memory type => type.is64
  | _ => false

theorem Module.importedFuncs_eq (m : Module) :
    m.importedFuncs = (m.imports.filterMap Import.function?).map FunctionImport.type := by
  rw [Module.importedFuncs, List.map_filterMap]
  refine List.filterMap_congr fun i _ => ?_
  unfold Import.function?
  cases i.type <;> rfl

namespace Summary

variable (s : Summary)

theorem functionImports_addSection (sec : Section) :
    (s.addSection sec).functionImports = s.functionImports ++
      (match sec with
        | .imports items => items.filterMap Import.function?
        | _ => []) := by
  have himport (s : Summary) (i : Import) : (s.addImport i).functionImports =
      s.functionImports ++ i.function?.toList := by
    unfold addImport Import.function? addMemory
    cases i.type <;> simp
  have hmemory (s : Summary) (type : MemoryType) : (s.addMemory type false).functionImports =
      s.functionImports ++ [] := by simp [addMemory]
  have hexport (s : Summary) (e : Export) : (s.addExport e).functionImports =
      s.functionImports ++ [] := by simp [addExport]
  cases sec
  case imports items =>
    simp only [addSection, collect_foldl functionImports addImport _ himport,
      List.filterMap_eq_flatMap_toList]
  case memories items =>
    simp [addSection, collect_foldl functionImports _ _ hmemory]
  case exports items =>
    simp [addSection, collect_foldl functionImports _ _ hexport]
  all_goals simp [addSection]

theorem types_addSection (sec : Section) :
    (s.addSection sec).types = s.types ++
      (match sec with
        | .types items => items.map TypeEntry.type
        | _ => []) := by
  have himport (s : Summary) (i : Import) : (s.addImport i).types = s.types ++ [] := by
    unfold addImport addMemory
    cases i.type <;> simp
  have hmemory (s : Summary) (type : MemoryType) : (s.addMemory type false).types =
      s.types ++ [] := by simp [addMemory]
  have hexport (s : Summary) (e : Export) : (s.addExport e).types = s.types ++ [] := by
    simp [addExport]
  cases sec
  case imports items => simp [addSection, collect_foldl types _ _ himport]
  case memories items => simp [addSection, collect_foldl types _ _ hmemory]
  case exports items => simp [addSection, collect_foldl types _ _ hexport]
  all_goals simp [addSection]

theorem memories_addSection (sec : Section) :
    (s.addSection sec).memories = s.memories ++
      (match sec with
        | .imports items => items.filterMap Import.memory?
        | .memories items => items.map fun type => ⟨type.limits, type.shared, false⟩
        | _ => []) := by
  have himport (s : Summary) (i : Import) : (s.addImport i).memories =
      s.memories ++ i.memory?.toList := by
    unfold addImport Import.memory? addMemory
    cases i.type <;> simp
  have hmemory (s : Summary) (type : MemoryType) : (s.addMemory type false).memories =
      s.memories ++ [⟨type.limits, type.shared, false⟩] := rfl
  have hexport (s : Summary) (e : Export) : (s.addExport e).memories = s.memories ++ [] := by
    simp [addExport]
  cases sec
  case imports items =>
    simp only [addSection, collect_foldl memories addImport _ himport,
      List.filterMap_eq_flatMap_toList]
  case memories items =>
    simp only [addSection, collect_foldl memories _ _ hmemory, List.map_eq_flatMap]
  case exports items => simp [addSection, collect_foldl memories _ _ hexport]
  all_goals simp [addSection]

theorem data_addSection (sec : Section) :
    (s.addSection sec).data = s.data ++
      (match sec with
        | .data items => items.filterMap DataRange.of?
        | _ => []) := by
  have himport (s : Summary) (i : Import) : (s.addImport i).data = s.data ++ [] := by
    unfold addImport addMemory
    cases i.type <;> simp
  have hmemory (s : Summary) (type : MemoryType) : (s.addMemory type false).data =
      s.data ++ [] := by simp [addMemory]
  have hexport (s : Summary) (e : Export) : (s.addExport e).data = s.data ++ [] := by
    simp [addExport]
  cases sec
  case imports items => simp [addSection, collect_foldl data _ _ himport]
  case memories items => simp [addSection, collect_foldl data _ _ hmemory]
  case exports items => simp [addSection, collect_foldl data _ _ hexport]
  all_goals simp [addSection]

theorem functions_addSection (sec : Section) :
    (s.addSection sec).functions = s.functions ++
      (match sec with
        | .imports items => items.filterMap fun i => i.function?.map FunctionImport.type
        | .functions types => types
        | _ => []) := by
  have himport (s : Summary) (i : Import) : (s.addImport i).functions =
      s.functions ++ (i.function?.map FunctionImport.type).toList := by
    unfold addImport Import.function? addMemory
    cases i.type <;> simp
  have hmemory (s : Summary) (type : MemoryType) : (s.addMemory type false).functions =
      s.functions ++ [] := by simp [addMemory]
  have hexport (s : Summary) (e : Export) : (s.addExport e).functions = s.functions ++ [] := by
    simp [addExport]
  cases sec
  case imports items =>
    simp only [addSection, collect_foldl functions addImport _ himport,
      List.filterMap_eq_flatMap_toList]
  case memories items => simp [addSection, collect_foldl functions _ _ hmemory]
  case exports items => simp [addSection, collect_foldl functions _ _ hexport]
  all_goals simp [addSection]

theorem addRaw_of_ofRaw {raw : RawSection} {sec : Section}
    (h : Section.ofRaw? .full raw = some sec) (s : Summary) :
    s.addRaw raw = .ok (s.addSection sec) := by
  cases raw with
  | custom name contents =>
    cases h
    rfl
  | unknown id => cases h
  | known kind contents =>
    simp only [Section.ofRaw?] at h
    have hkind := Section.kind_of_ofContents h
    simp only [addRaw, h]
    -- Sections without a part in the summary add nothing.
    cases sec <;> cases hkind <;> rfl

theorem foldlM_addRaw {raws : List RawSection} {sections : List Section}
    (h : raws.mapM (Section.ofRaw? .full) = some sections) (s : Summary) :
    raws.foldlM addRaw s = .ok (sections.foldl addSection s) := by
  induction raws generalizing s sections with
  | nil =>
    cases h
    rfl
  | cons raw raws ih =>
    simp only [List.mapM_cons, Option.bind_eq_bind, Option.bind_eq_some_iff, Option.pure_def,
      Option.some.injEq] at h
    obtain ⟨sec, hsec, rest, hrest, rfl⟩ := h
    rw [List.foldlM_cons, addRaw_of_ofRaw hsec]
    exact ih hrest _

/-- What adding an item leaves alone, adding several does. -/
theorem foldl_eq_of_forall {σ α β : Type} (get : σ → β) (add : σ → α → σ)
    (h : ∀ s x, get (add s x) = get s) (items : List α) (s : σ) :
    get (items.foldl add s) = get s := by
  induction items generalizing s with
  | nil => rfl
  | cons x items ih => rw [List.foldl_cons, ih, h]

theorem start_addSection (s : Summary) (sec : Section) : (s.addSection sec).start =
    match sec with | .start func => some func | _ => s.start := by
  cases sec
  case imports items =>
    exact foldl_eq_of_forall Summary.start addImport
      (fun s x => by unfold addImport addMemory; cases x.type <;> rfl) items s
  case memories items =>
    exact foldl_eq_of_forall Summary.start (fun s type => s.addMemory type false) (fun _ _ => rfl)
      items s
  case exports items => exact foldl_eq_of_forall Summary.start addExport (fun _ _ => rfl) items s
  all_goals rfl

theorem start_foldl (sections : List Section) (s : Summary) :
    (sections.foldl addSection s).start = (Module.starts ⟨sections⟩).getLast?.or s.start := by
  induction sections generalizing s with
  | nil => rfl
  | cons sec sections ih =>
    have hstarts : Module.starts ⟨sec :: sections⟩ =
        (match sec with | .start func => [func] | _ => []) ++ Module.starts ⟨sections⟩ :=
      List.flatMap_cons ..
    rw [List.foldl_cons, ih, start_addSection, hstarts, List.getLast?_append]
    cases sec <;> simp

/-- An export takes the place of those of its name. -/
def insertExport (exports : List Export) (e : Export) : List Export :=
  exports.filter (·.name ≠ e.name) ++ [e]

theorem exports_addSection (s : Summary) (sec : Section) : (s.addSection sec).exports =
    (match sec with | .exports items => items | _ => []).foldl insertExport s.exports := by
  cases sec
  case imports items =>
    exact foldl_eq_of_forall Summary.exports addImport
      (fun s x => by unfold addImport addMemory; cases x.type <;> rfl) items s
  case memories items =>
    exact foldl_eq_of_forall Summary.exports (fun s type => s.addMemory type false) (fun _ _ => rfl)
      items s
  case exports items => exact (List.foldl_hom Summary.exports fun _ _ => rfl).symm
  all_goals rfl

theorem exports_foldl (sections : List Section) (s : Summary) :
    (sections.foldl addSection s).exports =
      (Module.exports ⟨sections⟩).foldl insertExport s.exports := by
  induction sections generalizing s with
  | nil => rfl
  | cons sec sections ih =>
    have hexports : Module.exports ⟨sec :: sections⟩ =
        (match sec with | .exports items => items | _ => []) ++ Module.exports ⟨sections⟩ :=
      List.flatMap_cons ..
    rw [List.foldl_cons, ih, exports_addSection, hexports, List.foldl_append]

theorem mem_of_insertExports {items exports : List Export} {e : Export}
    (h : e ∈ items.foldl insertExport exports) : e ∈ exports ∨ e ∈ items := by
  induction items generalizing exports with
  | nil => exact .inl h
  | cons x items ih =>
    rcases ih h with h | h
    · simp only [insertExport, List.mem_append, List.mem_filter, List.mem_singleton] at h
      rcases h with ⟨h, -⟩ | rfl
      · exact .inl h
      · exact .inr (List.mem_cons_self ..)
    · exact .inr (List.mem_cons_of_mem _ h)

theorem memory64_addSection (s : Summary) (sec : Section) : (s.addSection sec).memory64 =
    (s.memory64 ||
      (match sec with
        | .imports items => items.any Import.isMemory64
        | .memories items => items.any MemoryType.is64
        | _ => false)) := by
  cases sec
  case imports items =>
    simp only [addSection]
    induction items generalizing s with
    | nil => simp
    | cons i items ih =>
      rw [List.foldl_cons, ih, List.any_cons, ← Bool.or_assoc]
      congr 1
      unfold addImport Import.isMemory64 addMemory
      cases i.type <;> simp
  case memories items =>
    simp only [addSection]
    induction items generalizing s with
    | nil => simp
    | cons type items ih => rw [List.foldl_cons, ih, List.any_cons, addMemory, Bool.or_assoc]
  case exports items =>
    rw [Bool.or_false]
    exact foldl_eq_of_forall Summary.memory64 addExport (fun _ _ => rfl) items s
  all_goals simp [addSection]

theorem memory64_foldl (sections : List Section) (s : Summary) :
    (sections.foldl addSection s).memory64 = (s.memory64 ||
      ((Module.imports ⟨sections⟩).any Import.isMemory64 ||
        (Module.memories ⟨sections⟩).any MemoryType.is64)) := by
  induction sections generalizing s with
  | nil => simp [Module.imports, Module.memories]
  | cons sec sections ih =>
    rw [List.foldl_cons, ih, memory64_addSection]
    simp only [Module.imports, Module.memories, List.flatMap_cons, List.any_append]
    cases sec <;> simp [Bool.or_assoc, Bool.or_left_comm]

end Summary

section
variable {binary : Bytes} {s : Summary} {m : Module}

/-- A binary that can be decoded has a summary. -/
theorem Summary.of_decode (hm : Module.decode? .full binary = some m) :
    Summary.of binary = .ok (m.sections.foldl Summary.addSection .empty) := by
  unfold Module.decode? at hm
  unfold Summary.of
  split at hm
  · rename_i sections houtline
    obtain ⟨secs, hsecs, rfl⟩ := Option.map_eq_some_iff.1 hm
    simp only [houtline, foldlM_addRaw hsecs, if_true]
    rfl
  · cases hm

theorem summary_of_decode (hs : Summary.of binary = .ok s)
    (hm : Module.decode? .full binary = some m) :
    s = m.sections.foldl Summary.addSection .empty := by
  rw [Summary.of_decode hm] at hs
  cases hs
  rfl

theorem summary_functionImports (hs : Summary.of binary = .ok s)
    (hm : Module.decode? .full binary = some m) :
    s.functionImports = m.imports.filterMap Import.function? := by
  rw [summary_of_decode hs hm,
    collect_foldl Summary.functionImports _ _ Summary.functionImports_addSection, Module.imports,
    List.filterMap_flatMap]
  refine (List.nil_append _).trans (List.flatMap_congr fun sec _ => ?_)
  cases sec <;> rfl

theorem summary_types (hs : Summary.of binary = .ok s)
    (hm : Module.decode? .full binary = some m) : s.types = m.types.map TypeEntry.type := by
  rw [summary_of_decode hs hm, collect_foldl Summary.types _ _ Summary.types_addSection,
    Module.types, List.map_flatMap]
  refine (List.nil_append _).trans (List.flatMap_congr fun sec _ => ?_)
  cases sec <;> rfl

/-- In an ordered row what is imported comes before what is defined. -/
theorem flatMap_append_of_ordered {β : Type} {sections : List Section} {kind : SectionKind}
    {imported defined : Section → List β} (hord : Ordered sections)
    (hrank : SectionKind.imports.rank < kind.rank)
    (himported : ∀ s, s.kind? ≠ some .imports → imported s = [])
    (hdefined : ∀ s, s.kind? ≠ some kind → defined s = []) :
    sections.flatMap (fun s => imported s ++ defined s) =
      sections.flatMap imported ++ sections.flatMap defined := by
  induction sections with
  | nil => rfl
  | cons s sections ih =>
    obtain ⟨hbehind, hrest⟩ := ordered_cons.1 hord
    simp only [List.flatMap_cons, ih hrest]
    by_cases hkind : s.kind? = some kind
    · have hnone : sections.flatMap imported = [] :=
        List.flatMap_eq_nil_iff.2 fun t ht => himported t fun hkt => by
          have := hbehind kind hkind t ht .imports hkt
          omega
      rw [hnone]
      simp [himported s (by rw [hkind]; rintro ⟨⟩; omega)]
    · simp [hdefined s hkind]

/-- The functions of the summary are those of the module: as sections are in order, imports come
before what is defined. -/
theorem summary_functions (hs : Summary.of binary = .ok s)
    (hm : Module.decode? .full binary = some m) : s.functions = m.funcTypes := by
  rw [summary_of_decode hs hm, collect_foldl Summary.functions _ _ Summary.functions_addSection,
    Module.funcTypes, Module.importedFuncs_eq, List.map_filterMap, Module.imports,
    Module.functions, List.filterMap_flatMap]
  refine (List.nil_append _).trans ((List.flatMap_congr fun sec _ => ?_).trans
    (flatMap_append_of_ordered (ordered_of_decode hm)
      (show SectionKind.imports.rank < SectionKind.functions.rank by decide)
      (fun sec hk => ?_) fun sec hk => ?_))
  · cases sec <;> simp
  · cases sec <;> first | rfl | exact absurd rfl hk
  · cases sec <;> first | rfl | exact absurd rfl hk

/-- The ranges of the summary are those of the segments whose offset is a constant. -/
theorem summary_data (hs : Summary.of binary = .ok s)
    (hm : Module.decode? .full binary = some m) :
    s.data = m.datas.filterMap Summary.DataRange.of? := by
  rw [summary_of_decode hs hm, collect_foldl Summary.data _ _ Summary.data_addSection,
    Module.datas, List.filterMap_flatMap]
  refine (List.nil_append _).trans (List.flatMap_congr fun sec _ => ?_)
  cases sec <;> rfl

/-- The memories of the summary are those that the module imports and those that it defines. -/
theorem summary_memories (hs : Summary.of binary = .ok s)
    (hm : Module.decode? .full binary = some m) :
    s.memories = m.imports.filterMap Import.memory? ++
      m.memories.map fun type => ⟨type.limits, type.shared, false⟩ := by
  rw [summary_of_decode hs hm, collect_foldl Summary.memories _ _ Summary.memories_addSection,
    Module.imports, Module.memories, List.filterMap_flatMap, List.map_flatMap]
  refine (List.nil_append _).trans ((List.flatMap_congr fun sec _ => ?_).trans
    (flatMap_append_of_ordered (ordered_of_decode hm)
      (show SectionKind.imports.rank < SectionKind.memories.rank by decide)
      (fun sec hk => ?_) fun sec hk => ?_))
  · cases sec <;> simp
  · cases sec <;> first | rfl | exact absurd rfl hk
  · cases sec <;> first | rfl | exact absurd rfl hk

theorem filterMap_memory (m : Module) : m.imports.filterMap Import.memory? =
    m.importedMemories.map fun type => ⟨type.limits, type.shared, true⟩ := by
  rw [Module.importedMemories, List.map_filterMap]
  refine List.filterMap_congr fun i _ => ?_
  unfold Import.memory?
  cases i.type <;> rfl

/-- The summary says which memories are imported. -/
theorem summary_memories_filter (hs : Summary.of binary = .ok s)
    (hm : Module.decode? .full binary = some m) :
    s.memories.filter (·.isImported) =
        m.importedMemories.map (fun type => ⟨type.limits, type.shared, true⟩) ∧
      s.memories.filter (!·.isImported) =
        m.memories.map fun type => ⟨type.limits, type.shared, false⟩ := by
  rw [summary_memories hs hm, filterMap_memory]
  simp [List.filter_map, Function.comp_def]

/-- A single memory of the summary is that of the module. -/
theorem memoryType_of_summary (hs : Summary.of binary = .ok s)
    (hm : Module.decode? .full binary = some m) {memory : MemoryInfo}
    (h : s.memories = [memory]) : ∃ type, m.memoryTypes = [type] ∧
      type.limits = memory.limits ∧ type.shared = memory.isShared := by
  have hpairs : m.memoryTypes.map (fun type => (type.limits, type.shared)) =
      s.memories.map fun info => (info.limits, info.isShared) := by
    rw [summary_memories hs hm, filterMap_memory, Module.memoryTypes]
    simp [Function.comp_def]
  rw [h] at hpairs
  obtain ⟨type, htype, hpair⟩ := List.map_eq_singleton_iff.1 hpairs
  exact ⟨type, htype, congrArg Prod.fst hpair, congrArg Prod.snd hpair⟩

theorem summary_memory64 (hs : Summary.of binary = .ok s)
    (hm : Module.decode? .full binary = some m) :
    s.memory64 = (m.imports.any Import.isMemory64 || m.memories.any MemoryType.is64) := by
  rw [summary_of_decode hs hm, Summary.memory64_foldl]
  exact Bool.false_or _

theorem summary_start (hs : Summary.of binary = .ok s)
    (hm : Module.decode? .full binary = some m) : s.start = m.starts.getLast? := by
  rw [summary_of_decode hs hm, Summary.start_foldl]
  exact Option.or_none

/-- A module without a start function in its summary has none. -/
theorem starts_of_summary (hs : Summary.of binary = .ok s)
    (hm : Module.decode? .full binary = some m) (h : s.start = none) : m.starts = [] :=
  List.getLast?_eq_none_iff.1 ((summary_start hs hm).symm.trans h)

theorem summary_exports (hs : Summary.of binary = .ok s)
    (hm : Module.decode? .full binary = some m) :
    s.exports = m.exports.foldl Summary.insertExport [] := by
  rw [summary_of_decode hs hm, Summary.exports_foldl]
  rfl

/-- Exports of the summary are exports of the module. -/
theorem mem_exports_of_summary (hs : Summary.of binary = .ok s)
    (hm : Module.decode? .full binary = some m) : ∀ e ∈ s.exports, e ∈ m.exports := by
  intro e he
  rw [summary_exports hs hm] at he
  exact (Summary.mem_of_insertExports he).resolve_left List.not_mem_nil

end

end Wasm

/-! ## Checks -/

namespace Metering

open Wasm

/-- What the checks ask for before they look at the data. -/
structure Suitable (options : Options) (s : Summary) (memory : MemoryInfo) : Prop where
  entry : checkEntry options.entry s = .ok ()
  start : s.start = none
  memories : s.memories = [memory]
  memory64 : s.memory64 = false
  /-- The ceiling allows the size that memory starts with. -/
  limits : memory.limits.min ≤ memory.limits.capped options.memoryMaxPages
  /-- The hook is not imported. -/
  reserved : ∀ i ∈ s.functionImports, ¬(i.module = hookModule ∧ i.name = hookName)

/-- What the checks let through. -/
structure Checked (options : Options) (s : Summary) (memory : MemoryInfo) : Prop
    extends Suitable options s memory where
  /-- No segment with a constant offset reaches into the reserved range. -/
  clear : ∀ d ∈ s.data, overlaps options.controlBlock d = false

theorem checked_of_check {options : Options} {s : Summary} {memory : MemoryInfo}
    (h : check options s = .ok memory) : Checked options s memory := by
  simp only [check, except_bind_eq_ok, except_guard_eq_ok] at h
  obtain ⟨_, hentry, hstart, memory', hmemory, hmemory64, hlimits, hreserved, h⟩ := h
  split at h
  · cases h
  rename_i hclear
  cases h
  refine ⟨⟨hentry, by simpa using hstart, ?_, by simpa using hmemory64, UInt64.not_lt.1 hlimits,
    fun i hi hkey => ?_⟩, fun d hd => ?_⟩
  · unfold checkMemory at hmemory
    split at hmemory <;> cases hmemory
    assumption
  · exact hreserved (List.any_eq_true.2 ⟨i, hi, by simpa using hkey⟩)
  · simpa using List.find?_eq_none.1 hclear d hd

end Metering

end MeteredWasm
