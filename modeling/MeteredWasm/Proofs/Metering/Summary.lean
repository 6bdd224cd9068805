import MeteredWasm.Proofs.Metering.InPlace

/-!
# The summary of a metered module

The summary of a metered module is that of the module with the hook put in: its type behind the
types, its import behind the imported functions, and every function from there on moved up by one
(`summary_of_meter`). So a function has the type it had, and as the hook is imported, no metered
module passes the checks once more.
-/

set_option autoImplicit false

namespace MeteredWasm.Metering

open Wasm Leb128

attribute [ext] Summary

/-- What metering makes of a summary. -/
def meteredSummary (s : Summary) (memoryExport : Option String) : Summary where
  types := s.types ++ [⟨[.i32], []⟩]
  functionImports := s.functionImports ++ [⟨hookModule, hookName, s.types.length.toUInt32⟩]
  functions := s.functions.insertIdx s.functionImports.length s.types.length.toUInt32
  exports := s.exports.map (Export.mapFunc (shift s.hookIndex)) ++
    memoryExport.toList.map (⟨·, .memory, 0⟩)
  memories := s.memories
  memory64 := s.memory64
  data := s.data
  start := s.start.map (shift s.hookIndex)

/-! ## Exports -/

section
variable (f : UInt32 → UInt32)

theorem insertExport_map (exports : List Export) (e : Export) :
    Summary.insertExport (exports.map (Export.mapFunc f)) (e.mapFunc f) =
      (Summary.insertExport exports e).map (Export.mapFunc f) := by
  simp only [Summary.insertExport, List.filter_map, List.map_append, List.map_cons, List.map_nil,
    Function.comp_def, Export.name_mapFunc]

theorem foldl_insertExport_map (items exports : List Export) :
    (items.map (Export.mapFunc f)).foldl Summary.insertExport (exports.map (Export.mapFunc f)) =
      (items.foldl Summary.insertExport exports).map (Export.mapFunc f) := by
  induction items generalizing exports with
  | nil => rfl
  | cons e items ih => rw [List.map_cons, List.foldl_cons, insertExport_map, ih, List.foldl_cons]

end

/-- An export of a new name takes no place of another. -/
theorem insertExport_of_new {exports : List Export} {e : Export}
    (h : ∀ x ∈ exports, x.name ≠ e.name) : Summary.insertExport exports e = exports ++ [e] := by
  rw [Summary.insertExport, List.filter_eq_self.2 fun x hx => decide_eq_true (h x hx)]

/-! ## Data -/

theorem DataRange.of_mapFunc (f : UInt32 → UInt32) (d : Data) :
    Summary.DataRange.of? (d.mapFunc f) = Summary.DataRange.of? d := by
  obtain ⟨mode, bytes⟩ := d
  cases mode with
  | passive => rfl
  | active memory offset =>
    cases offset with
    | nil => rfl
    | cons op ops => cases op <;> rfl

/-! ## The summary -/

theorem insertIdx_length_append {α : Type} (front back : List α) (x : α) :
    (front ++ back).insertIdx front.length x = front ++ x :: back := by
  induction front with
  | nil => exact List.insertIdx_zero
  | cons y front ih =>
    rw [List.cons_append, List.length_cons, List.insertIdx_succ_cons, ih, List.cons_append]

section
variable {rules : Rules} {memoryExport : Option String} {binary : Bytes} {s s' : Summary}
  {m m' : Module}

/-- The functions that are imported, and those that the module defines. -/
theorem functions_of_summary (hs : Summary.of binary = .ok s)
    (hm : Module.decode? .full binary = some m) :
    s.functions = s.functionImports.map FunctionImport.type ++ m.functions := by
  rw [summary_functions hs hm, Module.funcTypes, Module.importedFuncs_eq,
    summary_functionImports hs hm]

/-- Metering a module and taking its summary come to the same in either order. -/
theorem summary_eq_of_meter (hs : Summary.of binary = .ok s)
    (hm : Module.decode? .full binary = some m)
    (hmeter : meterModule? (.of s rules memoryExport) m = some m')
    (hs' : Summary.of m'.encode = .ok s') (hm' : Module.decode? .full m'.encode = some m')
    (hnew : ∀ name ∈ memoryExport, s.export? name = none) :
    s' = meteredSummary s memoryExport := by
  have hitems := items_of_meter (ordered_of_decode hm) hmeter
  have himports : s'.functionImports =
      s.functionImports ++ [⟨hookModule, hookName, s.types.length.toUInt32⟩] := by
    rw [summary_functionImports hs' hm', hitems.imports, List.filterMap_append,
      ← summary_functionImports hs hm]
    rfl
  ext1
  case types =>
    rw [summary_types hs' hm', hitems.types, List.map_append, ← summary_types hs hm]
    rfl
  case functionImports => exact himports
  case functions =>
    have hlength : s.functionImports.length =
        (s.functionImports.map FunctionImport.type).length := (List.length_map _).symm
    rw [functions_of_summary hs' hm', himports, hitems.functions, meteredSummary,
      functions_of_summary hs hm, hlength, insertIdx_length_append, List.map_append,
      List.append_assoc]
    rfl
  case exports =>
    have hmapped := foldl_insertExport_map (shift s.hookIndex) m.exports []
    rw [← summary_exports hs hm] at hmapped
    rw [summary_exports hs' hm', hitems.exports, List.foldl_append]
    change List.foldl _ ((m.exports.map (Export.mapFunc (shift s.hookIndex))).foldl _ _) _ = _
    rw [List.map_nil] at hmapped
    rw [hmapped]
    cases memoryExport with
    | none => exact (List.append_nil _).symm
    | some name =>
      -- The name is new among the exports, which keep theirs.
      refine insertExport_of_new fun x hx => ?_
      obtain ⟨e, he, rfl⟩ := List.mem_map.1 hx
      have hne := List.find?_eq_none.1 (hnew name rfl) e he
      rw [Export.name_mapFunc]
      simpa using hne
  case memories =>
    -- The import that is added is a function, and brings no memory.
    change s'.memories = s.memories
    rw [summary_memories hs' hm', hitems.imports, hitems.memories, List.filterMap_append,
      summary_memories hs hm]
    exact congrArg (· ++ _) (List.append_nil _)
  case memory64 =>
    change s'.memory64 = s.memory64
    rw [summary_memory64 hs' hm', hitems.imports, hitems.memories, List.any_append,
      summary_memory64 hs hm]
    exact congrArg (· || _) (Bool.or_false _)
  case data =>
    change s'.data = s.data
    rw [summary_data hs' hm', hitems.datas, List.filterMap_map, summary_data hs hm]
    exact List.filterMap_congr fun d _ => DataRange.of_mapFunc _ d
  case start =>
    rw [summary_start hs' hm', hitems.starts, List.getLast?_map, ← summary_start hs hm]
    rfl

end

/-! ## Functions and their types -/

section
variable {sections : List Section}

/-- Items that take two bytes each when they are written down are fewer than half as many as bytes
that a section can have. -/
theorem two_mul_length_lt {α : Type} {get : Section → List α} (kind : SectionKind)
    (write : α → Bytes) (hord : Ordered sections) (other : ∀ s, s.kind? ≠ some kind → get s = [])
    (hcontents : ∀ s, s.kind? = some kind → s.contents = writeVec write (get s))
    (hwrite : ∀ x, 2 ≤ (write x).length) (hlength : ∀ s ∈ sections, s.contents.length < 2 ^ 32) :
    2 * (sections.flatMap get).length < 2 ^ 32 := by
  refine items_of_ordered (2 * ·.length < 2 ^ 32) other hord (Nat.two_pow_pos 32)
    fun s hs hkind => ?_
  have hlt := hlength s hs
  have hle := mul_length_le_flatMap fun x (_ : x ∈ get s) => hwrite x
  rw [hcontents s hkind, writeVec, List.length_append] at hlt
  omega

theorem two_le_length_writeImport (i : Import) : 2 ≤ i.write.length := by
  have hmodule := List.length_pos_iff.2 (writeBlob_ne_nil (Utf8.encode i.module))
  have hname := List.length_pos_iff.2 (writeBlob_ne_nil (Utf8.encode i.name))
  simp only [Import.write, writeName, List.length_append]
  omega

theorem two_le_length_writeBody (b : Body) : 2 ≤ (writeBlob b.write).length := by
  have hcount := List.length_pos_iff.2 (writeUnsigned_ne_nil b.write.length)
  have hlocals := List.length_pos_iff.2 (writeUnsigned_ne_nil b.locals.length)
  simp only [writeBlob, Body.write, writeLocals, writeVec, List.length_append] at hcount ⊢
  omega

end

/-- There is no last function in a binary: imports and bodies take two bytes each. -/
theorem length_funcTypes_lt {binary : Bytes} {m : Module}
    (hm : Module.decode? .full binary = some m)
    (hlength : ∀ s ∈ m.sections, s.contents.length < 2 ^ 32) : m.funcTypes.length < 2 ^ 32 := by
  have himports : 2 * m.imports.length < 2 ^ 32 := by
    refine two_mul_length_lt .imports Import.write (ordered_of_decode hm)
      (fun s hk => ?_) (fun s hk => ?_) two_le_length_writeImport hlength
    · cases s <;> first | rfl | exact absurd rfl hk
    · cases s <;> cases hk
      rfl
  have hbodies : 2 * m.bodies.length < 2 ^ 32 := by
    refine two_mul_length_lt .code (fun b => writeBlob b.write) (ordered_of_decode hm)
      (fun s hk => ?_) (fun s hk => ?_) two_le_length_writeBody hlength
    · cases s <;> first | rfl | exact absurd rfl hk
    · cases s <;> cases hk
      rfl
  have hle : m.importedFuncs.length ≤ m.imports.length := List.length_filterMap_le ..
  rw [Module.funcTypes, List.length_append, ← length_bodies hm]
  omega

section
variable {s : Summary} (memoryExport : Option String)
  (hindex : s.hookIndex.toNat = s.functionImports.length)
  (hlt : s.functions.length < 2 ^ 32)
include hindex hlt

theorem functions_meteredSummary {func type : UInt32} (h : s.functions[func.toNat]? = some type) :
    (meteredSummary s memoryExport).functions[(shift s.hookIndex func).toNat]? = some type := by
  have hfunc := (List.getElem?_eq_some_iff.1 h).1
  have hlast : func ≠ 0xFFFFFFFF := by
    rintro rfl
    have hmax : (0xFFFFFFFF : UInt32).toNat = 0xFFFFFFFF := rfl
    omega
  rw [toNat_shift hlast, hindex, meteredSummary]
  split
  · rwa [List.getElem?_insertIdx_of_gt (by omega), Nat.add_sub_cancel]
  · rwa [List.getElem?_insertIdx_of_lt (by omega)]

/-- A function has the type that it had, wherever it moves. -/
theorem functionType_meteredSummary {func type : UInt32}
    (hfunc : s.functions[func.toNat]? = some type) (htype : type.toNat ≠ s.types.length) :
    (meteredSummary s memoryExport).functionType? (shift s.hookIndex func) =
      s.functionType? func := by
  rw [Summary.functionType?, Summary.functionType?,
    functions_meteredSummary memoryExport hindex hlt hfunc, hfunc]
  change (s.types ++ [⟨[.i32], []⟩])[type.toNat]? = s.types[type.toNat]?
  rcases Nat.lt_or_gt_of_ne htype with hlt | hgt
  · exact List.getElem?_append_left hlt
  · rw [List.getElem?_eq_none (Nat.le_of_lt hgt), List.getElem?_eq_none]
    rwa [List.length_append, List.length_singleton]

/-- The entry is the function that it was. -/
theorem checkEntry_meteredSummary {entry : String} (h : checkEntry entry s = .ok ()) :
    checkEntry entry (meteredSummary s memoryExport) = .ok () := by
  unfold checkEntry at h
  split at h
  · rename_i name index hexport
    split at h
    · cases h
    · rename_i type htype
      have hexport' : (meteredSummary s memoryExport).export? entry =
          some ⟨name, .func, shift s.hookIndex index⟩ := by
        unfold Summary.export? at hexport ⊢
        rw [meteredSummary, List.find?_append, List.find?_map]
        simp only [Function.comp_def, Export.name_mapFunc, hexport]
        rfl
      obtain ⟨typeIndex, hfunc, hindexed⟩ := Option.bind_eq_some_iff.1 htype
      have hne := Nat.ne_of_lt (List.getElem?_eq_some_iff.1 hindexed).1
      simp only [checkEntry, hexport', h, htype,
        functionType_meteredSummary memoryExport hindex hlt hfunc hne]
  · cases h

/-- What passed the checks is refused for the hook once it is metered. -/
theorem check_meteredSummary {options : Options} {memory : MemoryInfo}
    (h : check options s = .ok memory) :
    check options (meteredSummary s memoryExport) =
      .error (.reservedImport hookModule hookName) := by
  have hc := checked_of_check h
  have hentry := checkEntry_meteredSummary memoryExport hindex hlt hc.entry
  have hstart : (meteredSummary s memoryExport).start = none := congrArg (Option.map _) hc.start
  have hmemory : checkMemory (meteredSummary s memoryExport) = .ok memory := by
    rw [checkMemory, show (meteredSummary s memoryExport).memories = [memory] from hc.memories]
  have hmemory64 : (meteredSummary s memoryExport).memory64 = false := hc.memory64
  have hlimits : ¬memory.limits.capped options.memoryMaxPages < memory.limits.min :=
    UInt64.not_lt.2 hc.limits
  have hreserved : (meteredSummary s memoryExport).functionImports.any
      (fun i => i.module = hookModule ∧ i.name = hookName) = true :=
    List.any_eq_true.2 ⟨⟨hookModule, hookName, s.types.length.toUInt32⟩,
      List.mem_append_right _ (List.mem_singleton_self _), by simp⟩
  simp only [check, hentry, hstart, hmemory, hmemory64, hreserved, gt_iff_lt, hlimits, if_true,
    if_false, Option.isSome_none, Bool.false_eq_true, except_ok_bind]
  rfl

end

/-- No metered module passes the checks. -/
theorem check_meteredSummary_ne (options : Options) (s : Summary) (memoryExport : Option String)
    (memory : MemoryInfo) : check options (meteredSummary s memoryExport) ≠ .ok memory := fun h =>
  (checked_of_check h).reserved ⟨hookModule, hookName, s.types.length.toUInt32⟩
    (List.mem_append_right _ (List.mem_singleton_self _)) ⟨rfl, rfl⟩

/-- The binary form of a metered module has a summary: that of the module with the hook put in, and
with the export of the memory, if it is given a new name. A function has the type that it had, but
one whose type is the first that there is not. No metered module passes the checks, and what passed
them is refused for the hook. The length of a section has to fit the 32 bits that it is written
in. -/
theorem summary_of_meter {rules : Rules} {memoryExport : Option String} {binary : Bytes}
    {s : Summary} {m' : Module} (hs : Summary.of binary = .ok s)
    (hmeter : meter? s rules memoryExport binary = some m')
    (hnew : ∀ name ∈ memoryExport, s.export? name = none)
    (hname : ∀ name ∈ memoryExport, NameFits name)
    (hlength : ∀ sec ∈ m'.sections, sec.contents.length < 2 ^ 32) :
    Summary.of m'.encode = .ok (meteredSummary s memoryExport) ∧
      (∀ func type, s.functions[func.toNat]? = some type → type.toNat ≠ s.types.length →
        (meteredSummary s memoryExport).functionType? (shift s.hookIndex func) =
          s.functionType? func) ∧
      (∀ options memory, check options (meteredSummary s memoryExport) ≠ .ok memory) ∧
      ∀ options memory, check options s = .ok memory →
        check options (meteredSummary s memoryExport) =
          .error (.reservedImport hookModule hookName) := by
  simp only [meter?, Option.bind_eq_bind, Option.bind_eq_some_iff] at hmeter
  obtain ⟨m, hm, hmeter⟩ := hmeter
  have hm' := decode_of_meter hm hmeter hname hlength
  have hs' := Summary.of_decode hm'
  have hsame := summary_eq_of_meter hs hm hmeter hs' hm' hnew
  have hindex : s.hookIndex.toNat = s.functionImports.length := by
    rw [hookIndex_of_summary hs hm, Module.importedFuncs_eq, summary_functionImports hs hm,
      List.length_map]
  have hlt : s.functions.length < 2 ^ 32 := by
    have hfuncs := length_funcTypes_lt hm' hlength
    -- Counted in the metered module, whose sections have the lengths that are bounded.
    have hinserted : (meteredSummary s memoryExport).functions.length = m'.funcTypes.length := by
      rw [← hsame, summary_functions hs' hm']
    have hle : s.functions.length ≤ (meteredSummary s memoryExport).functions.length :=
      List.length_le_length_insertIdx
    omega
  exact ⟨hs'.trans (congrArg _ hsame),
    fun _ _ => functionType_meteredSummary memoryExport hindex hlt,
    fun options memory => check_meteredSummary_ne options s memoryExport memory,
    fun _ _ => check_meteredSummary memoryExport hindex hlt⟩

/-- A module that passes the checks, with two functions and a name for its memory. -/
theorem summary_of_meter_relay :
    ∃ m', meter? relaySummary (.constant 1) (some "memory") relay.encode = some m' ∧
      Summary.of m'.encode = .ok (meteredSummary relaySummary (some "memory")) ∧
      (∀ func type, relaySummary.functions[func.toNat]? = some type →
        type.toNat ≠ relaySummary.types.length →
        (meteredSummary relaySummary (some "memory")).functionType?
          (shift relaySummary.hookIndex func) = relaySummary.functionType? func) ∧
      check .standard (meteredSummary relaySummary (some "memory")) =
        .error (.reservedImport hookModule hookName) := by
  have hs : Summary.of relay.encode = .ok relaySummary := by decide +kernel
  have hcheck : check .standard relaySummary = .ok ⟨⟨1, none⟩, false, false⟩ := by decide +kernel
  have hsome : (meter? relaySummary (.constant 1) (some "memory") relay.encode).isSome = true := by
    decide +kernel
  have hlengths : ∀ m' ∈ meter? relaySummary (.constant 1) (some "memory") relay.encode,
      ∀ sec ∈ m'.sections, sec.contents.length < 2 ^ 32 := by decide +kernel
  have hnew : ∀ name ∈ some "memory", relaySummary.export? name = none := by decide +kernel
  have hname : ∀ name ∈ some "memory", NameFits name := by
    unfold NameFits
    decide +kernel
  obtain ⟨m', hmeter⟩ := Option.isSome_iff_exists.1 hsome
  obtain ⟨hsummary, htypes, -, hrefused⟩ :=
    summary_of_meter hs hmeter hnew hname (hlengths m' hmeter)
  exact ⟨m', hmeter, hsummary, htypes, hrefused .standard _ hcheck⟩

/-! ## Types and names out of bounds -/

/-- A module whose one function has a type that there is not. -/
def untyped : Module :=
  ⟨[.types [.plain ⟨[], []⟩], .functions [1], .code [⟨[], [.endMark]⟩]]⟩

def untypedSummary : Summary := ⟨[⟨[], []⟩], [], [1], [], [], false, [], none⟩

/-- A function whose type is the first that there is not gets the type of the hook; and a name of
any length is given to the memory, while there is no summary with one that is too long. -/
theorem not_summary_of_meter :
    (∃ m', Summary.of untyped.encode = .ok untypedSummary ∧
      meter? untypedSummary (.constant 1) none untyped.encode = some m' ∧
      Summary.of m'.encode = .ok (meteredSummary untypedSummary none) ∧
      untypedSummary.functionType? 0 = none ∧
      (meteredSummary untypedSummary none).functionType? (shift untypedSummary.hookIndex 0) =
        some ⟨[.i32], []⟩) ∧
    ∃ name m', Summary.of Header.module.bytes = .ok .empty ∧
      meter? .empty (.constant 1) (some name) Header.module.bytes = some m' ∧
      ∀ s', Summary.of m'.encode ≠ .ok s' := by
  refine ⟨?_, nameOfLength (maxNameLength + 1), meteredEmpty _, rfl, rfl,
    summary_meteredEmpty (not_nameFits_of_lt (Nat.lt_succ_self maxNameLength))⟩
  have hs : Summary.of untyped.encode = .ok untypedSummary := by decide +kernel
  have hsome : (meter? untypedSummary (.constant 1) none untyped.encode).isSome = true := by
    decide +kernel
  have hsummaries : ∀ m' ∈ meter? untypedSummary (.constant 1) none untyped.encode,
      Summary.of m'.encode = .ok (meteredSummary untypedSummary none) := by decide +kernel
  obtain ⟨m', hmeter⟩ := Option.isSome_iff_exists.1 hsome
  exact ⟨m', hs, hmeter, hsummaries m' hmeter, rfl, rfl⟩

end MeteredWasm.Metering
