import MeteredWasm.Proofs.Metering.NameLength
import MeteredWasm.Proofs.Metering.Valid
import MeteredWasm.Proofs.Session.Drivable

/-!
# The memory is within reach

In a metered module the memory of its own can be reached under a name: that of its export, or else a
new one, which is the only thing that is added to the exports (`memory_within_reach`). All others
are where they were, with the name, the kind and, up to the shift of the functions, the index that
they had.
-/

set_option autoImplicit false

namespace MeteredWasm

open Wasm

namespace Metering

/-! ## The exports -/

/-- An export once a function has been put in behind so many imported ones. -/
structure MovedExport (imported : Nat) (e e' : Export) : Prop where
  name : e'.name = e.name
  kind : e'.kind = e.kind
  index : e'.index =
    if e.kind = .func ∧ imported ≤ e.index.toNat then e.index + 1 else e.index

theorem moved_mapFunc {hook : UInt32} {imported : Nat} (h : hook.toNat = imported) (e : Export) :
    MovedExport imported e (e.mapFunc (shift hook)) := by
  refine ⟨Export.name_mapFunc _ e, Export.kind_mapFunc _ e, ?_⟩
  by_cases hkind : e.kind = .func
  · simp [Export.mapFunc, hkind, shift, UInt32.le_iff_toNat_le, h]
  · rw [Export.mapFunc_of_ne_func _ hkind, if_neg fun hfunc => hkind hfunc.1]

/-- Where names are distinct, an export is the only one of its name. -/
theorem filter_name_of_mem {exports : List Export} (hdistinct : (exports.map Export.name).Nodup)
    {e : Export} (he : e ∈ exports) : exports.filter (·.name = e.name) = [e] := by
  induction exports with
  | nil => cases he
  | cons x exports ih =>
    rw [List.map_cons, List.nodup_cons] at hdistinct
    obtain ⟨hx, hrest⟩ := hdistinct
    rw [List.filter_cons]
    rcases List.mem_cons.1 he with rfl | he
    · have hnone : exports.filter (·.name = e.name) = [] := by
        refine List.filter_eq_nil_iff.2 fun y hy hname => hx ?_
        exact of_decide_eq_true hname ▸ List.mem_map_of_mem hy
      rw [if_pos (decide_eq_true rfl), hnone]
    · have hne : x.name ≠ e.name := fun hname => hx (hname ▸ List.mem_map_of_mem he)
      rw [if_neg (by simpa using hne), ih hrest he]

/-- The exports of a module with this summary, and those of the metered module. -/
structure MemoryReached (order : ExportOrder) (s : Summary) (memory : MemoryInfo) (m m' : Module) :
    Prop where
  /-- Memory 0 is the only one, and the one that the summary tells of. -/
  only : ∃ type, m'.memoryTypes = [type] ∧ type.limits = memory.limits ∧
    type.shared = memory.isShared
  /-- No export is lost, renamed or put elsewhere, and nothing but the memory is added. -/
  kept : ∃ kept, m'.exports =
      kept ++ (Instrument.addedMemoryExport order s memory).toList.map (⟨·, .memory, 0⟩) ∧
    List.Forall₂ (MovedExport m.importedFuncs.length) m.exports kept
  once : ∀ name ∈ Instrument.addedMemoryExport order s memory,
    m'.exports.filter (·.name = name) = [⟨name, .memory, 0⟩]
  reached : ∀ name ∈ memoryExportName order s memory,
    ∃ e ∈ m'.exports, e.name = name ∧ e.kind = .memory

section
variable {order : ExportOrder} {binary : Bytes} {s : Summary} {memory : MemoryInfo}
  {rules : Rules} {m m' : Module}
  (hs : Summary.of binary = .ok s) (hm : Module.decode? .full binary = some m)
  (hmeter : meterModule? (.of s rules (Instrument.addedMemoryExport order s memory)) m = some m')
include hm hmeter

/-- A valid module has no other memory to export than memory 0, and no other is added. -/
theorem memory_index_of_meter (hvalid : Validation.validate? .sandbox binary = some m)
    {e : Export} (he : e ∈ m'.exports) (hkind : e.kind = .memory) : e.index = 0 := by
  rw [exports_of_meter hm hmeter] at he
  rcases List.mem_append.1 he with he | he
  · obtain ⟨own, hown, rfl⟩ := List.mem_map.1 he
    rw [Export.kind_mapFunc] at hkind
    rw [Export.mapFunc_of_ne_func _ (by simp [hkind])]
    exact UInt32.toNat_inj.1 (memory_index_of_validate hvalid hown hkind)
  · obtain ⟨name, -, rfl⟩ := List.mem_map.1 he
    rfl

include hs

theorem memoryReached_of_meter (hone : s.memories = [memory]) :
    MemoryReached order s memory m m' where
  only := by
    rw [(spaces_of_items (items_of_meter (ordered_of_decode hm) hmeter)).memories]
    exact memoryType_of_summary hs hm hone
  kept := by
    refine ⟨_, exports_of_meter hm hmeter, List.forall₂_map_right_iff.2 ?_⟩
    exact List.forall₂_same.2 fun e _ => moved_mapFunc (hookIndex_of_summary hs hm) e
  once := by
    intro name hname
    have hfree := Instrument.addedMemoryExport_free hs hm hname
    have hnone : (m.exports.map (Export.mapFunc (shift s.hookIndex))).filter (·.name = name) =
        [] := by
      refine List.filter_eq_nil_iff.2 (List.forall_mem_map.2 fun e he => ?_)
      simpa using hfree e he
    rw [exports_of_meter hm hmeter, List.filter_append, hnone, Option.mem_def.1 hname]
    simp
  reached := by
    intro name hname
    have himported : memory.isImported = false := by
      refine Bool.eq_false_iff.2 fun h => ?_
      rw [(memoryNamed order s memory).imported h] at hname
      cases hname
    obtain ⟨e, he, hkind, hsome⟩ := exists_memoryExport hm hmeter hs himported
    exact ⟨e, he, Option.some.inj (hsome.symm.trans hname), hkind⟩

/-- Distinct names stay distinct. -/
theorem distinct_of_meter (hdistinct : (m.exports.map Export.name).Nodup) :
    (m'.exports.map Export.name).Nodup := by
  have hnames : m'.exports.map Export.name =
      m.exports.map Export.name ++ (Instrument.addedMemoryExport order s memory).toList := by
    rw [exports_of_meter hm hmeter]
    simp [Function.comp_def]
  rw [hnames]
  have hadded : (Instrument.addedMemoryExport order s memory).toList.Nodup := by
    cases Instrument.addedMemoryExport order s memory <;> simp
  refine hdistinct.append hadded fun name hname hadded => ?_
  obtain ⟨e, he, rfl⟩ := List.mem_map.1 hname
  exact Instrument.addedMemoryExport_free hs hm (Option.mem_toList.1 hadded) e he rfl

end

/-! ## Within reach -/

/-- A module with one memory gets a new name for it exactly if the memory is its own and is not
exported: the first of `memory`, `memory_`, `memory__` and so on that no export has, which a search
that nothing bounds ends at. Metering leaves every export as it is, up to the shift of the functions,
and adds the memory under the new name, if there is one; the metered module is read again, as long
as the length of a section fits the 32 bits that it is written in. So the name that an artifact
tells is that of exactly one export of the metered module, and what it exports is memory 0. -/
theorem memory_within_reach {s : Summary} {memory : MemoryInfo} (hone : s.memories = [memory])
    (order : ExportOrder) :
    MemoryNamed order s memory ∧
    (∀ binary rules m', Summary.of binary = .ok s →
      meter? s rules (Instrument.addedMemoryExport order s memory) binary = some m' →
      ∃ m, Module.decode? .full binary = some m ∧ MemoryReached order s memory m m' ∧
        ((∀ sec ∈ m'.sections, sec.contents.length < 2 ^ 32) →
          Module.decode? .full m'.encode = some m')) ∧
    ∀ pass options rules source binary a, Instrument.toBinary? source = some binary →
      Summary.of binary = .ok s → instrumentWith pass order options rules source = .ok a →
      a.memory = memory ∧ a.memoryExport = memoryExportName order s memory ∧
      ∃ m', meter? s rules (Instrument.addedMemoryExport order s memory) binary = some m' ∧
        pass (Instrument.request options) m'.encode = .ok a.wasm ∧
        ∀ name ∈ a.memoryExport, m'.exports.filter (·.name = name) = [⟨name, .memory, 0⟩] := by
  refine ⟨memoryNamed order s memory, fun binary rules m' hs hmeter => ?_,
    fun pass options rules source binary a hsource hs hinstrument => ?_⟩
  · simp only [meter?, Option.bind_eq_bind, Option.bind_eq_some_iff] at hmeter
    obtain ⟨m, hm, hmeter⟩ := hmeter
    exact ⟨m, hm, memoryReached_of_meter hs hm hmeter hone, fun hlength =>
      decode_of_meter hm hmeter (nameFits_added hs hm hmeter hlength) hlength⟩
  · obtain ⟨binary', s', m, m', hsource', hmade⟩ := instrument_eq_ok.1 hinstrument
    obtain rfl : binary = binary' := Option.some.inj (hsource.symm.trans hsource')
    obtain rfl : s = s' := Except.ok.inj (hs.symm.trans hmade.summary)
    have hmemories := (checked_of_check hmade.check).memories
    obtain rfl : memory = a.memory := List.singleton_injective (hone.symm.trans hmemories)
    have hm := decode_full_of_core (Validation.validate_eq_some hmade.valid).1
    have hmeter := hmade.metered
    refine ⟨rfl, hmade.memoryExport, m', ?_, hmade.captured, fun name hname => ?_⟩
    · simp [meter?, hm, hmeter]
    · rw [hmade.memoryExport] at hname
      obtain ⟨e, he, rfl, hkind⟩ := (memoryReached_of_meter hs hm hmeter hone).reached name hname
      have hindex := memory_index_of_meter hm hmeter hmade.valid he hkind
      rw [filter_name_of_mem (distinct_of_meter hs hm hmeter (distinct_of_validate hmade.valid)) he,
        ← hkind, ← hindex]

/-- A private memory, and functions under the first two names that there would be for it. -/
def crowded : Module :=
  ⟨[.types [.plain ⟨[], []⟩], .imports [⟨"env", "print", .func 0⟩], .functions [0],
    .memories [⟨⟨1, none⟩, false, false, none⟩],
    .exports [⟨"memory", .func, 0⟩, ⟨"entry", .func, 1⟩, ⟨"memory_", .func, 1⟩],
    .code [⟨[], [.endMark]⟩]]⟩

def crowdedSummary : Summary :=
  ⟨[⟨[], []⟩], [⟨"env", "print", 0⟩], [0, 0],
    [⟨"memory", .func, 0⟩, ⟨"entry", .func, 1⟩, ⟨"memory_", .func, 1⟩],
    [⟨⟨1, none⟩, false, false⟩], false, [], none⟩

/-- The third name is the first that is free. -/
theorem memory_within_reach_crowded :
    crowdedSummary.memories = [⟨⟨1, none⟩, false, false⟩] ∧
    MemoryNamed .written crowdedSummary ⟨⟨1, none⟩, false, false⟩ ∧
    ∃ a m', instrumentWith Suspension.unwinding .written .standard (.constant 1) crowded.encode =
        .ok a ∧
      meter? crowdedSummary (.constant 1) (some "memory__") crowded.encode = some m' ∧
      MemoryReached .written crowdedSummary ⟨⟨1, none⟩, false, false⟩ crowded m' ∧
      Module.decode? .full m'.encode = some m' ∧ a.memoryExport = some "memory__" ∧
      m'.exports.filter (·.name = "memory__") = [⟨"memory__", .memory, 0⟩] := by
  have hs : Summary.of crowded.encode = .ok crowdedSummary := by decide +kernel
  have hm : Module.decode? .full crowded.encode = some crowded := by decide +kernel
  have hadded : Instrument.addedMemoryExport .written crowdedSummary ⟨⟨1, none⟩, false, false⟩ =
      some "memory__" := by decide +kernel
  have hname : memoryExportName .written crowdedSummary ⟨⟨1, none⟩, false, false⟩ =
      some "memory__" := by decide +kernel
  have hsource : Instrument.toBinary? crowded.encode = some crowded.encode := by decide +kernel
  have hsome : (instrumentWith Suspension.unwinding .written .standard (.constant 1)
      crowded.encode).isOk = true := by decide +kernel
  have hlengths : ∀ m' ∈ meter? crowdedSummary (.constant 1) (some "memory__") crowded.encode,
      ∀ sec ∈ m'.sections, sec.contents.length < 2 ^ 32 := by decide +kernel
  obtain ⟨a, hinstrument⟩ : ∃ a, instrumentWith Suspension.unwinding .written .standard
      (.constant 1) crowded.encode = .ok a := by
    cases h : instrumentWith Suspension.unwinding .written .standard (.constant 1)
        crowded.encode with
    | ok a => exact ⟨a, rfl⟩
    | error err => simp [h, Except.isOk, Except.toBool] at hsome
  have hone : crowdedSummary.memories = [⟨⟨1, none⟩, false, false⟩] := rfl
  obtain ⟨hnamed, hreached, hartifact⟩ := memory_within_reach hone .written
  obtain ⟨-, hexport, m', hmeter, -, honce⟩ :=
    hartifact _ .standard (.constant 1) _ _ a hsource hs hinstrument
  obtain ⟨m, hm', hkept, hdecode⟩ := hreached _ (.constant 1) m' hs hmeter
  obtain rfl : crowded = m := Option.some.inj (hm.symm.trans hm')
  rw [hadded] at hmeter
  rw [hname] at hexport
  exact ⟨rfl, hnamed, a, m', hinstrument, hmeter, hkept, hdecode (hlengths m' hmeter), hexport,
    honce "memory__" (Option.mem_def.2 hexport)⟩

end Metering

end MeteredWasm
