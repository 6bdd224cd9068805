import MeteredWasm.Proofs.Machine.Filled
import MeteredWasm.Proofs.Metering.NameLength
import MeteredWasm.Proofs.Session.Created
import MeteredWasm.Proofs.Simulation.Meaning
import MeteredWasm.Proofs.Suspension.Instrumented
import MeteredWasm.Proofs.Suspension.Kept

/-!
# Fresh executors

What is known of an executor that has just been made of an instrumented module, if the pass keeps
what is linked (`Instrumented.created`). It has the one memory that the metered module lays out: that
of the host or the module's own (`Instrumented.laid_out`), as large as the module says, with what the
segments have put there (`Instrumented.memory_made`).
-/

set_option autoImplicit false

namespace MeteredWasm

open Wasm Machine Metering Simulation Linking Suspension

section
variable {pass : Pass} {order : ExportOrder} {options : Options} {rules : Rules} {binary : Bytes}
  {s : Summary} {m m' m'' : Module} {a : Artifact}
  (hm : Instrumented pass order options rules binary s m m' a)
include hm

/-! ## The metered module -/

/-- The metered module carries the module, calls its entry, and has no start function. -/
theorem Instrumented.carries : ∃ memoryExport, Meterable (.of s rules memoryExport) m ∧
    Carries (.of s rules memoryExport) m m' [] ∧
    exportedFunc? m' options.entry = (exportedFunc? m options.entry).map (shift s.hookIndex) ∧
    m'.starts = [] := by
  have hdecode := (Validation.validate_eq_some hm.valid).1
  have hitems := items_of_meter (ordered_of_decode hdecode) hm.metered
  refine ⟨_, meterable_of_check hm.summary hm.check hm.valid rules
    (Instrument.addedMemoryExport order s a.memory), carries_of_items hitems,
    exportedFunc_of_items hitems options.entry, ?_⟩
  have hstart := (checked_of_check hm.check).start
  have hstarts := starts_of_summary hm.summary (decode_full_of_core hdecode) hstart
  rw [hitems.starts, hstarts]
  rfl

/-- What the pass is handed can be read. -/
theorem Instrumented.decoded : Module.decode? .full m'.encode = some m' := by
  have hfull := decode_full_of_core (Validation.validate_eq_some hm.valid).1
  have hlengths : ∀ sec ∈ m'.sections, sec.contents.length < 2 ^ 32 := fun sec hsec =>
    of_decide_eq_true (List.all_eq_true.1 hm.lengths sec hsec)
  exact decode_of_meter hfull hm.metered
    (nameFits_added hm.summary hfull hm.metered hlengths) hlengths

/-- A pass that keeps what is linked has made a module with all of it. -/
theorem Instrumented.kept (hkeeps : pass.Keeps (Instrument.request options))
    (hvalid : Validation.validate? .engine a.wasm = some m'') : Kept m' m'' :=
  hkeeps _ _ _ _ hm.decoded hm.captured hvalid

/-! ## Memory -/

/-- The memory of an artifact is the one that the module has. -/
theorem Instrumented.memory_type : ∃ type, m.memoryTypes = [type] ∧
    type.limits = a.memory.limits ∧ type.shared = a.memory.isShared :=
  memoryType_of_summary hm.summary
    (decode_full_of_core (Validation.validate_eq_some hm.valid).1)
    (checked_of_check hm.check).memories

/-- The one memory that is laid out is that of the host or the module's own. -/
theorem Instrumented.laid_out {ceiling : UInt64} {st : Storage}
    (hst : emptyStorage? m (providedMemory a.memory ceiling) ceiling = some st) :
    (a.memory.isImported = true ∧
        st.memories = (providedMemory a.memory ceiling).toList) ∨
      (a.memory.isImported = false ∧ ∃ type memory, type.limits = a.memory.limits ∧
        type.shared = a.memory.isShared ∧ definedMemory? ceiling type = some memory ∧
        st.memories = [memory]) := by
  have hfull := decode_full_of_core (Validation.validate_eq_some hm.valid).1
  obtain ⟨himported, hdefined⟩ := summary_memories_filter hm.summary hfull
  rw [(checked_of_check hm.check).memories] at himported hdefined
  simp only [emptyStorage?, Option.bind_eq_bind, Option.bind_eq_some_iff, Option.pure_def,
    Option.some.injEq] at hst
  obtain ⟨own, hown, rfl⟩ := hst
  cases hcase : a.memory.isImported with
  | true =>
    simp only [List.filter_singleton, hcase, Bool.not_true] at himported hdefined
    have hsome : m.importedMemories ≠ [] := fun hnone => by simp [hnone] at himported
    rw [List.map_eq_nil_iff.1 hdefined.symm] at hown
    cases hown
    refine .inl ⟨rfl, ?_⟩
    simp [List.isEmpty_iff, hsome]
  | false =>
    simp only [List.filter_singleton, hcase, Bool.not_false] at himported hdefined
    have hnone := List.map_eq_nil_iff.1 himported.symm
    obtain ⟨type, htypes, htype⟩ := List.map_eq_singleton_iff.1 hdefined.symm
    rw [htypes] at hown
    simp only [List.mapM_cons, List.mapM_nil, Option.bind_eq_bind, Option.bind_eq_some_iff,
      Option.pure_def, Option.some.injEq] at hown
    obtain ⟨memory, hmemory, _, rfl, rfl⟩ := hown
    refine .inr ⟨rfl, type, memory, ?_, ?_, hmemory, ?_⟩
    · exact congrArg MemoryInfo.limits htype
    · exact congrArg MemoryInfo.isShared htype
    · simp [hnone, providedMemory, hcase]

section
variable {imports : Imports} {ceiling : UInt64}

/-- An instance has the memory of the module, once its segments have been copied. -/
theorem Instrumented.memory_made {hardware : Hardware} {p : Prepared} (hkept : Kept m' m'')
    (hp : instantiate? a imports ceiling hardware m'' = some p) :
    m.imports.all (agrees m (providedMemory a.memory ceiling)) = true ∧
      ∃ st₀ st, emptyStorage? m (providedMemory a.memory ceiling) ceiling = some st₀ ∧
        fill m st₀ = .ok () st ∧ st.memories = p.storage.memories := by
  obtain ⟨_, hmeterable, hcarries, -, -⟩ := hm.carries
  obtain ⟨_, _, _, _, hagrees, -⟩ := instantiate_eq_some.1 hp
  rw [hkept.all_agrees, hcarries.all_agrees hmeterable] at hagrees
  refine ⟨hagrees, laidOut_eq_some.1 ?_⟩
  rw [← laidOut_of_carries hcarries, ← hkept.memory, laidOut_of_instantiate hp]

/-- There is one memory. -/
theorem Instrumented.one_memory {hardware : Hardware} {p : Prepared} (hkept : Kept m' m'')
    (hp : instantiate? a imports ceiling hardware m'' = some p) :
    p.storage.memories.length = 1 := by
  obtain ⟨-, st₀, st, hst₀, hfill, hsame⟩ := hm.memory_made hkept hp
  have hgrown := (fill_grows m).related st₀
  rw [hfill] at hgrown
  rw [← hsame]
  refine hgrown.count.trans ?_
  rcases hm.laid_out hst₀ with ⟨himported, hmemories⟩ | ⟨-, _, _, -, -, -, hmemories⟩
  · rw [hmemories, providedMemory, if_pos himported]
    rfl
  · rw [hmemories]
    rfl

/-- The control block is in the one memory there is. -/
theorem Instrumented.block_index {hardware : Hardware} {p : Prepared} (hkept : Kept m' m'')
    (hp : instantiate? a imports ceiling hardware m'' = some p) {index : Nat}
    (h : findMemory a p = .ok index) : index = 0 := by
  have hlt := Executor.lt_of_findMemory hp h
  have hone := hm.one_memory hkept hp
  omega

/-! ## Executors -/

/-- An executor is made of the module as it stands: nothing has run. -/
theorem Instrumented.created {fuel : Nat} {r : Runtime} {e : Executor} {calls : List HostCall}
    (hkeeps : pass.Keeps (Instrument.request options))
    (h : Executor.create fuel r a imports ceiling = some (.ok e, calls)) :
    ∃ m'' p controls, Validation.validate? .engine a.wasm = some m'' ∧ Kept m' m'' ∧
      checkLimits a.memory ceiling = .ok () ∧
      instantiate? a imports ceiling (Executor.hardware r) m'' = some p ∧
      findControls p = .ok controls ∧ findEntry a p = .ok e.entry ∧
      e = Executor.attached p 0 controls e.entry ∧
      a.controlBlock.requiredMemory ≤ e.memorySize := by
  obtain ⟨p, sandbox, blockMemory, controls, hprepare, hstart, hmemory, hcontrols, hentry, he,
    hsize⟩ := Executor.create_eq_ok h
  obtain ⟨hlimits, m'', hvalid, -, hp⟩ := prepare_eq_ok.1 hprepare
  have hkept := hm.kept hkeeps hvalid
  obtain ⟨-, -, -, -, hstarts⟩ := hm.carries
  have hsandbox : sandbox = ⟨p.storage, 0, false, [], []⟩ := by
    rw [Executor.start, module_of_instantiate hp, hkept.starts hstarts] at hstart
    cases hstart
    rfl
  obtain rfl := hm.block_index hkept hp hmemory
  rw [hsandbox] at he
  exact ⟨m'', p, controls, hvalid, hkept, hlimits, hp, hcontrols, hentry, he, hsize⟩

end

end

end MeteredWasm
