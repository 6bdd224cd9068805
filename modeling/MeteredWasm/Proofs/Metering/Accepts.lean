import Mathlib.Data.List.Basic
import MeteredWasm.Instrument
import MeteredWasm.Proofs.Basic
import MeteredWasm.Proofs.Module.Dialect
import MeteredWasm.Proofs.Validation.Declared

/-!
# Metering takes valid modules

The pass reads a binary once more after it has been validated. The two readers agree: whatever is
valid is decoded again, and every section of a known kind is metered. Only custom sections are
something that validation does not look into, and of these the pass looks into those called `name`.
So a valid module is metered exactly if these can be read and the lengths of all its sections can be
written; behind that, instrumenting it fails only where the pass does (`meters_valid`).
-/

set_option autoImplicit false

namespace MeteredWasm

open Wasm

namespace Metering

/-- The name sections of the module can be read. -/
def ReadableNames (m : Module) : Prop :=
  ∀ contents, (nameSection, contents) ∈ m.customs → (NameSubsection.all? contents).isSome = true

/-! ## Sections -/

theorem isSome_bind_some {α β : Type} (x : Option α) (f : α → β) :
    (x.bind fun a => some (f a)).isSome = x.isSome := by
  cases x <;> rfl

section
variable (plan : Plan)

theorem isSome_meterCustom (name : String) (contents : Bytes) :
    (meterSection? plan (.custom name contents)).isSome = true ↔
      (name = nameSection → (NameSubsection.all? contents).isSome = true) := by
  simp only [meterSection?]
  split
  · rename_i hname
    simp only [hname, Option.isSome_map, meterNames?, true_imp_iff]
    exact iff_of_eq (congrArg (· = true) (isSome_bind_some _ _))
  · rename_i hname
    simp [hname]

/-- Sections of a known kind are metered. -/
theorem isSome_meterSection {s : Section} {kind : SectionKind} (h : s.kind? = some kind) :
    (meterSection? plan s).isSome = true := by
  cases s <;> first | rfl | cases h

theorem isSome_meterSections (owed : Owed) (sections : List Section) :
    (meterSections? plan owed sections).isSome = true ↔
      ∀ s ∈ sections, (meterSection? plan s).isSome = true := by
  induction sections generalizing owed with
  | nil => simp [meterSections?]
  | cons s rest ih =>
    rw [List.forall_mem_cons, meterSections?]
    cases hs : meterSection? plan s with
    | none => simp
    | some s' =>
      cases hk : s.kind? with
      | none => simp [← ih owed, isSome_bind_some]
      | some kind => simp [← ih (owed.past kind), isSome_bind_some]

theorem isSome_meterModule (m : Module) :
    (meterModule? plan m).isSome = true ↔ ReadableNames m := by
  have hmodule : (meterModule? plan m).isSome =
      (meterSections? plan ⟨true, true, plan.memoryExport.isSome⟩ m.sections).isSome :=
    isSome_bind_some _ _
  rw [hmodule, isSome_meterSections]
  constructor
  · intro h contents hmem
    obtain ⟨s, hs, hin⟩ := List.mem_flatMap.1 hmem
    cases s with
    | custom name contents' =>
      simp only [List.mem_singleton, Prod.mk.injEq] at hin
      obtain ⟨rfl, rfl⟩ := hin
      exact (isSome_meterCustom plan nameSection contents).1 (h _ hs) rfl
    | _ => cases hin
  · intro h s hs
    cases hk : s.kind? with
    | some kind => exact isSome_meterSection plan hk
    | none =>
      cases s with
      | custom name contents =>
        refine (isSome_meterCustom plan name contents).2 fun hname => h contents ?_
        subst hname
        exact List.mem_flatMap.2 ⟨_, hs, List.mem_singleton_self _⟩
      | _ => cases hk

end

/-! ## Valid modules -/

/-- The length of every section of the metered module fits into 32 bits. -/
def LengthsFit (metered : Module) : Prop := ∀ s ∈ metered.sections, s.contents.length < 2 ^ 32

theorem fitsLengths_iff (metered : Module) : fitsLengths metered = true ↔ LengthsFit metered := by
  simp [fitsLengths, LengthsFit]

/-- What is left to fail once a module has been summarized, checked and validated. -/
structure FailsForNames (binary : Bytes) (s : Summary) (m : Module) : Prop where
  injected : ∀ rules memoryExport, (∃ metered, inject s rules memoryExport binary = .ok metered) ↔
    ReadableNames m ∧
      ∀ m', meterModule? (.of s rules memoryExport) m = some m' → LengthsFit m'
  malformed : ∀ rules memoryExport,
    inject s rules memoryExport binary = .error .malformed ↔ ¬ReadableNames m
  /-- Behind the checks it is metering that can fail, or the pass and what it answers with. -/
  instrumented : ∀ pass order options rules source memory,
    Instrument.toBinary? source = some binary → check options s = .ok memory →
      instrumentWith pass order options rules source =
        match inject s rules (Instrument.addedMemoryExport order s memory) binary with
        | .error e => .error (Instrument.meterError e)
        | .ok metered =>
          match pass (Instrument.request options) metered with
          | .error reason => .error (.stackCapture reason)
          | .ok wasm => (Instrument.checkExports options wasm).map fun _ =>
            ⟨wasm, options.entry, memory, memoryExportName order s memory, options.controlBlock⟩

section
variable {binary source : Bytes} {s : Summary} {m : Module} {options : Options} {rules : Rules}
  {memory : MemoryInfo}

/-- What is valid is decoded again. -/
theorem meter_of_valid (hm : Validation.validate? .sandbox binary = some m) (rules : Rules)
    (memoryExport : Option String) :
    meter? s rules memoryExport binary = meterModule? (.of s rules memoryExport) m := by
  have hdecode : Module.decode? .full binary = some m :=
    decode_full_of_core (Validation.validate_eq_some hm).1
  rw [meter?, hdecode]
  rfl

theorem inject_eq_ok_iff {memoryExport : Option String} {metered : Bytes} :
    inject s rules memoryExport binary = .ok metered ↔
      ∃ m', meter? s rules memoryExport binary = some m' ∧ LengthsFit m' ∧ m'.encode = metered := by
  rw [inject]
  cases meter? s rules memoryExport binary with
  | none => simp
  | some m' => by_cases hfits : fitsLengths m' <;> simp [hfits, ← fitsLengths_iff]

theorem inject_eq_malformed_iff {memoryExport : Option String} :
    inject s rules memoryExport binary = .error .malformed ↔
      meter? s rules memoryExport binary = none := by
  rw [inject]
  cases meter? s rules memoryExport binary with
  | none => simp
  | some m' => by_cases hfits : fitsLengths m' <;> simp [hfits]

theorem meters_valid (hs : Summary.of binary = .ok s)
    (hm : Validation.validate? .sandbox binary = some m) : FailsForNames binary s m where
  injected rules memoryExport := by
    have hnames := isSome_meterModule (.of s rules memoryExport) m
    simp only [inject_eq_ok_iff, meter_of_valid hm]
    constructor
    · rintro ⟨metered, m', hmeter, hfits, -⟩
      refine ⟨hnames.1 (by simp [hmeter]), fun m'' hmeter' => ?_⟩
      cases hmeter.symm.trans hmeter'
      exact hfits
    · rintro ⟨hreadable, hfits⟩
      obtain ⟨m', hmeter⟩ := Option.isSome_iff_exists.1 (hnames.2 hreadable)
      exact ⟨_, m', hmeter, hfits m' hmeter, rfl⟩
  malformed rules memoryExport := by
    rw [inject_eq_malformed_iff, meter_of_valid hm, ← isSome_meterModule (.of s rules memoryExport),
      Option.not_isSome_iff_eq_none]
  instrumented pass order options rules source memory hsource hcheck := by
    unfold instrumentWith
    simp only [hsource, hs, hcheck, hm, Except.mapError, except_ok_bind, Option.isNone_some,
      Bool.false_eq_true, if_false]
    cases inject s rules (Instrument.addedMemoryExport order s memory) binary with
    | error e => rfl
    | ok metered =>
      simp only [except_ok_bind]
      cases hpass : pass (Instrument.request options) metered with
      | error reason => simp only [except_error_bind]
      | ok wasm =>
        simp only [except_ok_bind]
        cases Instrument.checkExports options wasm <;> rfl

end

/-- A module with an entry that does nothing, and a name section. -/
def namedModule (names : Bytes) : Module :=
  ⟨[.types [.plain ⟨[], []⟩], .functions [0], .memories [⟨⟨1, none⟩, false, false, none⟩],
    .exports [⟨"entry", .func, 0⟩], .code [⟨[], [.endMark]⟩], .custom nameSection names]⟩

def namedSummary : Summary :=
  ⟨[⟨[], []⟩], [], [0], [⟨"entry", .func, 0⟩], [⟨⟨1, none⟩, false, false⟩], false, [], none⟩

/-- Function 0 is called `go`. -/
def goodNames : Bytes := [1, 5, 1, 0, 2, 103, 111]

theorem meters_valid_named :
    Summary.of (namedModule goodNames).encode = .ok namedSummary ∧
      Validation.validate? .sandbox (namedModule goodNames).encode = some (namedModule goodNames) ∧
      ∃ metered, inject namedSummary (.constant 1) (some "memory") (namedModule goodNames).encode =
        .ok metered := by
  have hs : Summary.of (namedModule goodNames).encode = .ok namedSummary := by decide +kernel
  have hm : Validation.validate? .sandbox (namedModule goodNames).encode =
      some (namedModule goodNames) := by decide +kernel
  have hnames : ReadableNames (namedModule goodNames) := by
    intro contents hmem
    have hcontents : contents = goodNames := by simpa [namedModule, Module.customs] using hmem
    rw [hcontents]
    decide +kernel
  refine ⟨hs, hm, ((meters_valid hs hm).injected (.constant 1) (some "memory")).2
    ⟨hnames, fun m' hmeter => (fitsLengths_iff m').1 ?_⟩⟩
  have hfits : ((meterModule? (.of namedSummary (.constant 1) (some "memory"))
      (namedModule goodNames)).all fitsLengths) = true := by decide +kernel
  rw [hmeter] at hfits
  exact hfits

/-- A subsection that ends before it says how long it is. -/
theorem bad_names_refused : ∃ s m, Summary.of (namedModule [1]).encode = .ok s ∧
    Validation.validate? .sandbox (namedModule [1]).encode = some m ∧
    ∀ rules memoryExport,
      inject s rules memoryExport (namedModule [1]).encode = .error .malformed := by
  have hm : Validation.validate? .sandbox (namedModule [1]).encode = some (namedModule [1]) := by
    decide +kernel
  refine ⟨namedSummary, namedModule [1], by decide +kernel, hm, fun rules memoryExport => ?_⟩
  rw [inject_eq_malformed_iff, meter_of_valid hm, ← Option.not_isSome_iff_eq_none,
    isSome_meterModule]
  intro hnames
  have hnone : (NameSubsection.all? [1]).isSome = false := by decide +kernel
  have hsome := hnames [1] (by simp [namedModule, Module.customs])
  rw [hnone] at hsome
  cases hsome

end Metering

end MeteredWasm
