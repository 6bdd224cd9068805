import MeteredWasm.Instrument
import MeteredWasm.Proofs.Basic
import MeteredWasm.Proofs.Module.Dialect
import MeteredWasm.Proofs.Validation.Declared

/-!
# How artifacts are made

Instrumenting is a row of guards and passes, and gives an artifact where each of them lets its
module through (`Instrumented`, `instrument_eq_ok`).
-/

set_option autoImplicit false

namespace MeteredWasm

open Wasm Metering

theorem mapError_eq_ok {ε ε' α : Type} {f : ε → ε'} {x : Except ε α} {a : α} :
    x.mapError f = .ok a ↔ x = .ok a := by
  cases x with
  | error e =>
    constructor
    · intro h
      cases h
    · intro h
      cases h
  | ok b =>
    constructor
    · intro h
      cases h
      rfl
    · intro h
      cases h
      rfl

/-- How an artifact has been made: `m` is the module, and `m'` is what the pass was handed. -/
structure Instrumented (pass : Suspension.Pass) (order : ExportOrder) (options : Options)
    (rules : Rules) (binary : Bytes) (s : Summary) (m m' : Module) (a : Artifact) : Prop where
  summary : Summary.of binary = .ok s
  check : Metering.check options s = .ok a.memory
  valid : Validation.validate? .sandbox binary = some m
  metered : meterModule? (.of s rules (Instrument.addedMemoryExport order s a.memory)) m = some m'
  lengths : fitsLengths m' = true
  captured : pass (Instrument.request options) m'.encode = .ok a.wasm
  exports : Instrument.checkExports options a.wasm = .ok ()
  memoryExport : a.memoryExport = memoryExportName order s a.memory
  entry : a.entry = options.entry
  controlBlock : a.controlBlock = options.controlBlock

theorem inject_eq_ok {s : Summary} {rules : Rules} {memoryExport : Option String}
    {binary metered : Bytes} {m : Module} (hm : Module.decode? .full binary = some m) :
    inject s rules memoryExport binary = .ok metered ↔
      ∃ m', meterModule? (.of s rules memoryExport) m = some m' ∧ fitsLengths m' = true ∧
        m'.encode = metered := by
  unfold inject meter?
  rw [hm]
  simp only [Option.bind_eq_bind, Option.bind_some]
  cases meterModule? (.of s rules memoryExport) m with
  | none => simp
  | some m' => by_cases hfits : fitsLengths m' = true <;> simp [hfits]

section
variable {pass : Suspension.Pass} {order : ExportOrder} {options : Options} {rules : Rules}
  {source : Bytes} {a : Artifact}

theorem instrument_eq_ok : instrumentWith pass order options rules source = .ok a ↔
    ∃ binary s m m', Instrument.toBinary? source = some binary ∧
      Instrumented pass order options rules binary s m m' a := by
  unfold instrumentWith
  cases hbinary : Instrument.toBinary? source with
  | none => simp [throw, throwThe, MonadExceptOf.throw]
  | some binary =>
    simp only [except_bind_eq_ok, except_guard_eq_ok, mapError_eq_ok]
    constructor
    · rintro ⟨s, hs, memory, hcheck, hvalid, metered, hinject, wasm, hpass, _, hexports, ha⟩
      cases hm : Validation.validate? .sandbox binary with
      | none => simp [hm] at hvalid
      | some m =>
        have hfull := decode_full_of_core (Validation.validate_eq_some hm).1
        obtain ⟨m', hmetered, hlengths, rfl⟩ := (inject_eq_ok hfull).1 hinject
        cases ha
        exact ⟨binary, s, m, m', rfl, hs, hcheck, hm, hmetered, hlengths, hpass, hexports, rfl, rfl,
          rfl⟩
    · rintro ⟨binary', s, m, m', hsame, hm⟩
      cases hsame
      have hfull := decode_full_of_core (Validation.validate_eq_some hm.valid).1
      refine ⟨s, hm.summary, a.memory, hm.check, by simp [hm.valid], _,
        (inject_eq_ok hfull).2 ⟨m', hm.metered, hm.lengths, rfl⟩, a.wasm, hm.captured, (),
        hm.exports, ?_⟩
      rw [← hm.entry, ← hm.memoryExport, ← hm.controlBlock]
      rfl

/-- What has been instrumented is the module that the source is known to hold. -/
theorem instrumented_of_valid {binary : Bytes} {m : Module}
    (htranslated : Instrument.toBinary? source = some binary)
    (hvalid : Validation.validate? .sandbox binary = some m)
    (h : instrumentWith pass order options rules source = .ok a) :
    ∃ s m', Instrumented pass order options rules binary s m m' a := by
  obtain ⟨binary', s, m₁, m', htranslated', hm⟩ := instrument_eq_ok.1 h
  obtain rfl : binary = binary' := Option.some.inj (htranslated.symm.trans htranslated')
  obtain rfl : m = m₁ := Option.some.inj (hvalid.symm.trans hm.valid)
  exact ⟨s, m', hm⟩

end

end MeteredWasm
