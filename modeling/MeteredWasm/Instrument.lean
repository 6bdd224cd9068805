import MeteredWasm.Artifact.Codec
import MeteredWasm.Metering.Pass
import MeteredWasm.Suspension.Pass
import MeteredWasm.Wasm.Validation.Module
import MeteredWasm.Wat.Document

/-!
# Instrumenting

From a module, in binary or text form, to an artifact: it is summarized and checked, validated and
metered, and a stack-capture pass makes it able to unwind. What comes out of the pass has to export
all that an executor calls. A defined memory that is not exported is exported on the way.
-/

set_option autoImplicit false

namespace MeteredWasm

open Wasm

namespace Instrument

/-- The first bytes of every binary module. -/
def magic : Bytes := [0x00, 0x61, 0x73, 0x6D]

/-- The binary form of a module; what does not start like a binary is text. -/
def toBinary? (source : Bytes) : Option Bytes :=
  if magic.isPrefixOf source then some source
  else (Utf8.decode? source).bind Wat.binary?

def summaryError : SummaryError → ModuleError
  | .malformed => .parse "malformed module"
  | .unknownSection id => .unsupportedSection ("section " ++ toString id.toNat)

def meterError : Metering.MeterError → ModuleError
  | .malformed => .parse "malformed module"
  | .sectionTooLong => .parse "section too long"

/-- The name to export the memory under, if it is not exported yet. -/
def addedMemoryExport (order : Metering.ExportOrder) (s : Summary) (memory : MemoryInfo) :
    Option String :=
  if Metering.hasMemoryExport s then none else Metering.memoryExportName order s memory

/-- What a pass is asked for. -/
def request (options : Options) : Suspension.Request :=
  ⟨.ofByte options.optimizeLevel, .ofByte options.shrinkLevel, options.defaultPasses⟩

/-- Whether a function is exported under this name. -/
def exportsFunction (s : Summary) (name : String) : Bool := (s.export? name).any (·.kind = .func)

/-- The pass has left every export that an executor calls. -/
def checkExports (options : Options) (instrumented : Bytes) : Except ModuleError Unit := do
  let s ← (Summary.of instrumented).mapError summaryError
  match (Suspension.controlNames ++ [options.entry]).find? (!exportsFunction s ·) with
  | some name => throw (.stackCapture ("missing export `" ++ name ++ "`"))
  | none => return

end Instrument

/-- The artifact of a module whose operators cost what `rules` say. -/
def instrumentWith (pass : Suspension.Pass) (order : Metering.ExportOrder) (options : Options)
    (rules : Metering.Rules) (source : Bytes) : Except ModuleError Artifact := do
  let some binary := Instrument.toBinary? source | throw (.parse "malformed text")
  let summary ← (Summary.of binary).mapError Instrument.summaryError
  let memory ← Metering.check options summary
  if (Validation.validate? .sandbox binary).isNone then throw (.validation "invalid module")
  let added := Instrument.addedMemoryExport order summary memory
  let metered ← (Metering.inject summary rules added binary).mapError Instrument.meterError
  let instrumented ← (pass (Instrument.request options) metered).mapError .stackCapture
  Instrument.checkExports options instrumented
  return {
    wasm := instrumented
    entry := options.entry
    memory
    memoryExport := Metering.memoryExportName order summary memory
    controlBlock := options.controlBlock }

/-- The artifact of a module whose operators cost what the options say. -/
def instrument (pass : Suspension.Pass) (order : Metering.ExportOrder) (options : Options)
    (source : Bytes) : Except ModuleError Artifact :=
  instrumentWith pass order options options.costs.rules source

end MeteredWasm
