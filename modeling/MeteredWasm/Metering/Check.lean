import MeteredWasm.Error
import MeteredWasm.Options.Basic
import MeteredWasm.Wasm.Module.Summary

/-!
# What a module must be to be metered

The entry is an exported function that takes and returns nothing. There is no start function,
which would run before there is a tick to pause. There is one 32-bit memory, whose initial size
the ceiling allows. The hook is not imported, and no data goes where the control block is. The
first condition that fails, in this order, is the one reported.
-/

set_option autoImplicit false

namespace MeteredWasm.Metering

open Wasm

/-- Module and name of the hook that charges gas. -/
def hookModule : String := "metering"

def hookName : String := "usegas"

/-- The entry is an exported function without parameters and results. -/
def checkEntry (entry : String) (s : Summary) : Except ModuleError Unit :=
  match s.export? entry with
  | some ⟨_, .func, index⟩ =>
    match s.functionType? index with
    | none => .error (.missingEntry entry)
    | some type =>
      if type.params = [] ∧ type.results = [] then .ok () else .error (.entrySignature entry)
  | _ => .error (.missingEntry entry)

/-- There is exactly one memory. -/
def checkMemory (s : Summary) : Except ModuleError MemoryInfo :=
  match s.memories with
  | [] => .error .noMemory
  | [memory] => .ok memory
  | _ => .error .multipleMemories

/-- Whether a segment reaches into the reserved range. -/
def overlaps (block : ControlBlock) (d : DataRange) : Bool :=
  d.offset.toNat < block.requiredMemory && d.offset.toNat + d.length.toNat > block.address.toNat

/-- The memory of a module that fulfils all conditions. -/
def check (options : Options) (s : Summary) : Except ModuleError MemoryInfo := do
  checkEntry options.entry s
  if s.start.isSome then throw .startFunction
  let memory ← checkMemory s
  if s.memory64 then throw .memory64
  let ceiling := memory.limits.capped options.memoryMaxPages
  if memory.limits.min > ceiling then throw (.memoryLimit memory.limits.min ceiling)
  if s.functionImports.any fun i => i.module = hookModule ∧ i.name = hookName then
    throw (.reservedImport hookModule hookName)
  match s.data.find? (overlaps options.controlBlock) with
  | some d => throw (.reservedRangeOverlap d.offset d.length)
  | none => return memory

/-! ## The name of the memory -/

/-- Whether a memory is exported. -/
def hasMemoryExport (s : Summary) : Bool := s.exports.any (·.kind = .memory)

/-- `memory` and the fewest underscores that make the name unused; at most `n` of them. -/
def freeMemoryName (s : Summary) (name : String) : (n : Nat) → String
  | 0 => name
  | n + 1 => if (s.export? name).isSome then freeMemoryName s (name ++ "_") n else name

/-- The order that exports happen to be gone through in. -/
abbrev ExportOrder := { order : List Export → List Export // ∀ exports, (order exports).Perm exports }

/-- The order that exports are written in. -/
def ExportOrder.written : ExportOrder := ⟨id, fun exports => .refl exports⟩

/-- The name a defined memory is reachable under: that of the first export that is met, else a free
one. -/
def memoryExportName (order : ExportOrder) (s : Summary) (memory : MemoryInfo) : Option String :=
  if memory.isImported then none
  else
    match (order.1 s.exports).find? (·.kind = .memory) with
    | some e => some e.name
    | none => some (freeMemoryName s "memory" s.exports.length)

end MeteredWasm.Metering
