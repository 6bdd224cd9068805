import MeteredWasm.Metering.Cost
import MeteredWasm.Options.Json
import MeteredWasm.Sandbox.ControlBlock

/-!
# Options

How modules are instrumented and run, and the JSON form of it.

Options are written as an object with all fields. They are read from an object, where a missing
field has its standard value and unknown members are passed over, or from an array of the first
fields in order. The two inner structures are read in both forms too, but never in part. A value
of the wrong type or out of its range, `null` included, is refused, and so is a field that is given
twice.
-/

set_option autoImplicit false

namespace MeteredWasm

structure Options where
  /-- Name of the exported function that each tick calls. -/
  entry : String
  /-- Ceiling on linear memory, in pages. -/
  memoryMaxPages : UInt64
  controlBlock : ControlBlock
  costs : Metering.CostTable
  optimizeLevel : UInt8
  shrinkLevel : UInt8
  defaultPasses : Bool
  /-- Bytes of stack that a tick may use. -/
  maxWasmStack : UInt64
  deriving Repr, DecidableEq

namespace Options

def standard : Options where
  entry := "entry"
  memoryMaxPages := 256
  controlBlock := .standard
  costs := .standard
  optimizeLevel := 3
  shrinkLevel := 0
  defaultPasses := false
  maxWasmStack := 512 * 1024

end Options

/-! ## Writing -/

private def Json.word (n : Nat) : Json := .int n

def ControlBlock.toJson (block : ControlBlock) : Json :=
  .object [("address", Json.word block.address.toNat),
    ("stack_end", Json.word block.stackEnd.toNat)]

def Metering.CostTable.toJson (costs : Metering.CostTable) : Json :=
  .object [("control", Json.word costs.control.toNat), ("call", Json.word costs.call.toNat),
    ("memory_access", Json.word costs.memoryAccess.toNat),
    ("memory_grow", Json.word costs.memoryGrow.toNat), ("default", Json.word costs.other.toNat)]

def Options.toJson (o : Options) : Json :=
  .object [("entry", .string o.entry), ("memory_max_pages", Json.word o.memoryMaxPages.toNat),
    ("control_block", o.controlBlock.toJson), ("costs", o.costs.toJson),
    ("optimize_level", Json.word o.optimizeLevel.toNat),
    ("shrink_level", Json.word o.shrinkLevel.toNat), ("default_passes", .bool o.defaultPasses),
    ("max_wasm_stack", Json.word o.maxWasmStack.toNat)]

/-! ## Reading -/

namespace ControlBlock

def fields : List String := ["address", "stack_end"]

def ofJson? (j : Json) : Option ControlBlock := do
  let members ← j.members? fields
  return {
    address := ← Json.required? Json.u32? members "address"
    stackEnd := ← Json.required? Json.u32? members "stack_end" }

end ControlBlock

namespace Metering.CostTable

def fields : List String := ["control", "call", "memory_access", "memory_grow", "default"]

def ofJson? (j : Json) : Option CostTable := do
  let members ← j.members? fields
  return {
    control := ← Json.required? Json.u32? members "control"
    call := ← Json.required? Json.u32? members "call"
    memoryAccess := ← Json.required? Json.u32? members "memory_access"
    memoryGrow := ← Json.required? Json.u32? members "memory_grow"
    other := ← Json.required? Json.u32? members "default" }

end Metering.CostTable

namespace Options

/-- The fields in the order of their declaration. -/
def fields : List String :=
  ["entry", "memory_max_pages", "control_block", "costs", "optimize_level", "shrink_level",
    "default_passes", "max_wasm_stack"]

def ofMembers? (members : List (String × Json)) : Option Options := do
  return {
    entry := ← Json.field? Json.string? standard.entry members "entry"
    memoryMaxPages := ← Json.field? Json.u64? standard.memoryMaxPages members "memory_max_pages"
    controlBlock :=
      ← Json.field? ControlBlock.ofJson? standard.controlBlock members "control_block"
    costs := ← Json.field? Metering.CostTable.ofJson? standard.costs members "costs"
    optimizeLevel := ← Json.field? Json.u8? standard.optimizeLevel members "optimize_level"
    shrinkLevel := ← Json.field? Json.u8? standard.shrinkLevel members "shrink_level"
    defaultPasses := ← Json.field? Json.bool? standard.defaultPasses members "default_passes"
    maxWasmStack := ← Json.field? Json.u64? standard.maxWasmStack members "max_wasm_stack" }

def ofJson? (j : Json) : Option Options := (j.members? fields).bind ofMembers?

end Options

end MeteredWasm
