import MeteredWasm.Wasm.Operator.Basic

/-!
# Costs of operators

What an operator costs is a function of the operator alone. The usual one is a table of five
classes: control flow, calls, plain memory accesses, `memory.grow`, and everything else.
-/

set_option autoImplicit false

namespace MeteredWasm.Metering

open Wasm

/-- What each operator costs. -/
abbrev Rules := Operator → UInt32

/-- Every operator costs the same. -/
def Rules.constant (cost : UInt32) : Rules := fun _ => cost

/-- Direct calls have a cost, everything else is free. -/
def Rules.calls (cost : UInt32) : Rules
  | .call _ => cost
  | _ => 0

inductive CostClass
  | control | call | memoryAccess | memoryGrow | other
  deriving Repr, DecidableEq

/-- The class of an operator. Vector and atomic accesses are in no class of their own. -/
def CostClass.of : Operator → CostClass
  | .unreachable | .nop | .elseMark | .endMark | .ret | .block _ | .loop _ | .ifThen _ | .br _
  | .brIf _ | .brTable _ _ => .control
  | .call _ | .callIndirect _ _ | .returnCall _ | .returnCallIndirect _ _ => .call
  | .proposal p => if p.isSingle 0x14 || p.isSingle 0x15 then .call else .other
  | .memoryGrow _ => .memoryGrow
  | .load _ _ | .store _ _ | .memoryCopy _ _ | .memoryFill _ | .memoryInit _ _ => .memoryAccess
  | _ => .other

structure CostTable where
  control : UInt32
  call : UInt32
  memoryAccess : UInt32
  memoryGrow : UInt32
  other : UInt32
  deriving Repr, DecidableEq

namespace CostTable

def standard : CostTable where
  control := 1
  call := 2
  memoryAccess := 2
  memoryGrow := 1024
  other := 1

def ofClass (table : CostTable) : CostClass → UInt32
  | .control => table.control
  | .call => table.call
  | .memoryAccess => table.memoryAccess
  | .memoryGrow => table.memoryGrow
  | .other => table.other

/-- An operator costs what its class costs. -/
def rules (table : CostTable) : Rules := fun op => table.ofClass (.of op)

end CostTable

end MeteredWasm.Metering
