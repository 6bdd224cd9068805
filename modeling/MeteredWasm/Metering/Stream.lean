import MeteredWasm.Metering.Pass

/-!
# Metering in one pass

The same as `meterCode`, without looking ahead: operators are moved as they come and held back until
their segment ends, while their costs add up in a word that stays at its greatest value once it is
full. What is held back is then put out behind its charge. At the end of the body whatever is
left is put out too.
-/

set_option autoImplicit false

namespace MeteredWasm.Metering

open Wasm

/-- The sum of two words, or the greatest word if there is no room for it. -/
def saturatingAdd (a b : UInt32) : UInt32 :=
  if a.toNat + b.toNat < UInt32.size then a + b else 0xFFFFFFFF

/-- The segment that is being read: its operators so far, moved, and what they cost. -/
structure Pending where
  operators : List Operator
  cost : UInt32

namespace Pending

def empty : Pending := ⟨[], 0⟩

def push (plan : Plan) (p : Pending) (op : Operator) : Pending :=
  ⟨p.operators ++ [op.mapFunc (shift plan.hook)], saturatingAdd p.cost (plan.rules op)⟩

/-- The greatest number of the hook's parameter stands for every cost past it. -/
def flush (plan : Plan) (p : Pending) : List Operator :=
  (if 0 < p.cost then
    [.i32Const (if p.cost ≤ 0x7FFFFFFF then p.cost else 0x7FFFFFFF), .call plan.hook]
  else []) ++ p.operators

end Pending

/-- Meters operators that follow those of a pending segment. -/
def streamCode (plan : Plan) : Pending → List Operator → List Operator
  | p, [] => p.flush plan
  | p, op :: ops =>
    if endsSegment op then (p.push plan op).flush plan ++ streamCode plan .empty ops
    else streamCode plan (p.push plan op) ops

end MeteredWasm.Metering
