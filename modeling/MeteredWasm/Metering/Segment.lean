import MeteredWasm.Metering.Cost

/-!
# Segments

Code is split into segments: runs of operators that are entered at the top only and left at the
bottom only. A segment ends after every operator that control may leave from or arrive behind:
branches, the marks of blocks, and `memory.grow`, whose cost is charged with what stands before it
and not with what follows. A call does not end a segment: it comes back to the operator behind it.

`split` is the split of a body; `flatten_split` says that it loses nothing.
-/

set_option autoImplicit false

namespace MeteredWasm.Metering

open Wasm

/-- Opcodes of proposals that end a segment: exception handling and branches on references. -/
def endingProposals : List Opcode :=
  [0x06, 0x07, 0x08, 0x09, 0x0A, 0x15, 0x18, 0x19, 0x1F, 0xD5, 0xD6].map (⟨none, ·⟩) ++
    [⟨some 0xFB, 0x18⟩, ⟨some 0xFB, 0x19⟩]

/-- Whether control can leave or enter straight after the operator. -/
def endsSegment : Operator → Bool
  | .unreachable | .elseMark | .endMark | .ret | .block _ | .loop _ | .ifThen _ | .br _ | .brIf _
  | .brTable _ _ | .returnCall _ | .returnCallIndirect _ _ | .memoryGrow _ => true
  | .proposal p => endingProposals.contains p.opcode
  | _ => false

theorem endsSegment_mapFunc (f : UInt32 → UInt32) (op : Operator) :
    endsSegment (op.mapFunc f) = endsSegment op := by
  cases op <;> rfl

/-- The segments of a body, in order. -/
def split : List Operator → List (List Operator)
  | [] => []
  | op :: ops =>
    if endsSegment op then [op] :: split ops
    else
      match split ops with
      | [] => [[op]]
      | segment :: segments => (op :: segment) :: segments

/-- The cost of a run of operators, as an exact number. -/
def totalCost (rules : Rules) (ops : List Operator) : Nat :=
  ops.foldr (fun op total => (rules op).toNat + total) 0

/-- The largest charge, and the greatest number that a hook's parameter holds. -/
def maxCharge : Nat := 0x7FFFFFFF

/-- What is charged for a segment before it runs. -/
def charge (rules : Rules) (segment : List Operator) : Nat :=
  min (totalCost rules segment) maxCharge

theorem flatten_split (ops : List Operator) : (split ops).flatten = ops := by
  induction ops with
  | nil => rfl
  | cons op ops ih =>
    rw [split]
    split
    · simp [ih]
    · split <;> simp_all

end MeteredWasm.Metering
