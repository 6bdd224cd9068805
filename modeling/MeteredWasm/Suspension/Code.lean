import MeteredWasm.Wasm.Validation.Module

/-!
# Code as a tree

Code that can be suspended is taken apart at its blocks. Every operator comes with the frames that
are open in front of it, which say what stands on the operand stack there. Code that cannot be
reached is left out, so all operands have types.

A local is live where its value may still be read; sets of locals are written as numbers, with one
bit for each local.
-/

set_option autoImplicit false

namespace MeteredWasm.Suspension

open Wasm

/-- An operator in its place. -/
structure Spot where
  op : Operator
  /-- How many operators of the body stand in front. -/
  position : Nat
  /-- The frames that are open in front of it, innermost first. -/
  frames : List Validation.Frame

/-- Code up to the end of its block. -/
inductive Code
  /-- The end, with the frames there; none if it cannot be reached. -/
  | done (frames : Option (List Validation.Frame))
  | op (s : Spot) (rest : Code)
  /-- A block or a loop. -/
  | nest (s : Spot) (body rest : Code)
  | choice (s : Spot) (yes no rest : Code)

/-! ## Taking code apart -/

/-- The operators of a body in their places. -/
def spots? (c : Validation.Context) (locals : Array ValType) (results : List ValType) :
    (position : Nat) → List Validation.Frame → List Operator → Option (List Spot)
  | _, _, [] => some []
  | position, frames, op :: ops => do
    let after ← Validation.step? c locals results op frames
    return ⟨op, position, frames⟩ :: (← spots? c locals results (position + 1) after ops)

/-- Whether nothing behind the operator is reached from it. -/
def isFinal : Operator → Bool
  | .unreachable | .br _ | .brTable _ _ | .ret => true
  | _ => false

/-- What is left from the end of the innermost block but `k` on, or from its other branch. -/
def skipDead (k : Nat) : List Spot → List Spot
  | [] => []
  | s :: rest =>
    match s.op, k with
    | .block _, _ | .loop _, _ | .ifThen _, _ => skipDead (k + 1) rest
    | .elseMark, 0 | .endMark, 0 => s :: rest
    | .endMark, k + 1 => skipDead k rest
    | _, _ => skipDead k rest

/-- Code up to the end of its block, and what is left from there on. A body has fewer blocks than
`fuel`, which is its length. -/
def parse (fuel : Nat) (input : List Spot) : Code × List Spot :=
  match fuel, input with
  | 0, rest => (.done none, rest)
  | _, [] => (.done none, [])
  | fuel + 1, s :: rest =>
    match s.op with
    | .elseMark | .endMark => (.done (some s.frames), s :: rest)
    | .block _ | .loop _ =>
      let (body, rest) := parse fuel rest
      let (after, rest) := parse fuel (rest.drop 1)
      (.nest s body after, rest)
    | .ifThen _ =>
      let (yes, rest) := parse fuel rest
      match rest with
      | ⟨.elseMark, _, _⟩ :: rest =>
        let (no, rest) := parse fuel rest
        let (after, rest) := parse fuel (rest.drop 1)
        (.choice s yes no after, rest)
      | rest =>
        let (after, rest) := parse fuel (rest.drop 1)
        (.choice s yes (.done (some s.frames)) after, rest)
    | op =>
      if isFinal op then (.op s (.done none), skipDead 0 rest)
      else
        let (after, rest) := parse fuel rest
        (.op s after, rest)

/-! ## Calls that may be suspended -/

/-- Whether an operator calls a function that may be suspended; a call through a table may reach
any. -/
def Spot.suspends (suspending : List UInt32) (s : Spot) : Bool :=
  match s.op with
  | .call func => suspending.contains func
  | .callIndirect _ _ => true
  | _ => false

def Code.suspends (suspending : List UInt32) : Code → Bool
  | .done _ => false
  | .op s rest => s.suspends suspending || rest.suspends suspending
  | .nest _ body rest => body.suspends suspending || rest.suspends suspending
  | .choice _ yes no rest =>
    yes.suspends suspending || no.suspends suspending || rest.suspends suspending

/-! ## Live locals -/

abbrev LocalSet := Nat

def LocalSet.insert (s : LocalSet) (index : UInt32) : LocalSet := s ||| (1 <<< index.toNat)

def LocalSet.erase (s : LocalSet) (index : UInt32) : LocalSet :=
  if s.testBit index.toNat then s ^^^ (1 <<< index.toNat) else s

/-- What is live in front of an operator, if `after` is live behind it and `labels` are live where
the labels lead. -/
def liveBefore (labels : List LocalSet) (after : LocalSet) : Operator → LocalSet
  | .localGet index => after.insert index
  | .localSet index | .localTee index => after.erase index
  | .br label => labels.getD label.toNat 0
  | .brIf label => after ||| labels.getD label.toNat 0
  | .brTable targets fallback =>
    (fallback :: targets).foldl (fun s label => s ||| labels.getD label.toNat 0) 0
  | .ret | .unreachable => 0
  | _ => after

/-- What is live in front of code, and what is live behind some call in it that may be suspended. -/
def Code.live (suspending : List UInt32) (labels : List LocalSet) (out : LocalSet) :
    Code → LocalSet × LocalSet
  | .done none => (0, 0)
  | .done (some _) => (out, 0)
  | .op s rest =>
    let (after, kept) := rest.live suspending labels out
    (liveBefore labels after s.op, if s.suspends suspending then kept ||| after else kept)
  | .nest s body rest =>
    let (after, kept) := rest.live suspending labels out
    -- What is live at the head of a loop does not depend on what is live at its label.
    let label :=
      match s.op with
      | .loop _ => (body.live suspending (0 :: labels) after).1
      | _ => after
    let (inside, keptInside) := body.live suspending (label :: labels) after
    (inside, kept ||| keptInside)
  | .choice _ yes no rest =>
    let (after, kept) := rest.live suspending labels out
    let (inYes, keptYes) := yes.live suspending (after :: labels) after
    let (inNo, keptNo) := no.live suspending (after :: labels) after
    (inYes ||| inNo, kept ||| keptYes ||| keptNo)

end MeteredWasm.Suspension
