import MeteredWasm.Machine.State

/-!
# Control flow

Where code goes on. A forward branch looks for the end of its block in the code that is left; the
end of every block that code is in lies there.
-/

set_option autoImplicit false

namespace MeteredWasm.Machine

open Wasm

/-- The code behind the end of the innermost block but `k`. -/
def skipEnd (k : Nat) : List Operator → List Operator
  | [] => []
  | .block _ :: ops | .loop _ :: ops | .ifThen _ :: ops => skipEnd (k + 1) ops
  | .endMark :: ops =>
    match k with
    | 0 => ops
    | k + 1 => skipEnd k ops
  | _ :: ops => skipEnd k ops

/-- The code of the other branch of an `ifThen`, if it has one: else what is behind its end. `k`
counts the blocks entered on the way. -/
def skipElse (k : Nat) : List Operator → Bool × List Operator
  | [] => (false, [])
  | .block _ :: ops | .loop _ :: ops | .ifThen _ :: ops => skipElse (k + 1) ops
  | .elseMark :: ops =>
    match k with
    | 0 => (true, ops)
    | k + 1 => skipElse (k + 1) ops
  | .endMark :: ops =>
    match k with
    | 0 => (false, ops)
    | k + 1 => skipElse k ops
  | _ :: ops => skipElse k ops

namespace Activation

/-- The activation of a function that is called; locals follow its parameters. -/
def start (func : UInt32) (type : FuncType) (locals : List ValType) (body : List Operator)
    (args : List Value) : Activation where
  func
  arity := type.results.length
  locals := args ++ locals.map Value.zero
  operands := []
  labels := []
  code := body

variable (a : Activation)

/-- Enters a block that takes `arity` operands; `code` is its body and what follows. -/
def enter (arity results : Nat) (isLoop : Bool) (operands : List Value) (code : List Operator) :
    Activation :=
  let label : Label :=
    { arity := if isLoop then arity else results
      below := operands.drop arity
      again := if isLoop then some code else none }
  { a with operands, labels := label :: a.labels, code }

/-- Takes a branch; `none` if it leaves the function. -/
def branch (k : Nat) (operands : List Value) : Option Activation :=
  match a.labels[k]? with
  | none => none
  | some label =>
    let operands := operands.take label.arity ++ label.below
    match label.again with
    | some body => some { a with operands, labels := a.labels.drop k, code := body }
    | none => some { a with operands, labels := a.labels.drop (k + 1), code := skipEnd k a.code }

/-- What a branch to label `k` makes the thread do: it goes on, or the function returns. -/
def jump (k : Nat) (operands : List Value) : Control :=
  match a.branch k operands with
  | some b => .run b
  | none => .give (operands.take a.arity).reverse

end Activation

end MeteredWasm.Machine
