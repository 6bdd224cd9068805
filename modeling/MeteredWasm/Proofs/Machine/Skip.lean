import MeteredWasm.Machine.Flow

/-!
# Looking for the end of a block

`skipEnd` and `skipElse` only look at the marks of blocks, and what they find is part of the code
that they are given.
-/

set_option autoImplicit false

namespace MeteredWasm.Machine

open Wasm

/-- The operators that open, turn or close a block. -/
def marksBlock : Operator → Bool
  | .block _ | .loop _ | .ifThen _ | .elseMark | .endMark => true
  | _ => false

theorem skipEnd_cons_of_not {op : Operator} (h : marksBlock op = false) (k : Nat)
    (ops : List Operator) : skipEnd k (op :: ops) = skipEnd k ops := by
  cases op <;> simp_all [marksBlock, skipEnd]

theorem skipElse_cons_of_not {op : Operator} (h : marksBlock op = false) (k : Nat)
    (ops : List Operator) : skipElse k (op :: ops) = skipElse k ops := by
  cases op <;> simp_all [marksBlock, skipElse]

theorem marksBlock_mapFunc (f : UInt32 → UInt32) (op : Operator) :
    marksBlock (op.mapFunc f) = marksBlock op := by cases op <;> rfl

theorem skipEnd_append_of_not {front : List Operator} (h : ∀ op ∈ front, marksBlock op = false)
    (k : Nat) (ops : List Operator) : skipEnd k (front ++ ops) = skipEnd k ops := by
  induction front with
  | nil => rfl
  | cons op front ih =>
    rw [List.cons_append, skipEnd_cons_of_not (h op (by simp)), ih fun x hx => h x (by simp [hx])]

theorem skipElse_append_of_not {front : List Operator} (h : ∀ op ∈ front, marksBlock op = false)
    (k : Nat) (ops : List Operator) : skipElse k (front ++ ops) = skipElse k ops := by
  induction front with
  | nil => rfl
  | cons op front ih =>
    rw [List.cons_append, skipElse_cons_of_not (h op (by simp)), ih fun x hx => h x (by simp [hx])]

/-- What lies behind the end of a block is part of the code. -/
theorem skipEnd_suffix (k : Nat) (code : List Operator) : skipEnd k code <:+ code := by
  induction code generalizing k with
  | nil => exact List.suffix_refl _
  | cons op ops ih =>
    cases hb : marksBlock op with
    | false =>
      rw [skipEnd_cons_of_not hb]
      exact (ih k).trans (List.suffix_cons _ _)
    | true =>
      cases op <;> simp only [marksBlock, Bool.false_eq_true] at hb <;> simp only [skipEnd]
      case endMark =>
        cases k with
        | zero => exact List.suffix_cons _ _
        | succ k => exact (ih k).trans (List.suffix_cons _ _)
      all_goals exact (ih _).trans (List.suffix_cons _ _)

theorem skipElse_suffix (k : Nat) (code : List Operator) : (skipElse k code).2 <:+ code := by
  induction code generalizing k with
  | nil => exact List.suffix_refl _
  | cons op ops ih =>
    cases hb : marksBlock op with
    | false =>
      rw [skipElse_cons_of_not hb]
      exact (ih k).trans (List.suffix_cons _ _)
    | true =>
      cases op <;> simp only [marksBlock, Bool.false_eq_true] at hb <;> simp only [skipElse]
      case elseMark | endMark =>
        cases k with
        | zero => exact List.suffix_cons _ _
        | succ k => exact (ih _).trans (List.suffix_cons _ _)
      all_goals exact (ih _).trans (List.suffix_cons _ _)

end MeteredWasm.Machine
