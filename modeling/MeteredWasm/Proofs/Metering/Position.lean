import MeteredWasm.Metering.Pass
import MeteredWasm.Proofs.Machine.Skip

/-!
# Metered code from a position on

A position in a body is the code that is left there. Two positions of the metered body belong to
it: in front of the charge of its segment (`meterCode`), and behind that charge (`paidCode`). The
first is the second behind the charge (`meterCode_eq`), and running on past an operator leads from
`paidCode` to one of the two (`paidCode_cons`): to the first exactly if the operator ends its
segment.

Looking for the end of a block, or for its other branch, in metered code finds the metered form of
what is found in the original code, in front of the charge (`skipEnd_paidCode`,
`skipElse_paidCode`), since every operator that is looked for ends a segment.

`due` is what the rest of the segment costs.
-/

set_option autoImplicit false

namespace MeteredWasm.Metering

open Wasm Machine

/-! ## Segments at a position -/

/-- The rest of the segment that a position is in. -/
def segmentAt (code : List Operator) : List Operator := (split code).headD []

/-- What the operators of the segment that are left cost. -/
def due (rules : Rules) (code : List Operator) : Nat := totalCost rules (segmentAt code)

@[simp] theorem totalCost_nil (rules : Rules) : totalCost rules [] = 0 := rfl

@[simp] theorem totalCost_cons (rules : Rules) (op : Operator) (ops : List Operator) :
    totalCost rules (op :: ops) = (rules op).toNat + totalCost rules ops := rfl

@[simp] theorem totalCost_append (rules : Rules) (ops more : List Operator) :
    totalCost rules (ops ++ more) = totalCost rules ops + totalCost rules more := by
  induction ops with
  | nil => simp
  | cons op ops ih => simp only [List.cons_append, totalCost_cons, ih]; omega

theorem split_cons_of_ends {op : Operator} (h : endsSegment op = true) (ops : List Operator) :
    split (op :: ops) = [op] :: split ops := by simp [split, h]

theorem split_cons_of_not {op : Operator} (h : endsSegment op = false) (ops : List Operator) :
    split (op :: ops) = (op :: segmentAt ops) :: (split ops).tail := by
  simp only [split, h, Bool.false_eq_true, if_false, segmentAt]
  cases split ops <;> rfl

@[simp] theorem segmentAt_nil : segmentAt [] = [] := rfl

theorem segmentAt_cons (op : Operator) (ops : List Operator) :
    segmentAt (op :: ops) = op :: (if endsSegment op then [] else segmentAt ops) := by
  cases h : endsSegment op with
  | true => simp [segmentAt, split_cons_of_ends h]
  | false => rw [segmentAt, split_cons_of_not h]; rfl

@[simp] theorem due_nil (rules : Rules) : due rules [] = 0 := rfl

theorem due_cons (rules : Rules) (op : Operator) (ops : List Operator) :
    due rules (op :: ops) = (rules op).toNat + (if endsSegment op then 0 else due rules ops) := by
  rw [due, segmentAt_cons, totalCost_cons]
  split <;> rfl

/-! ## Behind the charge -/

/-- The metered code at a position whose segment has been charged for. -/
def paidCode (plan : Plan) : List Operator → List Operator
  | [] => []
  | op :: ops =>
    op.mapFunc (shift plan.hook) ::
      (if endsSegment op then meterCode plan ops else paidCode plan ops)

variable (plan : Plan)

@[simp] theorem paidCode_nil : paidCode plan [] = [] := rfl

theorem paidCode_cons (op : Operator) (ops : List Operator) :
    paidCode plan (op :: ops) = op.mapFunc (shift plan.hook) ::
      (if endsSegment op then meterCode plan ops else paidCode plan ops) := rfl

@[simp] theorem meterCode_nil : meterCode plan [] = [] := rfl

@[simp] theorem chargeOps_nil : chargeOps plan [] = [] := by simp [chargeOps, charge]

/-- Metered code is the charge of its first segment and what comes behind it. -/
theorem meterCode_eq (code : List Operator) :
    meterCode plan code = chargeOps plan (segmentAt code) ++ paidCode plan code := by
  induction code with
  | nil => simp
  | cons op ops ih =>
    cases h : endsSegment op with
    | true =>
      rw [meterCode, split_cons_of_ends h, segmentAt_cons, paidCode_cons, h]
      simp [meterSegment, meterCode]
    | false =>
      -- What follows the segment is metered the same from here and from the next operator on.
      have hrest : (segmentAt ops).map (Operator.mapFunc (shift plan.hook)) ++
          (split ops).tail.flatMap (meterSegment plan) = paidCode plan ops := by
        rw [meterCode] at ih
        cases hs : split ops with
        | nil =>
          have : ops = [] := by rw [← flatten_split ops, hs]; rfl
          subst this
          rfl
        | cons segment segments =>
          rw [hs, List.flatMap_cons, meterSegment] at ih
          simp only [segmentAt, hs, List.headD_cons, List.append_assoc] at ih
          simpa [segmentAt, hs] using List.append_cancel_left ih
      rw [meterCode, split_cons_of_not h, segmentAt_cons, paidCode_cons, h, List.flatMap_cons,
        meterSegment]
      simp [← hrest]

/-- What metering does to code, operator by operator: it moves the function of each, and puts
charges in front of some. -/
@[elab_as_elim]
theorem meterCode_induction {plan : Plan} {motive : List Operator → List Operator → Prop}
    (code : List Operator) (nil : motive [] [])
    (operator : ∀ op ops code, motive ops code →
      motive (op :: ops) (op.mapFunc (shift plan.hook) :: code))
    (charge : ∀ op ops code cost, motive (op :: ops) code →
      motive (op :: ops) (.i32Const cost :: .call plan.hook :: code)) :
    motive code (meterCode plan code) := by
  -- Behind the charge of a segment the same holds, so both are proved at once.
  have hboth : motive code (paidCode plan code) ∧ motive code (meterCode plan code) := by
    induction code with
    | nil => exact ⟨nil, nil⟩
    | cons op ops ih =>
      have hpaid : motive (op :: ops) (paidCode plan (op :: ops)) := by
        rw [paidCode_cons]
        split
        · exact operator op ops _ ih.2
        · exact operator op ops _ ih.1
      refine ⟨hpaid, ?_⟩
      rw [meterCode_eq, chargeOps]
      split
      · exact hpaid
      · exact charge op ops _ _ hpaid
  exact hboth.2

/-! ## Looking ahead -/

theorem endsSegment_of_marksBlock {op : Operator} (h : marksBlock op = true) :
    endsSegment op = true := by cases op <;> simp_all [marksBlock, endsSegment]

/-- A charge stands between blocks. -/
theorem marksBlock_chargeOps (segment : List Operator) :
    ∀ op ∈ chargeOps plan segment, marksBlock op = false := by
  intro op h
  simp only [chargeOps] at h
  split at h
  · simp at h
  · simp only [List.mem_cons, List.not_mem_nil, or_false] at h
    rcases h with rfl | rfl <;> rfl

theorem skipEnd_meterCode_eq (k : Nat) (code : List Operator) :
    skipEnd k (meterCode plan code) = skipEnd k (paidCode plan code) := by
  rw [meterCode_eq, skipEnd_append_of_not (marksBlock_chargeOps plan _)]

theorem skipElse_meterCode_eq (k : Nat) (code : List Operator) :
    skipElse k (meterCode plan code) = skipElse k (paidCode plan code) := by
  rw [meterCode_eq, skipElse_append_of_not (marksBlock_chargeOps plan _)]

theorem skipEnd_paidCode (k : Nat) (code : List Operator) :
    skipEnd k (paidCode plan code) = meterCode plan (skipEnd k code) := by
  induction code generalizing k with
  | nil => rfl
  | cons op ops ih =>
    rw [paidCode_cons]
    cases hb : marksBlock op with
    | false =>
      have hm := marksBlock_mapFunc (shift plan.hook) op
      rw [skipEnd_cons_of_not (hm.trans hb), skipEnd_cons_of_not hb]
      split
      · rw [skipEnd_meterCode_eq, ih]
      · rw [ih]
    | true =>
      rw [if_pos (endsSegment_of_marksBlock hb)]
      cases op <;> simp only [marksBlock, Bool.false_eq_true] at hb
      case endMark =>
        -- The mark that closes the innermost block is what was looked for.
        cases k with
        | zero => rfl
        | succ k => simp only [Operator.mapFunc, skipEnd, skipEnd_meterCode_eq, ih]
      all_goals simp only [Operator.mapFunc, skipEnd, skipEnd_meterCode_eq, ih]

theorem skipEnd_meterCode (k : Nat) (code : List Operator) :
    skipEnd k (meterCode plan code) = meterCode plan (skipEnd k code) := by
  rw [skipEnd_meterCode_eq, skipEnd_paidCode]

theorem skipElse_paidCode (k : Nat) (code : List Operator) :
    skipElse k (paidCode plan code) =
      ((skipElse k code).1, meterCode plan (skipElse k code).2) := by
  induction code generalizing k with
  | nil => rfl
  | cons op ops ih =>
    rw [paidCode_cons]
    cases hb : marksBlock op with
    | false =>
      have hm := marksBlock_mapFunc (shift plan.hook) op
      rw [skipElse_cons_of_not (hm.trans hb), skipElse_cons_of_not hb]
      split
      · rw [skipElse_meterCode_eq, ih]
      · rw [ih]
    | true =>
      rw [if_pos (endsSegment_of_marksBlock hb)]
      cases op <;> simp only [marksBlock, Bool.false_eq_true] at hb
      case elseMark | endMark =>
        cases k with
        | zero => rfl
        | succ k => simp only [Operator.mapFunc, skipElse, skipElse_meterCode_eq, ih]
      all_goals simp only [Operator.mapFunc, skipElse, skipElse_meterCode_eq, ih]

theorem skipElse_meterCode (k : Nat) (code : List Operator) :
    skipElse k (meterCode plan code) =
      ((skipElse k code).1, meterCode plan (skipElse k code).2) := by
  rw [skipElse_meterCode_eq, skipElse_paidCode]

end MeteredWasm.Metering
