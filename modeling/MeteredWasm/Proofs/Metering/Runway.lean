import MeteredWasm.Proofs.Metering.Charges

/-!
# Operators in front of the next charge

`runway` counts the operators that come before the next charge. Where every operator costs
something, metered code has a charge, or comes to its end, behind every operator that ends a segment
(`segmented_meterCode`). All other operators are followed by the next one in the code; so wherever
control arrives other than by running on, it stands in front of a charge (`successors_charged`).
-/

set_option autoImplicit false

namespace MeteredWasm.Metering

open Wasm Machine

/-- How many operators there are in front of the next charge. -/
def runway (hook : UInt32) : List Operator → Nat
  | [] => 0
  | op :: code => if inCharge hook op code.head? then 0 else runway hook code + 1

/-- Behind every operator that ends a segment there is a charge, or no code at all. -/
def Segmented (hook : UInt32) : List Operator → Prop
  | [] => True
  | op :: code => (endsSegment op = true → runway hook code = 0) ∧ Segmented hook code

section
variable {hook : UInt32} {code more : List Operator}

theorem Segmented.suffix (h : Segmented hook code) (hs : more <:+ code) : Segmented hook more := by
  induction code with
  | nil =>
    rw [List.suffix_nil.1 hs]
    trivial
  | cons op code ih =>
    rcases List.suffix_cons_iff.1 hs with rfl | hs
    · exact h
    · exact ih h.2 hs

/-- No more operators are in front of the next charge than are left at all. -/
theorem runway_le_ownOps (hook : UInt32) (code : List Operator) :
    runway hook code ≤ (ownOps hook code).length := by
  induction code with
  | nil => exact Nat.le_refl _
  | cons op code ih =>
    rw [runway, ownOps]
    split
    · exact Nat.zero_le _
    · exact Nat.succ_le_succ ih

theorem ownOps_suffix (hs : more <:+ code) : ownOps hook more <:+ ownOps hook code := by
  induction code with
  | nil =>
    obtain rfl := List.suffix_nil.1 hs
    exact List.suffix_refl _
  | cons op code ih =>
    rcases List.suffix_cons_iff.1 hs with rfl | hs
    · exact List.suffix_refl _
    · refine (ih hs).trans ?_
      rw [ownOps]
      split
      · exact List.suffix_refl _
      · exact List.suffix_cons ..

/-! ## Looking ahead -/

/-- Behind the end of a block there is a charge. -/
theorem runway_skipEnd (h : Segmented hook code) (k : Nat) :
    runway hook (skipEnd k code) = 0 := by
  induction code generalizing k with
  | nil => rfl
  | cons op code ih =>
    cases hb : marksBlock op with
    | false =>
      rw [skipEnd_cons_of_not hb]
      exact ih h.2 k
    | true =>
      cases op <;> simp only [marksBlock, Bool.false_eq_true] at hb <;> simp only [skipEnd]
      case endMark =>
        cases k with
        | zero => exact h.1 rfl
        | succ k => exact ih h.2 k
      all_goals exact ih h.2 _

/-- In front of the other branch of an `ifThen` there is a charge. -/
theorem runway_skipElse (h : Segmented hook code) (k : Nat) :
    runway hook (skipElse k code).2 = 0 := by
  induction code generalizing k with
  | nil => rfl
  | cons op code ih =>
    cases hb : marksBlock op with
    | false =>
      rw [skipElse_cons_of_not hb]
      exact ih h.2 k
    | true =>
      cases op <;> simp only [marksBlock, Bool.false_eq_true] at hb <;> simp only [skipElse]
      case elseMark | endMark =>
        cases k with
        | zero => exact h.1 rfl
        | succ k => exact ih h.2 _
      all_goals exact ih h.2 _

end

/-! ## Metered code -/

section
variable {plan : Plan} (hcost : ∀ op, 1 ≤ plan.rules op)
include hcost

/-- Every segment that is not empty is charged for. -/
theorem charge_ne_zero {code : List Operator} (h : code ≠ []) :
    charge plan.rules (segmentAt code) ≠ 0 := by
  cases code with
  | nil => exact absurd rfl h
  | cons op code =>
    have hop := UInt32.le_iff_toNat_le.1 (hcost op)
    simp only [UInt32.reduceToNat] at hop
    rw [charge, segmentAt_cons, totalCost_cons, maxCharge]
    omega

theorem runway_meterCode (code : List Operator) : runway plan.hook (meterCode plan code) = 0 := by
  rw [meterCode_eq]
  cases code with
  | nil => simp [runway]
  | cons op code =>
    rw [chargeOps, if_neg (charge_ne_zero hcost (List.cons_ne_nil op code))]
    simp [runway, inCharge]

theorem segmented_meterCode (code : List Operator) :
    Segmented plan.hook (meterCode plan code) := by
  -- Behind the charge of a segment the same holds, so both are proved at once.
  have hboth : Segmented plan.hook (paidCode plan code) ∧
      Segmented plan.hook (meterCode plan code) := by
    induction code with
    | nil => exact ⟨trivial, trivial⟩
    | cons op ops ih =>
      have hpaid : Segmented plan.hook (paidCode plan (op :: ops)) := by
        rw [paidCode_cons, Segmented, endsSegment_mapFunc]
        cases hends : endsSegment op with
        | true => exact ⟨fun _ => runway_meterCode hcost ops, ih.2⟩
        | false => exact ⟨by simp, ih.1⟩
      refine ⟨hpaid, ?_⟩
      rw [meterCode_eq, chargeOps]
      split
      · exact hpaid
      · exact ⟨by simp [endsSegment], by simp [endsSegment], hpaid⟩
  exact hboth.2

end

/-- What is no part of a charge is the code itself, moved. -/
theorem ownOps_meterCode {plan : Plan} {code : List Operator} (hmov : ∀ op ∈ code, Movable op) :
    (ownOps plan.hook (meterCode plan code)).map (Operator.mapFunc (unshift plan.hook)) = code := by
  rw [meterCode_eq, ownOps_chargeOps_append, ownOps_paidCode hmov, map_unshift hmov]

/-! ## Where control arrives -/

/-- A point in a body where a branch back to a loop comes to a charge. -/
structure LoopsCharged (hook : UInt32) (body : List Operator) (p : Point) : Prop where
  inside : p.Inside body
  again : ∀ again ∈ p.labels, ∀ code ∈ again, runway hook code = 0

section
variable {hook : UInt32} {body : List Operator} {p q : Point}

theorem LoopsCharged.start (hook : UInt32) (body : List Operator) :
    LoopsCharged hook body (.start body) :=
  ⟨Point.inside_start body, nofun⟩

/-- Behind an operator that ends a segment control arrives in front of a charge. -/
theorem successors_charged {op : Operator} (hbody : Segmented hook body)
    (h : LoopsCharged hook body p) (hop : op :: p.code <:+ body) (hends : endsSegment op = true)
    (hq : some q ∈ p.successors op) : LoopsCharged hook body q ∧ runway hook q.code = 0 := by
  have hcode := hbody.suffix h.inside.1
  have hrunway : runway hook p.code = 0 := (hbody.suffix hop).1 hends
  obtain ⟨hnext, hloops⟩ := successors_all (P := fun code => runway hook code = 0) h.again
    (runway_skipEnd hcode) hrunway (runway_skipElse hcode 0) hq
  exact ⟨⟨successors_inside h.inside hq, hloops⟩, hnext⟩

end

end MeteredWasm.Metering
