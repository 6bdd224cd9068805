import MeteredWasm.Proofs.Metering.Position
import MeteredWasm.Proofs.Simulation.Lockstep

/-!
# Where a metered thread stands

A metered thread belongs to a thread of the original module, moved. It may be behind on it: where a
segment starts it first passes the charge, which takes it four steps (`Stage`). A stage comes with what is
still to be charged before both stand at the same place, and with the steps that are left until
then.

In every stage but the last the metered thread moves on alone, and only the call of the hook does
anything but that (`Stage.split`). Control that arrives somewhere arrives in one of the stages
(`stage_arrive`).
-/

set_option autoImplicit false

namespace MeteredWasm.Simulation

open Wasm Machine Metering

/-- The translation of a module that is metered. -/
def metering (plan : Plan) : Translation where
  func := shift plan.hook
  fresh := meterCode plan
  paid := paidCode plan
  paid_nil := rfl
  paid_cons _ _ := rfl
  skipEnd_fresh := skipEnd_meterCode plan
  skipElse_fresh := skipElse_meterCode plan

/-- What is charged in front of code. -/
def toll (plan : Plan) (code : List Operator) : Nat := charge plan.rules (segmentAt code)

/-- What is charged where control of a thread has arrived, if a segment starts there. -/
def tollAt (plan : Plan) (ends : Bool) (t : Thread) : Nat :=
  match ends, t.control with
  | true, .run a => toll plan a.code
  | _, _ => 0

/-- The number that is charged, as an argument. -/
def chargeArg (cost : Nat) : Value := .ofWord cost.toUInt32

/-- `Stage plan t c left t'`: the metered thread `t'` belongs to `t`, and has `c` to pay and `left`
steps to take until it stands where `t` does. -/
inductive Stage (plan : Plan) : Thread → (c left : Nat) → Thread → Prop
  /-- Everything is paid. -/
  | paid (t : Thread) : Stage plan t 0 0 ((metering plan).thread false t)
  /-- In front of the charge. -/
  | front {a : Activation} {frames : List Frame} {depth : Nat} (h : toll plan a.code ≠ 0) :
      Stage plan ⟨.run a, frames, depth⟩ (toll plan a.code) 4
        ((metering plan).thread true ⟨.run a, frames, depth⟩)
  /-- The number to be charged is on the stack. -/
  | loaded {a : Activation} {frames : List Frame} {depth : Nat} (h : toll plan a.code ≠ 0) :
      Stage plan ⟨.run a, frames, depth⟩ (toll plan a.code) 3
        ⟨.run { (metering plan).activation false a with
            operands := chargeArg (toll plan a.code) :: (metering plan).values a.operands
            code := .call plan.hook :: paidCode plan a.code },
          frames.map (metering plan).frame, depth⟩
  /-- The hook is about to be entered. -/
  | calling {a : Activation} {frames : List Frame} {depth : Nat} (h : toll plan a.code ≠ 0) :
      Stage plan ⟨.run a, frames, depth⟩ (toll plan a.code) 2
        ⟨.invoke plan.hook [chargeArg (toll plan a.code)],
          .activation ((metering plan).activation false a) ::
            frames.map (metering plan).frame, depth + 1⟩
  /-- The hook comes back. -/
  | charged {a : Activation} {frames : List Frame} {depth : Nat} (h : toll plan a.code ≠ 0) :
      Stage plan ⟨.run a, frames, depth⟩ 0 1
        ⟨.give [], .activation ((metering plan).activation false a) ::
          frames.map (metering plan).frame, depth + 1⟩

section
variable {plan : Plan}

theorem toll_le (plan : Plan) (code : List Operator) : toll plan code ≤ maxCharge := Nat.min_le_right _ _

theorem toInt_chargeArg {cost : Nat} (h : cost ≤ maxCharge) :
    ∃ v : BitVec 32, chargeArg cost = .i32 v ∧ v.toInt = cost := by
  refine ⟨cost.toUInt32.toBitVec, rfl, ?_⟩
  have hcost : cost ≤ 0x7FFFFFFF := h
  have hnat : cost.toUInt32.toBitVec.toNat = cost := by
    rw [UInt32.toNat_toBitVec, Nat.toUInt32_eq, UInt32.toNat_ofNat']
    omega
  rw [BitVec.toInt_eq_toNat_of_lt (by omega), hnat]

theorem meterCode_of_free {code : List Operator} (h : toll plan code = 0) :
    meterCode plan code = paidCode plan code := by
  simp only [toll] at h
  simp [meterCode_eq, chargeOps, h]

theorem meterCode_of_toll {code : List Operator} (h : toll plan code ≠ 0) :
    meterCode plan code =
      .i32Const (toll plan code).toUInt32 :: .call plan.hook :: paidCode plan code := by
  simp only [toll] at h
  simp [meterCode_eq, chargeOps, h, toll]

/-- Control arrives in one of the stages. -/
theorem stage_arrive (plan : Plan) (ends : Bool) (t : Thread) :
    ∃ left, Stage plan t (tollAt plan ends t) left ((metering plan).thread ends t) := by
  obtain ⟨control, frames, depth⟩ := t
  cases ends with
  | false => exact ⟨0, .paid _⟩
  | true =>
    cases control with
    | run a =>
      simp only [tollAt]
      by_cases h : toll plan a.code = 0
      · have hfree : (metering plan).thread true ⟨.run a, frames, depth⟩ =
            (metering plan).thread false ⟨.run a, frames, depth⟩ := by
          simp [Translation.thread, Translation.control, Translation.activation,
            Translation.arrive, metering, meterCode_of_free h]
        rw [h, hfree]
        exact ⟨0, .paid _⟩
      · exact ⟨4, .front h⟩
    | invoke func args => exact ⟨0, .paid ⟨.invoke func args, frames, depth⟩⟩
    | give results => exact ⟨0, .paid ⟨.give results, frames, depth⟩⟩

/-- What a metered thread does next: the same as the thread that it belongs to, or a step of its
own, or a call of the hook. -/
theorem Stage.split {i : Instance} (hhook : i.function? plan.hook = some .hook) {t t' : Thread}
    {c left : Nat} (h : Stage plan t c left t') (sb : Sandbox) :
    (t' = (metering plan).thread false t ∧ c = 0 ∧ left = 0) ∨
      (∃ t'' k, left = k + 1 ∧ k ≠ 1 ∧ step i ⟨sb, t'⟩ = .next ⟨sb, t''⟩ ∧
        Stage plan t c k t'') ∨
      (left = 2 ∧ t'.control = .invoke plan.hook [chargeArg c] ∧
        step i ⟨sb, t'⟩ = stepHook i sb t' c ∧
        Stage plan t 0 1 { t' with control := .give [] }) := by
  cases h with
  | paid => exact .inl ⟨rfl, rfl, rfl⟩
  | @front a frames depth h =>
    refine .inr (.inl ⟨_, 3, rfl, by decide, ?_, .loaded h⟩)
    have hcode : ((metering plan).activation true a).code =
        .i32Const (toll plan a.code).toUInt32 :: .call plan.hook :: paidCode plan a.code :=
      meterCode_of_toll h
    change stepCode i sb ((metering plan).thread true ⟨.run a, frames, depth⟩)
      ((metering plan).activation true a) = _
    unfold stepCode
    rw [hcode]
    rfl
  | @loaded a frames depth h =>
    refine .inr (.inl ⟨_, 2, rfl, by decide, ?_, .calling h⟩)
    simp only [step, stepCode, flow?, hhook]
    rfl
  | @calling a frames depth h =>
    refine .inr (.inr ⟨rfl, rfl, ?_, .charged h⟩)
    obtain ⟨v, hv, hint⟩ := toInt_chargeArg (toll_le plan a.code)
    simp only [step, stepInvoke, hhook, hv, hint]
  | @charged a frames depth h =>
    refine .inr (.inl ⟨_, 0, rfl, by decide, ?_, .paid ⟨.run a, frames, depth⟩⟩)
    rfl

end

end MeteredWasm.Simulation
