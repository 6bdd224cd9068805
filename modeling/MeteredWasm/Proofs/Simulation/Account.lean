import MeteredWasm.Proofs.Metering.Charges
import MeteredWasm.Proofs.Simulation.Metered

/-!
# The account of a metered machine

A step takes from the gas what the hook charges in it (`chargeOf`, `gas_step`), and runs one of the
module's own operators or none (`ownOp?`). What has been charged is what the operators that have
run cost, and what is paid for but still to come: `dues`, the rests of the segments that all
activations are in. A step of the original machine uses up dues, and adds those of the segment that
it arrives at (`dues_next`); so the account of the metered machine stays balanced
(`Metered.account`).
-/

set_option autoImplicit false

namespace MeteredWasm.Simulation

open Wasm Machine Metering

/-! ## Charges and operators -/

/-- What the hook charges with the next step: its argument, if it is entered and the instance is
not paused. -/
def chargeOf (i : Instance) (s : State) : Int :=
  match s.thread.control with
  | .invoke func args =>
    match i.function? func, args with
    | some .hook, [.i32 cost] => if s.sandbox.paused then 0 else cost.toInt
    | _, _ => 0
  | _ => 0

/-- The number that the hook charges with the next step, if it is entered and charges at all. -/
def charge? (i : Instance) (s : State) : Option Int :=
  match s.thread.control with
  | .invoke func args =>
    match i.function? func, args with
    | some .hook, [.i32 cost] => if s.sandbox.paused then none else some cost.toInt
    | _, _ => none
  | _ => none

/-- The operator that a thread runs next. -/
def nextOp? (t : Thread) : Option Operator :=
  match t.control with
  | .run a => a.code.head?
  | _ => none

/-- The operator that a metered thread runs next, as it stands in the module before metering; none
if it is part of a charge. -/
def ownOp? (hook : UInt32) (t : Thread) : Option Operator :=
  match t.control with
  | .run a =>
    match a.code with
    | [] => none
    | op :: code =>
      if inCharge hook op code.head? then none else some (op.mapFunc (unshift hook))
  | _ => none

/-- What it costs to run an operator, or none. -/
def price (rules : Rules) (op : Option Operator) : Nat := op.elim 0 fun op => (rules op).toNat

/-- What the hook has charged on the way through states. -/
def charged (i : Instance) (visited : List State) : Int := (visited.map (chargeOf i)).sum

/-- What it has charged, charge by charge. -/
def charges (i : Instance) (visited : List State) : List Int := visited.filterMap (charge? i)

/-- What the module's own operators that have run on the way through states cost. -/
def spent (rules : Rules) (hook : UInt32) (visited : List State) : Nat :=
  (visited.map fun s => price rules (ownOp? hook s.thread)).sum

@[simp] theorem charged_nil (i : Instance) : charged i [] = 0 := rfl

@[simp] theorem charged_append (i : Instance) (visited more : List State) :
    charged i (visited ++ more) = charged i visited + charged i more := by simp [charged]

@[simp] theorem charged_singleton (i : Instance) (s : State) : charged i [s] = chargeOf i s := by
  simp [charged]

theorem chargeOf_eq (i : Instance) (s : State) : chargeOf i s = (charge? i s).getD 0 := by
  unfold chargeOf charge?
  split
  · split
    · split <;> rfl
    · rfl
  · rfl

@[simp] theorem charges_nil (i : Instance) : charges i [] = [] := rfl

@[simp] theorem charges_append (i : Instance) (visited more : List State) :
    charges i (visited ++ more) = charges i visited ++ charges i more := by simp [charges]

theorem charges_singleton (i : Instance) (s : State) : charges i [s] = (charge? i s).toList := by
  unfold charges
  cases h : charge? i s <;> simp [h]

theorem charged_eq_sum (i : Instance) (visited : List State) :
    charged i visited = (charges i visited).sum := by
  induction visited with
  | nil => rfl
  | cons s visited ih =>
    have hsplit : charged i (s :: visited) = chargeOf i s + charged i visited := by simp [charged]
    rw [hsplit, ih, chargeOf_eq, charges, charges, List.filterMap_cons]
    cases charge? i s <;> simp

@[simp] theorem spent_nil (rules : Rules) (hook : UInt32) : spent rules hook [] = 0 := rfl

@[simp] theorem spent_append (rules : Rules) (hook : UInt32) (visited more : List State) :
    spent rules hook (visited ++ more) = spent rules hook visited + spent rules hook more := by
  simp [spent]

@[simp] theorem spent_singleton (rules : Rules) (hook : UInt32) (s : State) :
    spent rules hook [s] = price rules (ownOp? hook s.thread) := by simp [spent]

/-! ## Gas -/

/-- The sandbox that a step leaves. -/
def stepSandbox : Step → Sandbox
  | .next s => s.sandbox
  | .finished _ sandbox | .failed _ sandbox => sandbox

section
variable {i : Instance} {sb : Sandbox} {t : Thread}

theorem gas_stepCode (a : Activation) : (stepSandbox (stepCode i sb t a)).gas = sb.gas := by
  unfold stepCode
  split
  · rfl
  · dsimp only
    split
    · rfl
    · rfl
    · split <;> rfl

theorem gas_write {address : Nat} {bytes : ByteArray} {sb' : Sandbox}
    (h : sb.write? i address bytes = .ok sb') : sb'.gas = sb.gas := by
  unfold Sandbox.write? at h
  split at h
  · cases h
  · obtain ⟨m, -, h⟩ := except_bind_eq_ok.1 h
    cases h
    rfl

theorem gas_stepPause : (stepSandbox (stepPause i sb t)).gas = sb.gas := by
  unfold stepPause
  split
  · rfl
  · dsimp only
    split
    · rfl
    · rename_i sb' hwrite
      have hgas : sb'.gas = sb.gas := gas_write hwrite
      exact hgas

theorem gas_stepResume : (stepSandbox (stepResume i sb t)).gas = sb.gas := by
  unfold stepResume
  split <;> rfl

theorem gas_stepHook (cost : Int) : (stepSandbox (stepHook i sb t cost)).gas =
    sb.gas - if sb.paused then 0 else cost := by
  unfold stepHook
  by_cases hp : sb.paused = true
  · rw [if_pos hp, if_pos hp, gas_stepResume, Int.sub_zero]
  · rw [if_neg hp, if_neg hp]
    dsimp only
    split
    · rfl
    · rw [gas_stepPause]

theorem gas_stepGive (results : List Value) :
    (stepSandbox (stepGive sb t results)).gas = sb.gas := by
  unfold stepGive
  split <;> rfl

/-- A step takes from the gas what the hook charges. -/
theorem gas_step (i : Instance) (s : State) :
    (stepSandbox (step i s)).gas = s.sandbox.gas - chargeOf i s := by
  obtain ⟨sb, control, frames, depth⟩ := s
  cases control with
  | run a => simp only [step, gas_stepCode, chargeOf, Int.sub_zero]
  | give results => simp only [step, gas_stepGive, chargeOf, Int.sub_zero]
  | invoke func args =>
    simp only [step, stepInvoke, chargeOf]
    cases i.function? func with
    | none => simp [stepSandbox]
    | some f =>
      cases f with
      | code type locals body =>
        dsimp only
        split <;> simp [stepSandbox]
      | host module name type behaviour =>
        dsimp only
        split
        · simp [stepSandbox]
        · split <;> simp [stepSandbox]
      | hook =>
        dsimp only
        split
        · exact gas_stepHook _
        · rename_i hargs
          split
          · exact absurd rfl (hargs _)
          · simp [stepSandbox]

end

/-! ## Dues -/

def frameDue (rules : Rules) : Machine.Frame → Nat
  | .activation a => due rules a.code
  | .hook _ => 0

def controlDue (rules : Rules) : Control → Nat
  | .run a => due rules a.code
  | .invoke _ _ | .give _ => 0

/-- What the rests of the segments cost that the activations of a thread are in. -/
def dues (rules : Rules) (t : Thread) : Nat :=
  controlDue rules t.control + (t.frames.map (frameDue rules)).sum

/-- No segment of the instance's code costs more than can be charged. -/
def Affordable (rules : Rules) (i : Instance) : Prop :=
  ∀ func type locals body, i.function? func = some (.code type locals body) → Fits rules body

/-- Control flow ends a segment, but for a call; a relaxed vector operator runs on. -/
theorem endsSegment_of_flow {i : Instance} {st : Storage} {a : Activation} {t t' : Thread}
    {op : Operator} (h : flow? i st a t op = some (.ok t')) :
    endsSegment op = !isCall op ∨ endsSegment op = false ∧
      ∃ operands, t' = { t with control := .run { a with operands } } := by
  unfold flow? at h
  split at h
  case h_15 =>
    obtain ⟨arity, hrelaxed, h⟩ := Option.map_eq_some_iff.1 h
    obtain ⟨operands, -, h⟩ := except_bind_eq_ok.1 h
    cases h
    exact .inr ⟨endsSegment_of_relaxed hrelaxed, operands, rfl⟩
  all_goals first | exact .inl rfl | cases h

/-- Entering a function that is not the hook leaves the frames. -/
theorem frames_stepInvoke {i : Instance} {sb : Sandbox} {t : Thread} {func : UInt32}
    {args : List Value} {s : State} (hhook : i.function? func ≠ some .hook)
    (h : stepInvoke i sb t func args = .next s) : s.thread.frames = t.frames := by
  unfold stepInvoke at h
  split at h
  · cases h
  · exact absurd ‹_› hhook
  · dsimp only at h
    split at h
    · cases h
    · split at h
      · cases h
        rfl
      · cases h
  · split at h
    · cases h
      rfl
    · cases h

section
variable {plan : Plan} {i : Instance} (hfit : Affordable plan.rules i)
include hfit

theorem Runs.fits {a : Activation} (h : Runs i a) : Fits plan.rules a.code := by
  obtain ⟨func, type, locals, body, hf, hin⟩ := h
  exact (hfit func type locals body hf).suffix hin.1

/-- What is charged where control arrives is what is due there. -/
theorem tollAt_true {t : Thread} (h : Placed i t) :
    tollAt plan true t = controlDue plan.rules t.control := by
  obtain ⟨control, frames, depth⟩ := t
  cases control with
  | run a => exact ((h.runs a rfl).fits hfit).charge
  | invoke func args => rfl
  | give results => rfl

/-- Running an operator uses up what is due for it; arriving at a segment makes that one due. -/
theorem dues_stepCode {sb : Sandbox} {t : Thread} {a : Activation} {s : State}
    (hp : Placed i s.thread) (h : stepCode i sb t a = .next s) :
    dues plan.rules s.thread + price plan.rules a.code.head? =
      dues plan.rules { t with control := .run a } +
        tollAt plan (a.code.head?.any endsSegment) s.thread := by
  unfold stepCode at h
  cases hc : a.code with
  | nil =>
    rw [hc] at h
    cases h
    simp [dues, controlDue, hc, price, tollAt]
  | cons op code =>
    rw [hc] at h
    dsimp only at h
    cases hf : flow? i sb.storage { a with code } t op with
    | some result =>
      rw [hf] at h
      cases result with
      | error e => cases h
      | ok t' =>
        cases h
        simp only [List.head?_cons, Option.any_some, price, Option.elim_some]
        rcases endsSegment_of_flow hf with hends | ⟨hends, operands, rfl⟩
        case inr =>
          simp only [hends, tollAt, dues, controlDue, hc, due_cons, Bool.false_eq_true, if_false]
          omega
        rcases frames_of_flow hf with ⟨hcall, hframes⟩ | ⟨hcall, func, args, operands, rfl⟩
        · rw [hcall] at hends
          simp only [hends, Bool.not_false, tollAt_true hfit hp, dues, controlDue, hc, due_cons,
            hframes, if_true]
          omega
        · rw [hcall] at hends
          simp only [hends, Bool.not_true, tollAt, dues, controlDue, hc, due_cons, frameDue,
            List.map_cons, List.sum_cons, Bool.false_eq_true, if_false]
          omega
    | none =>
      rw [hf] at h
      dsimp only at h
      split at h
      · cases h
        simp only [List.head?_cons, Option.any_some, price, Option.elim_some, dues, controlDue,
          hc, due_cons]
        cases hends : endsSegment op with
        | true =>
          rw [tollAt_true hfit hp]
          simp only [controlDue, if_true]
          omega
        | false =>
          simp only [tollAt, Bool.false_eq_true, if_false]
          omega
      · cases h

/-- What is due changes by what runs and by what is charged for next. -/
theorem dues_next {s s₁ : State} (hhook : ∀ func, i.function? func ≠ some .hook)
    (hp : Placed i s.thread) (h : step i s = .next s₁) :
    dues plan.rules s₁.thread + price plan.rules (nextOp? s.thread) =
      dues plan.rules s.thread + tollOf plan i s := by
  have hp₁ : Placed i s₁.thread := hp.next (.inl hhook) h
  simp only [tollOf, h]
  obtain ⟨sb, control, frames, depth⟩ := s
  cases control with
  | run a => exact dues_stepCode hfit hp₁ h
  | invoke func args =>
    have hframes : s₁.thread.frames = frames := frames_stepInvoke (hhook func) h
    rw [show arrivesFresh ⟨.invoke func args, frames, depth⟩ = true from rfl,
      tollAt_true hfit hp₁]
    simp only [dues, controlDue, nextOp?, price, hframes, Option.elim_none]
    omega
  | give results =>
    cases frames with
    | nil => cases h
    | cons frame rest =>
      obtain ⟨a, rfl, -⟩ := hp.frames frame (List.mem_cons_self ..)
      cases h
      simp [dues, controlDue, nextOp?, price, frameDue, tollAt, arrivesFresh]

end

/-! ## Stages -/

theorem Stage.le_maxCharge {plan : Plan} {t t' : Thread} {c left : Nat}
    (h : Stage plan t c left t') : c ≤ maxCharge := by
  cases h with
  | paid | charged => exact Nat.zero_le _
  | front | loaded | calling => exact toll_le plan _

section
variable {plan : Plan} {m : UInt32} {i i' : Instance} {s : State} {t' : Thread} {sb' : Sandbox}
  {c left : Nat} (hm : Metered plan m i i')
include hm

theorem Metered.movable {a : Activation} (h : Runs i a) : ∀ op ∈ a.code, Movable op := by
  obtain ⟨func, type, locals, body, hf, hin⟩ := h
  intro op hop hlast
  have hlt := (hm.closed.code func type locals body hf op (hin.1.subset hop)).1 _ hlast
  have := m.toNat_lt
  simp only [UInt32.reduceToNat] at hlt
  omega

/-- The operators that are no part of a charge are those of the original thread. -/
theorem Metered.ownOp_eq (hs : Scoped m i s) (h : Stage plan s.thread c left t') :
    ownOp? plan.hook t' = if left = 0 then nextOp? s.thread else none := by
  generalize ht : s.thread = t at h
  cases h with
  | paid =>
    subst ht
    rw [if_pos rfl]
    obtain ⟨sb, control, frames, depth⟩ := s
    cases control with
    | invoke func args => rfl
    | give results => rfl
    | run a =>
      have hmov := hm.movable (hs.placed.runs a rfl)
      simp only [ownOp?, nextOp?, Translation.thread, Translation.control]
      change (match paidCode plan a.code with
        | [] => none
        | op :: code => _) = _
      cases hc : a.code with
      | nil => rfl
      | cons op ops =>
        rw [hc] at hmov
        rw [paidCode_cons]
        dsimp only
        rw [inCharge_paidCode hmov plan, mapFunc_unshift (hmov op (by simp))]
        rfl
  | @front a frames depth h =>
    simp only [ownOp?, Translation.thread, Translation.control]
    change (match meterCode plan a.code with
      | [] => none
      | op :: code => _) = _
    rw [meterCode_of_toll h]
    simp [inCharge]
  | loaded h => simp [ownOp?, inCharge]
  | calling h => rfl
  | charged h => rfl

/-- The hook charges what is left to pay, when it is called. -/
theorem Metered.chargeOf_eq (hs : Scoped m i s) (h : Stage plan s.thread c left t')
    (hp : sb'.paused = false) : chargeOf i' ⟨sb', t'⟩ = if left = 2 then c else 0 := by
  generalize ht : s.thread = t at h
  cases h with
  | paid =>
    subst ht
    obtain ⟨sb, control, frames, depth⟩ := s
    cases control with
    | run a => rfl
    | give results => rfl
    | invoke func args =>
      obtain ⟨hfunc, hhook⟩ := (hs.ready hm.closed nothing fun a op _ _ _ =>
        heeds_nothing sb.storage op a.operands).invoke func args rfl
      have hf := hm.instances.function func hfunc
      simp only [chargeOf, Translation.thread, Translation.control]
      rw [hf]
      cases hcase : i.function? func with
      | none => rfl
      | some f =>
        cases f with
        | hook => exact absurd hcase hhook
        | _ => rfl
  | front h => rfl
  | loaded h => rfl
  | @calling a frames depth h =>
    obtain ⟨v, hv, hint⟩ := toInt_chargeArg (toll_le plan a.code)
    simp [chargeOf, hm.hook, hv, hp, hint]
  | charged h => rfl

/-- A step keeps the account: what it charges, or leaves to be paid, is what it runs and makes
due. -/
theorem Metered.account {hidden : Nat → Nat → Prop} {s' s₁' : State}
    (hfit : Affordable plan.rules i) (hs : Scoped m i s) (hh : Heeding hidden s)
    (hb : Beside plan hidden s c s') (hg : 0 ≤ s'.sandbox.gas) (h : step i' s' = .next s₁') :
    ∃ s₁ c₁, Scoped m i s₁ ∧ Beside plan hidden s₁ c₁ s₁' ∧ 0 ≤ s₁'.sandbox.gas ∧
      0 ≤ chargeOf i' s' ∧
      chargeOf i' s' + (c₁ + dues plan.rules s.thread : Nat) =
        (c + price plan.rules (ownOp? plan.hook s'.thread) + dues plan.rules s₁.thread : Nat) := by
  obtain ⟨hsb, ⟨left, hstage⟩, hp⟩ := hb
  obtain ⟨sb', t'⟩ := s'
  have hown := hm.ownOp_eq hs hstage
  have hcharge := hm.chargeOf_eq hs hstage hp
  have hgas := gas_step i' ⟨sb', t'⟩
  rw [h] at hgas
  rcases hstage.split hm.hook sb' with
    ⟨rfl, rfl, rfl⟩ | ⟨t'', k, rfl, hk, hs', hst⟩ | ⟨rfl, -, hs', hst⟩
  · obtain ⟨s₁, hstep, hb₁, hk⟩ := hm.next_back hs hh hsb hp h
    refine ⟨s₁, _, hs.next hm.closed hstep, hb₁, hk.gas ▸ hg, ?_, ?_⟩
    · rw [hcharge]
      exact Int.le_refl 0
    · have hdues := dues_next hfit hm.closed.noHook hs.placed hstep
      rw [hown, hcharge, if_neg (by decide), if_pos rfl]
      omega
  · rw [h] at hs'
    cases hs'
    refine ⟨s, c, hs, ⟨hsb, ⟨k, hst⟩, hp⟩, hg, ?_, ?_⟩
    · rw [hcharge, if_neg (by omega)]
      exact Int.le_refl 0
    · rw [hown, hcharge, if_neg (by omega), if_neg (by omega)]
      simp [price]
  · rw [h] at hs'
    by_cases hle : (c : Int) ≤ sb'.gas
    · rw [stepHook_of_le hp hle] at hs'
      cases hs'
      refine ⟨s, 0, hs, ⟨hsb.regas, ⟨1, hst⟩, hp⟩, ?_, ?_, ?_⟩
      · change 0 ≤ sb'.gas - c
        omega
      · rw [hcharge, if_pos rfl]
        exact Int.natCast_nonneg c
      · rw [hown, hcharge, if_pos rfl, if_neg (by decide)]
        simp [price]
    · rw [stepHook_of_lt hm.controls hp (Int.not_le.1 hle)] at hs'
      cases hs'

/-- An operator that is about to run has been paid for, and nothing is left to pay. -/
theorem Metered.paid_of_ownOp {hidden : Nat → Nat → Prop} {s' : State} {op : Operator}
    (hs : Scoped m i s) (hb : Beside plan hidden s c s')
    (hop : ownOp? plan.hook s'.thread = some op) :
    c = 0 ∧ (plan.rules op).toNat ≤ dues plan.rules s.thread := by
  obtain ⟨-, ⟨left, hstage⟩, -⟩ := hb
  have hown := hm.ownOp_eq hs hstage
  rw [hop] at hown
  by_cases hleft : left = 0
  · subst hleft
    rw [if_pos rfl] at hown
    obtain ⟨sb, control, frames, depth⟩ := s
    refine ⟨?_, ?_⟩
    · rcases hstage.split hm.hook sb with ⟨-, hc, -⟩ | ⟨_, _, hk, -⟩ | ⟨hk, -⟩
      · exact hc
      · cases hk
      · cases hk
    · cases control with
      | run a =>
        obtain ⟨rest, hc⟩ := List.head?_eq_some_iff.1 hown.symm
        simp only [dues, controlDue, hc, due_cons]
        omega
      | invoke func args => cases hown
      | give results => cases hown
  · rw [if_neg hleft] at hown
    cases hown

end

end MeteredWasm.Simulation
