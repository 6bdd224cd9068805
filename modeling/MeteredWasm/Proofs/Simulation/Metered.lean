import Mathlib.Algebra.Ring.Int.Defs
import MeteredWasm.Proofs.Machine.Reach
import MeteredWasm.Proofs.Simulation.Scope
import MeteredWasm.Proofs.Simulation.Stage

/-!
# A metered machine beside the original one

The metered instance runs beside the original one (`Beside`): its sandbox agrees with that of the
original, and its thread is in a stage of the original thread. As long as there is gas the two
stay beside each other, whichever of them is followed: for every way that the original takes the
metered machine has one (`Metered.follow`), and all that the metered machine does belongs to what
the original does (`Metered.trace_back`). Both come with the account of what has been charged.
-/

set_option autoImplicit false

namespace MeteredWasm.Machine

/-- Steps lead from one state to the other, through the states visited. -/
inductive Trail (i : Instance) (s : State) : List State → State → Prop
  | here : Trail i s [] s
  | step {visited : List State} {s₁ s₂ : State} (before : Trail i s visited s₁)
      (h : Machine.step i s₁ = .next s₂) : Trail i s (visited ++ [s₁]) s₂

section
variable {i : Instance} {s s' s'' : State} {visited more : List State}

theorem Trail.reaches (h : Trail i s visited s') : Reaches i s s' := by
  induction h with
  | here => exact .refl
  | step _ hs ih => exact ih.tail hs

theorem Reaches.exists_trail (h : Reaches i s s') : ∃ visited, Trail i s visited s' := by
  induction h with
  | refl => exact ⟨[], .here⟩
  | tail _ hs ih =>
    obtain ⟨visited, ih⟩ := ih
    exact ⟨_, ih.step hs⟩

theorem Trail.append (h : Trail i s visited s') (h' : Trail i s' more s'') :
    Trail i s (visited ++ more) s'' := by
  induction h' with
  | here => simpa using h
  | step _ hs ih => simpa using ih.step hs

end

end MeteredWasm.Machine

namespace MeteredWasm.Simulation

open Wasm Machine Metering

/-- The sandbox that an end leaves behind. -/
def outcomeSandbox : Outcome → Sandbox
  | .finished _ sandbox | .failed _ sandbox => sandbox

/-! ## The account -/

/-- What is charged when the machine arrives where a step leads to. -/
def tollOf (plan : Plan) (i : Instance) (s : State) : Nat :=
  match step i s with
  | .next s' => tollAt plan (arrivesFresh s.thread) s'.thread
  | _ => 0

/-- What is charged on the way through states. -/
def tolls (plan : Plan) (i : Instance) (visited : List State) : Nat :=
  (visited.map (tollOf plan i)).sum

@[simp] theorem tolls_nil (plan : Plan) (i : Instance) : tolls plan i [] = 0 := rfl

@[simp] theorem tolls_append (plan : Plan) (i : Instance) (visited more : List State) :
    tolls plan i (visited ++ more) = tolls plan i visited + tolls plan i more := by
  simp [tolls]

theorem tolls_singleton (plan : Plan) (i : Instance) (s : State) :
    tolls plan i [s] = tollOf plan i s := by simp [tolls]

/-! ## Side by side -/

/-- What the machine does next does not touch hidden bytes. -/
def Heeding (hidden : Nat → Nat → Prop) (s : State) : Prop :=
  ∀ a op code, s.thread.control = .run a → a.code = op :: code →
    s.sandbox.storage.Heeds hidden op a.operands

/-- The instance `i'` runs the code of `i` metered. Its first `m` functions are those of `i`, and
it does not suspend itself. -/
structure Metered (plan : Plan) (m : UInt32) (i i' : Instance) : Prop where
  closed : Closed m i
  instances : (metering plan).Instances m.toNat i i'
  hook : i'.function? plan.hook = some .hook
  controls : i'.controls = none

/-- The metered state `s'` belongs to `s`; there is `c` left to pay. -/
structure Beside (plan : Plan) (hidden : Nat → Nat → Prop) (s : State) (c : Nat) (s' : State) :
    Prop where
  sandboxes : (metering plan).Sandboxes hidden s.sandbox s'.sandbox
  stage : ∃ left, Stage plan s.thread c left s'.thread
  running : s'.sandbox.paused = false

/-- Two machines end alike. -/
inductive SameEnd (T : Translation) (hidden : Nat → Nat → Prop) : Outcome → Outcome → Prop
  | finished {results : List Value} {sb sb' : Sandbox} (hs : T.Sandboxes hidden sb sb') :
      SameEnd T hidden (.finished results sb) (.finished (T.values results) sb')
  | failed {e : ExecutionError} {sb sb' : Sandbox} (hs : T.Sandboxes hidden sb sb') :
      SameEnd T hidden (.failed e sb) (.failed e sb')

theorem Lockstep.outcome {T : Translation} {hidden : Nat → Nat → Prop} {ends : Bool}
    {sb sb' : Sandbox} {result result' : Step} (h : Lockstep T hidden ends sb sb' result result') :
    (result.outcome? = none ∧ result'.outcome? = none) ∨
      ∃ o o', result.outcome? = some o ∧ result'.outcome? = some o' ∧ SameEnd T hidden o o' ∧
        Unhooked sb' (outcomeSandbox o') := by
  cases h with
  | next => exact .inl ⟨rfl, rfl⟩
  | finished hs _ hk' => exact .inr ⟨_, _, rfl, rfl, .finished hs, hk'⟩
  | failed hs _ hk' => exact .inr ⟨_, _, rfl, rfl, .failed hs, hk'⟩

/-! ## The hook -/

section
variable {i : Instance} {sb : Sandbox} {t : Thread} {c : Int}

/-- With enough gas the hook charges and comes back. -/
theorem stepHook_of_le (hp : sb.paused = false) (hg : c ≤ sb.gas) :
    stepHook i sb t c =
      .next ⟨{ sb with gas := sb.gas - c }, { t with control := .give [] }⟩ := by
  simp only [stepHook, hp, Bool.false_eq_true, if_false]
  rw [if_pos (by omega)]

/-- Without, the gas is overdrawn, and the run ends where there is nothing to unwind with. -/
theorem stepHook_of_lt (hcontrols : i.controls = none) (hp : sb.paused = false) (hg : sb.gas < c) :
    stepHook i sb t c = .failed (.missingExport "memory") { sb with gas := sb.gas - c } := by
  simp only [stepHook, hp, Bool.false_eq_true, if_false]
  rw [if_neg (by omega), stepPause, hcontrols]

end

/-! ## Steps -/

section
variable {plan : Plan} {m : UInt32} {hidden : Nat → Nat → Prop} {i i' : Instance}
  (hm : Metered plan m i i')
include hm

theorem Metered.lockstep {sb sb' : Sandbox} {t : Thread} (hs : Scoped m i ⟨sb, t⟩)
    (hh : Heeding hidden ⟨sb, t⟩) (hsb : (metering plan).Sandboxes hidden sb sb') :
    Lockstep (metering plan) hidden (arrivesFresh t) sb sb' (step i ⟨sb, t⟩)
      (step i' ⟨sb', (metering plan).thread false t⟩) := by
  refine step_lockstep hm.instances hsb (hs.ready hm.closed hidden hh) ?_
  refine hs.natural hm.closed (g := cycle plan.hook) (cycle_injective _) fun func hfunc => ?_
  refine shift_eq_cycle fun hlast => ?_
  have := m.toNat_lt
  simp only [hlast, UInt32.reduceToNat] at hfunc
  omega

/-- What is left to pay can be paid. -/
theorem Metered.pay {s s' : State} {c : Nat} (h : Beside plan hidden s c s')
    (hg : (c : Int) ≤ s'.sandbox.gas) :
    Reaches i' s' ⟨{ s'.sandbox with gas := s'.sandbox.gas - c },
      (metering plan).thread false s.thread⟩ := by
  obtain ⟨-, ⟨left, hstage⟩, hp⟩ := h
  obtain ⟨sb', t'⟩ := s'
  induction left generalizing c sb' t' with
  | zero =>
    rcases hstage.split hm.hook sb' with ⟨rfl, rfl, -⟩ | ⟨_, _, hk, -⟩ | ⟨hk, -⟩
    · simpa using Relation.ReflTransGen.refl
    · omega
    · omega
  | succ left ih =>
    rcases hstage.split hm.hook sb' with ⟨-, -, h0⟩ | ⟨t'', k, hk, -, hs, hst⟩ | ⟨hk, -, hs, hst⟩
    · omega
    · cases hk
      exact .head hs (ih sb' t'' hg hp hst)
    · cases hk
      rw [stepHook_of_le hp hg] at hs
      have hleft : ((0 : Nat) : Int) ≤ sb'.gas - c := by
        have hle : (c : Int) ≤ sb'.gas := hg
        omega
      have hrest := ih { sb' with gas := sb'.gas - c } _ hleft hp hst
      simp only [Int.ofNat_zero, Int.sub_zero] at hrest
      exact .head hs hrest

/-- The metered machine takes every step of the original one. -/
theorem Metered.next {s s₁ : State} {sb' : Sandbox} (hs : Scoped m i s) (hh : Heeding hidden s)
    (hsb : (metering plan).Sandboxes hidden s.sandbox sb') (hp : sb'.paused = false)
    (h : step i s = .next s₁) :
    ∃ s₁', step i' ⟨sb', (metering plan).thread false s.thread⟩ = .next s₁' ∧
      Beside plan hidden s₁ (tollOf plan i s) s₁' ∧ Unhooked sb' s₁'.sandbox := by
  have hlock := hm.lockstep hs hh hsb
  rw [h] at hlock
  obtain ⟨sb₁', hstep, hsb₁, -, hk⟩ := hlock.of_next
  refine ⟨_, hstep, ⟨hsb₁, ?_, hk.paused.trans hp⟩, hk⟩
  simp only [tollOf, h]
  exact stage_arrive plan _ _

/-- From where both stand at the same place, the metered machine only takes steps of the original
one. -/
theorem Metered.next_back {s s₁' : State} {sb' : Sandbox} (hs : Scoped m i s)
    (hh : Heeding hidden s) (hsb : (metering plan).Sandboxes hidden s.sandbox sb')
    (hp : sb'.paused = false)
    (h : step i' ⟨sb', (metering plan).thread false s.thread⟩ = .next s₁') :
    ∃ s₁, step i s = .next s₁ ∧ Beside plan hidden s₁ (tollOf plan i s) s₁' ∧
      Unhooked sb' s₁'.sandbox := by
  have hlock := hm.lockstep hs hh hsb
  rw [h] at hlock
  rcases hlock.outcome with ⟨hnone, -⟩ | ⟨o, o', -, ho', -⟩
  · cases hstep : step i s with
    | next s₁ =>
      obtain ⟨s₂', hstep', hb₁, hk⟩ := hm.next hs hh hsb hp hstep
      rw [h] at hstep'
      cases hstep'
      exact ⟨s₁, rfl, hb₁, hk⟩
    | _ => rw [show (⟨s.sandbox, s.thread⟩ : State) = s from rfl, hstep] at hnone; cases hnone
  · cases ho'

/-- The metered machine takes every way of the original one that it has the gas for. -/
theorem Metered.follow {s s₁ s' : State} {c : Nat} {visited : List State} (hs : Scoped m i s)
    (hh : ∀ v, Reaches i s v → Heeding hidden v) (hb : Beside plan hidden s c s')
    (h : Trail i s visited s₁) (hg : ((c + tolls plan i visited : Nat) : Int) ≤ s'.sandbox.gas) :
    ∃ sb', Reaches i' s' ⟨sb', (metering plan).thread false s₁.thread⟩ ∧ Scoped m i s₁ ∧
      (metering plan).Sandboxes hidden s₁.sandbox sb' ∧ sb'.paused = false ∧
      sb'.signals = s'.sandbox.signals ∧
      sb'.gas = s'.sandbox.gas - (c + tolls plan i visited : Nat) := by
  induction h with
  | here =>
    refine ⟨_, hm.pay hb (by simpa using hg), hs, hb.sandboxes.regas, hb.running, rfl, ?_⟩
    simp
  | @step visited s₁ s₂ before hstep ih =>
    rw [tolls_append, tolls_singleton] at hg ⊢
    obtain ⟨sb', hreach, hs₁, hsb, hp, hsig, hgas⟩ := ih (by omega)
    obtain ⟨s₂', hstep', hb₂, hk⟩ := hm.next hs₁ (hh _ before.reaches) hsb hp hstep
    have hgas₂ := hk.gas
    refine ⟨_, (hreach.tail hstep').trans (hm.pay hb₂ (by omega)), hs₁.next hm.closed hstep,
      hb₂.sandboxes.regas, hb₂.running, hk.signals.trans hsig, ?_⟩
    change s₂'.sandbox.gas - _ = _
    omega

/-- One step of the metered machine is a step towards its place, or one of the original. -/
theorem Metered.back {s s' s₁' : State} {c : Nat} (hs : Scoped m i s) (hh : Heeding hidden s)
    (hb : Beside plan hidden s c s') (hg : 0 ≤ s'.sandbox.gas) (h : step i' s' = .next s₁') :
    ∃ visited s₁ c₁, Trail i s visited s₁ ∧ Scoped m i s₁ ∧ Beside plan hidden s₁ c₁ s₁' ∧
      0 ≤ s₁'.sandbox.gas ∧ s₁'.sandbox.signals = s'.sandbox.signals ∧
      s₁'.sandbox.gas + (c + tolls plan i visited : Nat) = s'.sandbox.gas + c₁ := by
  obtain ⟨hsb, ⟨left, hstage⟩, hp⟩ := hb
  obtain ⟨sb', t'⟩ := s'
  rcases hstage.split hm.hook sb' with ⟨rfl, rfl, -⟩ | ⟨t'', k, -, -, hs', hst⟩ | ⟨-, -, hs', hst⟩
  · obtain ⟨s₁, hstep, hb₁, hk⟩ := hm.next_back hs hh hsb hp h
    have hgas := hk.gas
    refine ⟨_, s₁, _, .step .here hstep, hs.next hm.closed hstep, hb₁, ?_, hk.signals, ?_⟩
    · rw [hgas]
      exact hg
    · simp only [List.nil_append, tolls_singleton, hgas]
      omega
  · rw [h] at hs'
    cases hs'
    exact ⟨[], s, c, .here, hs, ⟨hsb, ⟨k, hst⟩, hp⟩, hg, rfl, by simp⟩
  · rw [h] at hs'
    by_cases hle : (c : Int) ≤ sb'.gas
    · rw [stepHook_of_le hp hle] at hs'
      cases hs'
      refine ⟨[], s, 0, .here, hs, ⟨hsb.regas, ⟨1, hst⟩, hp⟩, ?_, rfl, ?_⟩
      · change 0 ≤ sb'.gas - c
        omega
      · change sb'.gas - c + _ = sb'.gas + _
        simp
    · rw [stepHook_of_lt hm.controls hp (Int.not_le.1 hle)] at hs'
      cases hs'

/-- All that the metered machine does belongs to what the original does. -/
theorem Metered.trace_back {s s' s₁' : State} {c : Nat} (hs : Scoped m i s)
    (hh : ∀ v, Reaches i s v → Heeding hidden v) (hb : Beside plan hidden s c s')
    (hg : 0 ≤ s'.sandbox.gas) (h : Reaches i' s' s₁') :
    ∃ visited s₁ c₁, Trail i s visited s₁ ∧ Scoped m i s₁ ∧ Beside plan hidden s₁ c₁ s₁' ∧
      0 ≤ s₁'.sandbox.gas ∧ s₁'.sandbox.signals = s'.sandbox.signals ∧
      s₁'.sandbox.gas + (c + tolls plan i visited : Nat) = s'.sandbox.gas + c₁ := by
  induction h with
  | refl => exact ⟨[], s, c, .here, hs, hb, hg, rfl, by simp⟩
  | @tail s₁' s₂' _ hstep ih =>
    obtain ⟨visited, s₁, c₁, htrail, hs₁, hb₁, hg₁, hsig₁, hgas₁⟩ := ih
    obtain ⟨more, s₂, c₂, htrail₂, hs₂, hb₂, hg₂, hsig₂, hgas₂⟩ :=
      hm.back hs₁ (hh _ htrail.reaches) hb₁ hg₁ hstep
    refine ⟨_, s₂, c₂, htrail.append htrail₂, hs₂, hb₂, hg₂, hsig₂.trans hsig₁, ?_⟩
    rw [tolls_append]
    omega

/-- Where the original machine ends, the metered one ends alike. -/
theorem Metered.ends {s : State} {sb' : Sandbox} {o : Outcome} (hs : Scoped m i s)
    (hh : Heeding hidden s) (hsb : (metering plan).Sandboxes hidden s.sandbox sb')
    (ho : (step i s).outcome? = some o) :
    ∃ o', (step i' ⟨sb', (metering plan).thread false s.thread⟩).outcome? = some o' ∧
      SameEnd (metering plan) hidden o o' ∧ Unhooked sb' (outcomeSandbox o') := by
  rcases (hm.lockstep hs hh hsb).outcome with ⟨hnone, -⟩ | ⟨o₁, o', ho₁, ho', hsame, hk⟩
  · cases hnone.symm.trans ho
  · cases ho₁.symm.trans ho
    exact ⟨o', ho', hsame, hk⟩

/-- The metered machine ends where the original does, or in the hook without gas. -/
theorem Metered.end_back {s s' : State} {c : Nat} {o' : Outcome} (hs : Scoped m i s)
    (hh : Heeding hidden s) (hb : Beside plan hidden s c s')
    (h : (step i' s').outcome? = some o') :
    (c = 0 ∧ ∃ o, (step i s).outcome? = some o ∧ SameEnd (metering plan) hidden o o' ∧
        Unhooked s'.sandbox (outcomeSandbox o')) ∨
      (s'.sandbox.gas < c ∧ s'.thread.control = .invoke plan.hook [chargeArg c] ∧
        step i' s' = stepHook i' s'.sandbox s'.thread c ∧
        Stage plan s.thread 0 1 { s'.thread with control := .give [] }) := by
  obtain ⟨hsb, ⟨left, hstage⟩, hp⟩ := hb
  obtain ⟨sb', t'⟩ := s'
  rcases hstage.split hm.hook sb' with ⟨rfl, rfl, -⟩ | ⟨t'', k, -, -, hs', -⟩ | ⟨-, hc, hs', hst⟩
  · rcases (hm.lockstep hs hh hsb).outcome with ⟨-, hnone⟩ | ⟨o, o₁, ho, ho₁, hsame, hk⟩
    · rw [hnone] at h
      cases h
    · rw [ho₁] at h
      cases h
      exact .inl ⟨rfl, o, ho, hsame, hk⟩
  · rw [hs'] at h
    cases h
  · by_cases hle : (c : Int) ≤ sb'.gas
    · rw [hs', stepHook_of_le hp hle] at h
      cases h
    · exact .inr ⟨Int.not_le.1 hle, hc, hs', hst⟩

end

end MeteredWasm.Simulation
