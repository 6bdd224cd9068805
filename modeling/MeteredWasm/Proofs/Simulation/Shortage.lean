import MeteredWasm.Proofs.Machine.Glide
import MeteredWasm.Proofs.Suspension.Tracking

/-!
# Metered machines without enough gas

A metered machine that has less gas than the original one has to pay for comes to a call of the hook
that charges more than there is (`Metered.falls_short`). What such a call charges is what is left to
pay (`Metered.hook_of_beside`).
-/

set_option autoImplicit false

namespace MeteredWasm.Simulation

open Wasm Machine Metering

/-! ## Room for frames -/

section
variable {plan : Plan} {m : UInt32} {i i' : Instance} {s s' : State} {visited : List State}

theorem Closed.deep (h : Closed m i) (n : Nat) : Closed m (i.deep n) :=
  ⟨h.last, h.code, h.noHook, h.hosts⟩

theorem Metered.deep (h : Metered plan m i i') (n : Nat) : Metered plan m (i.deep n) (i'.deep n) :=
  ⟨h.closed.deep n,
    ⟨h.instances.function, h.instances.type, h.instances.relaxed, rfl⟩, h.hook, h.controls⟩

theorem Scoped.deep (h : Scoped m i s) (n : Nat) : Scoped m (i.deep n) s :=
  ⟨h.thread, h.sandbox, ⟨h.placed.runs, h.placed.frames⟩⟩

theorem Scoped.of_deep {n : Nat} (h : Scoped m (i.deep n) s) : Scoped m i s :=
  ⟨h.thread, h.sandbox, ⟨h.placed.runs, h.placed.frames⟩⟩

/-- What is charged does not depend on how much room there is. -/
theorem tolls_deeper {n n' : Nat} (h : n ≤ n') (ht : Trail (i.deep n) s visited s') :
    tolls plan (i.deep n') visited = tolls plan (i.deep n) visited := by
  induction ht with
  | here => rfl
  | step _ hstep ih =>
    rw [tolls_append, tolls_append, ih, tolls_singleton, tolls_singleton, tollOf, tollOf, hstep,
      next_deeper h hstep]

theorem tolls_deep_eq {n n' : Nat} {s'' : State} (h : Trail (i.deep n) s visited s')
    (h' : Trail (i.deep n') s visited s'') :
    tolls plan (i.deep n) visited = tolls plan (i.deep n') visited :=
  (tolls_deeper (Nat.le_max_left n n') h).symm.trans (tolls_deeper (Nat.le_max_right n n') h')

end

/-! ## Charges that cannot be paid -/

section
variable {plan : Plan} {hidden : Nat → Nat → Prop} {i : Instance} {s s₁ : State}
  {visited : List State}

/-- On a way that costs more than there is, there is a first step that does. -/
theorem exists_short (h : Trail i s visited s₁) {gas : Int} (hgas : 0 ≤ gas)
    (hless : gas < tolls plan i visited) : ∃ before v v₁, Trail i s before v ∧
      step i v = .next v₁ ∧ (tolls plan i before : Int) ≤ gas ∧
      gas < tolls plan i before + tollOf plan i v := by
  induction h with
  | here => simp at hless; omega
  | @step visited v v₁ before hstep ih =>
    by_cases hle : (tolls plan i visited : Int) ≤ gas
    · rw [tolls_append, tolls_singleton] at hless
      exact ⟨visited, v, v₁, before, hstep, hle, by omega⟩
    · exact ih (Int.not_le.1 hle)

variable {m : UInt32} {i' : Instance} (hm : Metered plan m i i')
include hm

/-- A call of the hook charges what there is left to pay. -/
theorem Metered.hook_of_beside {c : Nat} {sb : Sandbox} {func : UInt32} {cost : BitVec 32}
    {frames : List Machine.Frame} {depth : Nat} (hs : Scoped m i s)
    (hb : Beside plan hidden s c ⟨sb, ⟨.invoke func [.i32 cost], frames, depth⟩⟩)
    (hhook : i'.function? func = some .hook) (hcost : cost.toInt ≠ 0) :
    (c : Int) = cost.toInt ∧ Stage plan s.thread 0 1 ⟨.give [], frames, depth⟩ := by
  obtain ⟨-, ⟨left, hstage⟩, hp⟩ := hb
  have hp : sb.paused = false := hp
  have hcharge := hm.chargeOf_eq hs hstage hp
  rw [Simulation.chargeOf_eq, charge_hook hhook hp] at hcharge
  split at hcharge
  · rename_i htwo
    subst htwo
    rcases hstage.split hm.hook sb with ⟨-, -, hzero⟩ | ⟨_, k, hk, hne, -⟩ | ⟨-, -, -, hst⟩
    · cases hzero
    · omega
    · exact ⟨hcharge.symm, hst⟩
  · exact absurd hcharge hcost

/-- What is left to pay is charged by a call of the hook. -/
theorem Metered.calls_hook {c : Nat} {s' : State} (hb : Beside plan hidden s c s') (hc : c ≠ 0) :
    ∃ t', Reaches i' s' ⟨s'.sandbox, t'⟩ ∧ t'.control = .invoke plan.hook [chargeArg c] ∧
      c ≤ maxCharge := by
  obtain ⟨-, ⟨left, hstage⟩, -⟩ := hb
  obtain ⟨sb', t'⟩ := s'
  induction left generalizing t' with
  | zero =>
    rcases hstage.split hm.hook sb' with ⟨-, hzero, -⟩ | ⟨_, _, hk, -⟩ | ⟨hk, -⟩
    · exact absurd hzero hc
    · cases hk
    · cases hk
  | succ left ih =>
    rcases hstage.split hm.hook sb' with ⟨-, hzero, -⟩ | ⟨t'', k, hk, -, hs', hst⟩ | ⟨-, hcall, -⟩
    · exact absurd hzero hc
    · cases hk
      obtain ⟨t₁, hreach, hcall⟩ := ih t'' hst
      exact ⟨t₁, .head hs' hreach, hcall⟩
    · exact ⟨t', .refl, hcall, hstage.le_maxCharge⟩

/-- With less gas than a way costs, the metered machine comes to a call of the hook that charges
more than there is. -/
theorem Metered.falls_short {s' : State} (hs : Scoped m i s)
    (hh : ∀ v, Reaches i s v → Heeding hidden v) (hb : Beside plan hidden s 0 s')
    (h : Trail i s visited s₁) (hgas : 0 ≤ s'.sandbox.gas)
    (hless : s'.sandbox.gas < tolls plan i visited) :
    ∃ (s₂ : State) (cost : BitVec 32), Reaches i' s' s₂ ∧
      s₂.thread.control = .invoke plan.hook [.i32 cost] ∧ s₂.sandbox.paused = false ∧
      s₂.sandbox.gas < cost.toInt := by
  obtain ⟨before, v, v₁, hbefore, hstep, hle, hlt⟩ := exists_short h hgas hless
  obtain ⟨sb', hreach, hv, hsb, hp, -, hleft⟩ := hm.follow hs hh hb hbefore (by omega)
  obtain ⟨s₁', hstep', hb₁, hk⟩ := hm.next hv (hh v hbefore.reaches) hsb hp hstep
  obtain ⟨t', hreach', hcall, hmax⟩ := hm.calls_hook hb₁ (by omega)
  obtain ⟨cost, harg, hint⟩ := toInt_chargeArg hmax
  have hkept := hk.gas
  refine ⟨⟨s₁'.sandbox, t'⟩, cost, (hreach.tail hstep').trans hreach', harg ▸ hcall, hb₁.running, ?_⟩
  rw [hint]
  change s₁'.sandbox.gas < _
  omega

/-- Where the original machine comes to an end, so does the metered one, with gas or without. -/
theorem Metered.exists_end {s' : State} {o : Outcome} (hs : Scoped m i s)
    (hh : ∀ v, Reaches i s v → Heeding hidden v) (hb : Beside plan hidden s 0 s')
    (h : Trail i s visited s₁) (hgas : 0 ≤ s'.sandbox.gas) (ho : (step i s₁).outcome? = some o)
    (hroomy : ¬Exhausts i s₁) : ∃ more s₁' o', Trail i' s' more s₁' ∧
      (step i' s₁').outcome? = some o' ∧ ¬Exhausts i' s₁' := by
  by_cases henough : (tolls plan i visited : Int) ≤ s'.sandbox.gas
  · obtain ⟨sb', hreach, hs₁, hsb, -, -, -⟩ := hm.follow hs hh hb h (by omega)
    obtain ⟨o', ho', hsame, -⟩ := hm.ends hs₁ (hh s₁ h.reaches) hsb ho
    obtain ⟨more, htrail⟩ := hreach.exists_trail
    refine ⟨more, _, o', htrail, ho', fun ⟨sb₁, hexhausted⟩ => hroomy ?_⟩
    rw [hexhausted] at ho'
    cases ho'
    cases hsame with
    | @failed _ sb₀ => exact ⟨sb₀, Step.eq_failed ho⟩
  · obtain ⟨⟨sb₂, control, frames, depth⟩, cost, hreach, hcontrol, hp, hshort⟩ :=
      hm.falls_short hs hh hb h hgas (Int.not_le.1 henough)
    obtain ⟨more, htrail⟩ := hreach.exists_trail
    have hcontrol : control = .invoke plan.hook [.i32 cost] := hcontrol
    subst hcontrol
    have hstep := @step_hook i' plan.hook cost frames depth sb₂ hm.hook
    rw [stepHook_of_lt hm.controls hp hshort] at hstep
    exact ⟨more, _, _, htrail, by rw [hstep]; rfl,
      fun hexhausts => hexhausts.not_enters ⟨_, _, rfl, hm.hook⟩⟩

end

end MeteredWasm.Simulation
