import MeteredWasm.Proofs.Simulation.Metered

/-!
# Calls made before

A host function is pure if its answer depends on its arguments alone. With such host functions the
machine never looks at the calls it has made: what it does after other calls is what it does
without them, and those calls stay at the end of the list (`step_after`, `Trail.after`).
-/

set_option autoImplicit false

namespace MeteredWasm

open Wasm Machine Metering Simulation

/-- The host function answers by its arguments alone. -/
def Machine.HostBehaviour.Pure (behaviour : HostBehaviour) : Prop :=
  ∀ calls calls' args, behaviour calls args = behaviour calls' args

/-- All host functions answer by their arguments alone. -/
def Imports.Pure (imports : Imports) : Prop := ∀ f ∈ imports.functions, f.behaviour.Pure

namespace Machine

/-- The host functions that the instance calls answer by their arguments alone. -/
def Instance.Pure (i : Instance) : Prop := ∀ func module name type behaviour,
  i.function? func = some (.host module name type behaviour) → HostBehaviour.Pure behaviour

/-- The sandbox, when `old` has been called before. -/
def Sandbox.after (old : List HostCall) (sb : Sandbox) : Sandbox :=
  { sb with calls := sb.calls ++ old }

def State.after (old : List HostCall) (s : State) : State := { s with sandbox := s.sandbox.after old }

def Step.after (old : List HostCall) : Step → Step
  | .next s => .next (s.after old)
  | .finished results sandbox => .finished results (sandbox.after old)
  | .failed error sandbox => .failed error (sandbox.after old)

def Outcome.after (old : List HostCall) : Outcome → Outcome
  | .finished results sandbox => .finished results (sandbox.after old)
  | .failed error sandbox => .failed error (sandbox.after old)

section
variable (old : List HostCall) (i : Instance) (sb : Sandbox) (t : Thread)

@[simp] theorem State.after_nil (s : State) : s.after [] = s := by
  simp [State.after, Sandbox.after]

@[simp] theorem storage_after : (sb.after old).storage = sb.storage := rfl

@[simp] theorem gas_after : (sb.after old).gas = sb.gas := rfl

@[simp] theorem paused_after : (sb.after old).paused = sb.paused := rfl

@[simp] theorem Step.outcome_after (step : Step) :
    (step.after old).outcome? = step.outcome?.map (Outcome.after old) := by
  cases step <;> rfl

theorem outcomeSandbox_after (o : Outcome) :
    outcomeSandbox (o.after old) = (outcomeSandbox o).after old := by
  cases o <;> rfl

/-! ## Steps -/

theorem stepCode_after (a : Activation) :
    stepCode i (sb.after old) t a = (stepCode i sb t a).after old := by
  unfold stepCode
  split
  · rfl
  · rename_i op code hcode
    simp only [storage_after]
    cases flow? i sb.storage { a with code } t op with
    | some answer => cases answer <;> rfl
    | none => cases perform op a.locals a.operands sb.storage <;> rfl

theorem stepResume_after : stepResume i (sb.after old) t = (stepResume i sb t).after old := by
  unfold stepResume
  split <;> rfl

theorem write_after (address : Nat) (bytes : ByteArray) :
    (sb.after old).write? i address bytes = (Sandbox.after old) <$> sb.write? i address bytes := by
  unfold Sandbox.write?
  rw [storage_after]
  cases sb.storage.memories[i.blockMemory]? with
  | none => rfl
  | some m => cases hm : m.hostWrite address bytes <;> simp only [hm] <;> rfl

theorem stepPause_after : stepPause i (sb.after old) t = (stepPause i sb t).after old := by
  unfold stepPause
  cases i.controls with
  | none => rfl
  | some controls =>
    simp only [write_after]
    cases sb.write? i i.controlBlock.address.toNat ⟨i.controlBlock.encode.toArray⟩ <;> rfl

theorem stepHook_after (cost : Int) :
    stepHook i (sb.after old) t cost = (stepHook i sb t cost).after old := by
  by_cases hpaused : sb.paused
  · simp only [stepHook, paused_after, hpaused, if_true]
    exact stepResume_after old i sb t
  · by_cases hgas : 0 ≤ sb.gas - cost
    · simp only [stepHook, paused_after, gas_after, hpaused, hgas, Bool.false_eq_true, if_false,
        if_true]
      rfl
    · simp only [stepHook, paused_after, gas_after, hpaused, hgas, Bool.false_eq_true, if_false]
      exact stepPause_after old i { sb with gas := sb.gas - cost, paused := _ } t

theorem stepInvoke_after (hpure : i.Pure) (func : UInt32) (args : List Value) :
    stepInvoke i (sb.after old) t func args = (stepInvoke i sb t func args).after old := by
  unfold stepInvoke
  split
  · rfl
  · split
    · exact stepHook_after old i sb t _
    · rfl
  · rename_i module name type behaviour hf
    rw [hpure func module name type behaviour hf (sb.after old).calls sb.calls args]
    split
    · rfl
    · split <;> rfl
  · split <;> rfl

theorem stepGive_after (results : List Value) :
    stepGive (sb.after old) t results = (stepGive sb t results).after old := by
  unfold stepGive
  split <;> rfl

variable {i}

/-- With pure host functions no step depends on the calls made before. -/
theorem step_after (hpure : i.Pure) (s : State) : step i (s.after old) = (step i s).after old := by
  obtain ⟨sb, control, frames, depth⟩ := s
  cases control with
  | run a => exact stepCode_after old i sb _ a
  | invoke func args => exact stepInvoke_after old i sb _ hpure func args
  | give results => exact stepGive_after old sb _ results

end

/-! ## Trails -/

section
variable {i : Instance} {s s' : State} {visited : List State} {hidden : Nat → Nat → Prop}
  (old : List HostCall) (hpure : i.Pure)
include hpure

theorem Trail.after (h : Trail i s visited s') :
    Trail i (s.after old) (visited.map (State.after old)) (s'.after old) := by
  induction h with
  | here => exact .here
  | step _ hstep ih =>
    rw [List.map_append]
    exact ih.step (by rw [step_after old hpure, hstep]; rfl)

theorem Trail.of_after (h : Trail i (s.after old) visited s') :
    ∃ visited₀ s₀, Trail i s visited₀ s₀ ∧ visited = visited₀.map (State.after old) ∧
      s' = s₀.after old := by
  induction h with
  | here => exact ⟨[], s, .here, rfl, rfl⟩
  | @step visited s₁ s₂ _ hstep ih =>
    obtain ⟨visited₀, s₀, htrail, rfl, rfl⟩ := ih
    rw [step_after old hpure] at hstep
    cases hs : Machine.step i s₀ <;> rw [hs] at hstep <;> cases hstep
    rename_i s₁
    exact ⟨visited₀ ++ [s₀], s₁, htrail.step hs, by simp, rfl⟩

theorem outcome_of_after {o : Outcome} (h : (step i (s.after old)).outcome? = some o) :
    ∃ o₀, (step i s).outcome? = some o₀ ∧ o = o₀.after old := by
  rw [step_after old hpure, Step.outcome_after, Option.map_eq_some_iff] at h
  obtain ⟨o₀, ho₀, rfl⟩ := h
  exact ⟨o₀, ho₀, rfl⟩

/-- What is charged on the way is the same. -/
theorem tolls_after (plan : Plan) :
    tolls plan i (visited.map (State.after old)) = tolls plan i visited := by
  have hone (s : State) : tollOf plan i (s.after old) = tollOf plan i s := by
    unfold tollOf
    rw [step_after old hpure]
    cases step i s <;> rfl
  simp only [tolls, List.map_map]
  exact congrArg List.sum (List.map_congr_left fun s _ => hone s)

end

theorem Heeding.after {hidden : Nat → Nat → Prop} {s : State} (h : Heeding hidden s)
    (old : List HostCall) : Heeding hidden (s.after old) := h

end Machine

end MeteredWasm
