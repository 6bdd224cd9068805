import MeteredWasm.Proofs.Metering.Shift
import MeteredWasm.Proofs.Simulation.Lockstep

/-!
# Names in range

A function is in range if it is one of the first `n`. `cycle m` is a renaming that moves exactly
the functions from `m` on, so what it leaves alone is what only names functions in front of `m`.
It is injective, and does to functions in range what `shift` does.

A host function that is opaque names no function that it has not been given, so a renaming only
has to be injective in range for it to answer the renamed call with the renamed answer
(`opaque_natural`).
-/

set_option autoImplicit false

namespace MeteredWasm.Simulation

open Wasm Machine Metering

/-! ## A renaming that moves all functions from `m` on -/

/-- Moves every function from `m` on up by one, and the last one to `m`. -/
def cycle (m func : UInt32) : UInt32 :=
  if func < m then func else if func = 0xFFFFFFFF then m else func + 1

section
variable {m func : UInt32}

theorem toNat_cycle (m func : UInt32) : (cycle m func).toNat =
    if func.toNat < m.toNat then func.toNat
    else if func.toNat = 0xFFFFFFFF then m.toNat else func.toNat + 1 := by
  have hlast : func = 0xFFFFFFFF ↔ func.toNat = 0xFFFFFFFF :=
    ⟨fun h => by rw [h]; rfl, fun h => UInt32.toNat_inj.1 h⟩
  have hlt := func.toNat_lt
  unfold cycle
  simp only [UInt32.lt_iff_toNat_lt, hlast]
  split
  · rfl
  · split
    · rfl
    · rw [UInt32.toNat_add]
      simp only [UInt32.reduceToNat]
      omega

theorem cycle_eq_self_iff (hm : m ≠ 0xFFFFFFFF) : cycle m func = func ↔ func.toNat < m.toNat := by
  have hm' : m.toNat ≠ 0xFFFFFFFF := fun h => hm (UInt32.toNat_inj.1 h)
  rw [← UInt32.toNat_inj, toNat_cycle]
  split
  · simp [*]
  · split <;> omega

theorem cycle_injective (m : UInt32) : Function.Injective (cycle m) := by
  intro a b h
  have ha := toNat_cycle m a
  have hb := toNat_cycle m b
  have hlta := a.toNat_lt
  have hltb := b.toNat_lt
  rw [h, hb] at ha
  apply UInt32.toNat_inj.1
  split at ha <;> split at ha <;> (try split at ha) <;> (try split at ha) <;> omega

theorem shift_eq_cycle {hook : UInt32} (h : func ≠ 0xFFFFFFFF) :
    shift hook func = cycle hook func := by
  unfold shift cycle
  simp only [ge_iff_le, UInt32.le_iff_toNat_le, UInt32.lt_iff_toNat_lt, h, if_false]
  split
  · rw [if_neg (by omega)]
  · rw [if_pos (by omega)]

end

/-! ## Values in range -/

/-- A value that only refers to one of the first `n` functions. -/
def Below (n : Nat) (v : Value) : Prop := ∀ func : UInt32, v = .ref (some func) → func.toNat < n

theorem forall_of_map_eq_self {α : Type} {f : α → α} {xs : List α} (h : xs.map f = xs) :
    ∀ x ∈ xs, f x = x := by
  induction xs with
  | nil => simp
  | cons x xs ih =>
    simp only [List.map_cons, List.cons.injEq] at h
    intro y hy
    rcases List.mem_cons.1 hy with rfl | hy
    · exact h.1
    · exact ih h.2 y hy

section
variable {n : Nat} {m : UInt32}

theorem mapFunc_congr_below {v : Value} {g g' : UInt32 → UInt32} (h : Below n v)
    (hg : ∀ func : UInt32, func.toNat < n → g func = g' func) : v.mapFunc g = v.mapFunc g' := by
  cases v with
  | ref target =>
    cases target with
    | none => rfl
    | some func => simp [hg func (h func rfl)]
  | _ => rfl

theorem map_congr_below {vs : List Value} {g g' : UInt32 → UInt32} (h : ∀ v ∈ vs, Below n v)
    (hg : ∀ func : UInt32, func.toNat < n → g func = g' func) :
    vs.map (Value.mapFunc g) = vs.map (Value.mapFunc g') :=
  List.map_congr_left fun v hv => mapFunc_congr_below (h v hv) hg

theorem calls_congr_below {calls : List HostCall} {g g' : UInt32 → UInt32}
    (h : ∀ c ∈ calls, ∀ v ∈ c.args, Below n v)
    (hg : ∀ func : UInt32, func.toNat < n → g func = g' func) :
    calls.map (HostCall.mapFunc g) = calls.map (HostCall.mapFunc g') :=
  List.map_congr_left fun c hc => by simp only [HostCall.mapFunc, map_congr_below (h c hc) hg]

variable (hm : m ≠ 0xFFFFFFFF)
include hm

theorem below_iff {v : Value} : v.mapFunc (cycle m) = v ↔ Below m.toNat v := by
  cases v with
  | ref target =>
    cases target with
    | none => simp [Below]
    | some func => simp [Below, cycle_eq_self_iff hm]
  | _ => simp [Below]

theorem all_below_iff {vs : List Value} :
    vs.map (Value.mapFunc (cycle m)) = vs ↔ ∀ v ∈ vs, Below m.toNat v := by
  constructor
  · exact fun h v hv => (below_iff hm).1 (forall_of_map_eq_self h v hv)
  · intro h
    exact (List.map_congr_left fun v hv => (below_iff hm).2 (h v hv)).trans (List.map_id _)

theorem calls_below_iff {calls : List HostCall} :
    calls.map (HostCall.mapFunc (cycle m)) = calls ↔
      ∀ c ∈ calls, ∀ v ∈ c.args, Below m.toNat v := by
  constructor
  · intro h c hc
    exact (all_below_iff hm).1 (congrArg HostCall.args (forall_of_map_eq_self h c hc))
  · intro h
    refine (List.map_congr_left fun c hc => ?_).trans (List.map_id _)
    simp only [HostCall.mapFunc, (all_below_iff hm).2 (h c hc)]
    rfl

/-- An opaque host function that is given functions in range answers with functions in range. -/
theorem opaque_below {behaviour : HostBehaviour} (hb : behaviour.Opaque) {calls : List HostCall}
    {args results : List Value} (hcalls : ∀ c ∈ calls, ∀ v ∈ c.args, Below m.toNat v)
    (hargs : ∀ v ∈ args, Below m.toNat v) (h : behaviour calls args = .ok results) :
    ∀ v ∈ results, Below m.toNat v := by
  have hnat := hb (cycle m) (cycle_injective m) calls args
  rw [(calls_below_iff hm).2 hcalls, (all_below_iff hm).2 hargs, h] at hnat
  exact (all_below_iff hm).1 (Except.ok.inj hnat).symm

/-- A renaming that is injective in range renames the answer. -/
theorem opaque_natural {behaviour : HostBehaviour} (hb : behaviour.Opaque)
    {calls : List HostCall} {args : List Value}
    (hcalls : ∀ c ∈ calls, ∀ v ∈ c.args, Below m.toNat v) (hargs : ∀ v ∈ args, Below m.toNat v)
    {g g' : UInt32 → UInt32} (hinj : Function.Injective g')
    (hg : ∀ func : UInt32, func.toNat < m.toNat → g func = g' func) :
    behaviour (calls.map (HostCall.mapFunc g)) (args.map (Value.mapFunc g)) =
      List.map (Value.mapFunc g) <$> behaviour calls args := by
  rw [calls_congr_below hcalls hg, map_congr_below hargs hg, hb g' hinj]
  cases h : behaviour calls args with
  | error e => rfl
  | ok results =>
    exact congrArg Except.ok (map_congr_below (opaque_below hm hb hcalls hargs h) hg).symm

end

end MeteredWasm.Simulation
