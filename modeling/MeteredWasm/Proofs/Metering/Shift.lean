import MeteredWasm.Metering.Pass
import MeteredWasm.Proofs.Validation.Named

/-!
# Moving functions

`shift` makes room for one function: no function moves to where the hook goes, and no two to the
same place. Only the last function that there could be has nowhere to move. `unshift` takes it
back.
-/

set_option autoImplicit false

namespace MeteredWasm.Metering

open Wasm

/-! ## Indices -/

theorem toNat_shift {func : UInt32} (h : func ≠ 0xFFFFFFFF) (hook : UInt32) :
    (shift hook func).toNat = if hook.toNat ≤ func.toNat then func.toNat + 1 else func.toNat := by
  have hlt : func.toNat < 0xFFFFFFFF := by
    have hne : func.toNat ≠ 0xFFFFFFFF := fun e => h (UInt32.toNat_inj.1 e)
    have := func.toNat_lt
    omega
  unfold shift
  simp only [ge_iff_le, UInt32.le_iff_toNat_le]
  split
  · rw [UInt32.toNat_add]
    simp only [UInt32.reduceToNat]
    omega
  · rfl

theorem shift_ne_hook {func : UInt32} (h : func ≠ 0xFFFFFFFF) (hook : UInt32) :
    shift hook func ≠ hook := by
  intro e
  have ht := toNat_shift h hook
  rw [e] at ht
  split at ht <;> omega

/-- Where a function was before one was put in at `hook`. -/
def unshift (hook func : UInt32) : UInt32 := if hook < func then func - 1 else func

theorem unshift_shift {func : UInt32} (h : func ≠ 0xFFFFFFFF) (hook : UInt32) :
    unshift hook (shift hook func) = func := by
  have ht := toNat_shift h hook
  have hfunc := func.toNat_lt
  apply UInt32.toNat_inj.1
  unfold unshift
  simp only [UInt32.lt_iff_toNat_lt]
  split at ht
  · rw [if_pos (by omega), UInt32.toNat_sub_of_le _ _ (by rw [UInt32.le_iff_toNat_le, ht]; simp)]
    simp [ht]
  · rw [if_neg (by omega), ht]

theorem shift_unshift {hook func : UInt32} (h : func ≠ hook) :
    shift hook (unshift hook func) = func := by
  unfold shift unshift
  have hne : func.toNat ≠ hook.toNat := fun e => h (UInt32.toNat_inj.1 e)
  have hfunc := func.toNat_lt
  split
  · rename_i hlt
    have hlt := UInt32.lt_iff_toNat_lt.1 hlt
    have hpred : (func - 1).toNat = func.toNat - 1 :=
      UInt32.toNat_sub_of_le _ _ (UInt32.le_iff_toNat_le.2 (Nat.lt_of_le_of_lt (Nat.zero_le _) hlt))
    rw [if_pos (UInt32.le_iff_toNat_le.2 (by omega)), UInt32.sub_add_cancel]
  · rename_i hle
    have hle := UInt32.le_iff_toNat_le.1 (UInt32.not_lt.1 hle)
    exact if_neg fun hge => hne (Nat.le_antisymm hle (UInt32.le_iff_toNat_le.1 hge))

/-! ## Operators -/

/-- Functions that are called or referred to are not the last one there could be. -/
def Movable (op : Operator) : Prop := op.func? ≠ some 0xFFFFFFFF

section
variable {hook : UInt32} {op : Operator} (hop : Movable op)
include hop

theorem mapFunc_ne_call_hook : op.mapFunc (shift hook) ≠ .call hook := by
  intro e
  have hf : (op.mapFunc (shift hook)).func? = some hook := by rw [e]; rfl
  rw [Operator.func?_mapFunc, Option.map_eq_some_iff] at hf
  obtain ⟨func, hfunc, hs⟩ := hf
  exact shift_ne_hook (fun e => hop (by rw [hfunc, e])) hook hs

/-- Moving an operator can be taken back. -/
theorem mapFunc_unshift : (op.mapFunc (shift hook)).mapFunc (unshift hook) = op := by
  rw [Operator.mapFunc_mapFunc, Operator.mapFunc_congr (g := id), Operator.mapFunc_id]
  intro func h
  exact unshift_shift (fun e => hop (by rw [Option.mem_def.1 h, e])) hook

end

theorem map_unshift {ops : List Operator} (h : ∀ op ∈ ops, Movable op) (hook : UInt32) :
    (ops.map (Operator.mapFunc (shift hook))).map (Operator.mapFunc (unshift hook)) = ops := by
  induction ops with
  | nil => rfl
  | cons op ops ih =>
    rw [List.map_cons, List.map_cons, mapFunc_unshift (h op (by simp)),
      ih fun op hop => h op (by simp [hop])]

end MeteredWasm.Metering
