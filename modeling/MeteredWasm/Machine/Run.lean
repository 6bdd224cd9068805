import MeteredWasm.Machine.Step

/-!
# Runs of the machine

A run takes steps until there is none to take. It is given a number of steps; more of them never
change how it ends.
-/

set_option autoImplicit false

namespace MeteredWasm.Machine

open Wasm

/-- How a run ends. -/
inductive Outcome
  | finished (results : List Value) (sandbox : Sandbox)
  | failed (error : ExecutionError) (sandbox : Sandbox)

/-- At most `fuel` steps; `none` if they do not lead to an end. -/
def run (i : Instance) : (fuel : Nat) → State → Option Outcome
  | 0, _ => none
  | fuel + 1, s =>
    match step i s with
    | .next s => run i fuel s
    | .finished results sandbox => some (.finished results sandbox)
    | .failed error sandbox => some (.failed error sandbox)

/-- More steps never change how a run ends. -/
theorem run_add {i : Instance} {fuel : Nat} {s : State} {o : Outcome}
    (h : run i fuel s = some o) (more : Nat) : run i (fuel + more) s = some o := by
  induction fuel generalizing s with
  | zero => simp [run] at h
  | succ fuel ih =>
    rw [Nat.succ_add, run]
    rw [run] at h
    cases hs : step i s with
    | next s' => rw [hs] at h; exact ih h
    | finished results sandbox => rw [hs] at h; exact h
    | failed error sandbox => rw [hs] at h; exact h

end MeteredWasm.Machine
