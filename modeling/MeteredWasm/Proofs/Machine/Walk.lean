import MeteredWasm.Machine.Run
import MeteredWasm.Proofs.Machine.Glide

/-!
# Walking through code

What a fixed piece of code does is seen by taking its steps one after another, up to a call of the
hook (`walk`). Most of them can just be taken; those that look into memory depend on what is there
(`step_load`, `step_store`).
-/

set_option autoImplicit false

namespace MeteredWasm.Machine

open Wasm

/-- Whether the next step of a thread enters the hook. -/
def entersHook (i : Instance) (t : Thread) : Bool :=
  match t.control with
  | .invoke func _ => (i.function? func).any fun
    | .hook => true
    | _ => false
  | _ => false

/-- The state that so many steps lead to, none of which enters the hook. -/
def walk (i : Instance) : Nat → State → Option State
  | 0, s => some s
  | n + 1, s =>
    if entersHook i s.thread then none
    else
      match step i s with
      | .next s => walk i n s
      | _ => none

section
variable {i : Instance} {s s' s'' : State} {n k : Nat}

theorem not_entersHook (h : entersHook i s.thread = false) : ¬EntersHook i s.thread := by
  rintro ⟨func, args, hcontrol, hhook⟩
  simp [entersHook, hcontrol, hhook] at h

theorem walk_succ (hbeside : entersHook i s.thread = false) (h : step i s = .next s') (n : Nat) :
    walk i (n + 1) s = walk i n s' := by
  rw [walk, hbeside, h]
  rfl

theorem walk_succ_eq_some (h : walk i (n + 1) s = some s'') :
    ∃ s', entersHook i s.thread = false ∧ step i s = .next s' ∧ walk i n s' = some s'' := by
  rw [walk] at h
  cases hbeside : entersHook i s.thread with
  | true => simp [hbeside] at h
  | false =>
    cases hs : step i s with
    | next s₁ =>
      rw [hbeside, hs] at h
      exact ⟨s₁, rfl, rfl, h⟩
    | _ => simp [hbeside, hs] at h

theorem walk_append (h : walk i n s = some s') (h' : walk i k s' = some s'') :
    walk i (n + k) s = some s'' := by
  induction n generalizing s with
  | zero =>
    cases h
    rwa [Nat.zero_add]
  | succ n ih =>
    obtain ⟨s₁, hbeside, hs, h⟩ := walk_succ_eq_some h
    rw [Nat.succ_add]
    exact (walk_succ hbeside hs _).trans (ih h)

theorem run_of_walk (h : walk i n s = some s') (fuel : Nat) :
    run i (n + fuel) s = run i fuel s' := by
  induction n generalizing s with
  | zero =>
    cases h
    rw [Nat.zero_add]
  | succ n ih =>
    obtain ⟨s₁, -, hs, h⟩ := walk_succ_eq_some h
    rw [Nat.succ_add]
    exact (run_succ_of_next hs _).trans (ih h)

theorem glides_of_walk (h : walk i n s = some s') : Glides i s s' := by
  induction n generalizing s with
  | zero =>
    cases h
    exact .refl
  | succ n ih =>
    obtain ⟨s₁, hbeside, hs, h⟩ := walk_succ_eq_some h
    exact (ih h).head ⟨not_entersHook hbeside, hs⟩

/-- Code that is walked through up to a step that fails. -/
theorem run_of_walk_failed {error : ExecutionError} {sb : Sandbox} (h : walk i n s = some s')
    (hstep : step i s' = .failed error sb) (k : Nat) :
    run i (n + (k + 1)) s = some (.failed error sb) := by
  rw [run_of_walk h, run, hstep]

section
variable {storage : Storage} {gas : Int} {paused : Bool} {calls : List HostCall}
  {signals : List Signal} {frames : List Frame} {depth arity : Nat} {func : UInt32}
  {locals vs : List Value} {labels : List Label} {code : List Operator} {m : Memory}
  {base : BitVec 32} {arg : MemArg}

/-- An operator that computes. -/
theorem step_perform {op : Operator} {locals' vs' : List Value} {storage' : Storage}
    (hflow : flow? i storage ⟨func, arity, locals, vs, labels, code⟩
      ⟨.run ⟨func, arity, locals, vs, labels, op :: code⟩, frames, depth⟩ op = none)
    (hperform : perform op locals vs storage = .ok (locals', vs') storage') :
    step i ⟨⟨storage, gas, paused, calls, signals⟩,
      ⟨.run ⟨func, arity, locals, vs, labels, op :: code⟩, frames, depth⟩⟩ =
    .next ⟨⟨storage', gas, paused, calls, signals⟩,
      ⟨.run ⟨func, arity, locals', vs', labels, code⟩, frames, depth⟩⟩ := by
  simp only [step, stepCode, hflow, hperform]

/-- A word is loaded. -/
theorem step_load {word : Nat} (hm : storage.memories[arg.memory.toNat]? = some m)
    (hload : m.load (base.toNat + arg.offset.toNat) 4 = .ok word) :
    step i ⟨⟨storage, gas, paused, calls, signals⟩,
      ⟨.run ⟨func, arity, locals, .i32 base :: vs, labels, .load .i32 arg :: code⟩, frames,
        depth⟩⟩ =
    .next ⟨⟨storage, gas, paused, calls, signals⟩,
      ⟨.run ⟨func, arity, locals, .i32 (BitVec.ofNat 32 word) :: vs, labels, code⟩, frames,
        depth⟩⟩ := by
  have hnumber : Action.loadNumber arg.memory.toNat (base.toNat + arg.offset.toNat) 4 storage =
      .ok word storage := by
    simp only [Action.loadNumber, hm, hload]
  refine step_perform rfl ?_
  change EStateM.bind (EStateM.bind (Action.loadNumber arg.memory.toNat
    (base.toNat + arg.offset.toNat) 4) _) _ storage = _
  simp only [EStateM.bind, hnumber]
  rfl

theorem step_load_word {word : BitVec 32} (hm : storage.memories[arg.memory.toNat]? = some m)
    (hload : m.load (base.toNat + arg.offset.toNat) 4 = .ok word.toNat) :
    step i ⟨⟨storage, gas, paused, calls, signals⟩,
      ⟨.run ⟨func, arity, locals, .i32 base :: vs, labels, .load .i32 arg :: code⟩, frames,
        depth⟩⟩ =
    .next ⟨⟨storage, gas, paused, calls, signals⟩,
      ⟨.run ⟨func, arity, locals, .i32 word :: vs, labels, code⟩, frames, depth⟩⟩ := by
  have hword : BitVec.ofNat 32 word.toNat = word := BitVec.ofNat_toNat ..
  have hstep := @step_load i storage gas paused calls signals frames depth arity func locals vs
    labels code m base arg word.toNat hm hload
  rwa [hword] at hstep

/-- A word is stored. -/
theorem step_store {word : BitVec 32} (hm : storage.memories[arg.memory.toNat]? = some m)
    (hholds : m.holds (base.toNat + arg.offset.toNat) 4 = true) :
    step i ⟨⟨storage, gas, paused, calls, signals⟩,
      ⟨.run ⟨func, arity, locals, .i32 word :: .i32 base :: vs, labels, .store .i32 arg :: code⟩,
        frames, depth⟩⟩ =
    .next ⟨⟨storage.modifyMemory arg.memory.toNat
        (·.write (base.toNat + arg.offset.toNat) (LittleEndian.write 4 word.toNat)), gas, paused,
        calls, signals⟩,
      ⟨.run ⟨func, arity, locals, vs, labels, code⟩, frames, depth⟩⟩ := by
  have hnumber : Action.storeNumber arg.memory.toNat (base.toNat + arg.offset.toNat) 4 word.toNat
      storage = .ok () (storage.modifyMemory arg.memory.toNat
        (·.write (base.toNat + arg.offset.toNat) (LittleEndian.write 4 word.toNat))) := by
    refine if_pos ?_
    simp [Action.memoryHolds, hm, LittleEndian.length_write, hholds]
  refine step_perform rfl ?_
  change EStateM.bind (EStateM.bind (Action.storeNumber arg.memory.toNat
    (base.toNat + arg.offset.toNat) 4 word.toNat) _) _ storage = _
  simp only [EStateM.bind, hnumber]
  rfl

end

/-- A function of code is entered, if there is room for one more frame. -/
theorem step_enter {sb : Sandbox} {frames : List Frame} {depth : Nat} {func : UInt32}
    {type : FuncType} {locals : List ValType} {body : List Operator} {args : List Value}
    (hfunc : i.function? func = some (.code type locals body)) (hdepth : depth < i.maxDepth) :
    step i ⟨sb, ⟨.invoke func args, frames, depth⟩⟩ =
      .next ⟨sb, ⟨.run (.start func type locals body args), frames, depth⟩⟩ := by
  change stepInvoke i sb _ func args = _
  simp only [stepInvoke, hfunc, if_pos hdepth]

end

end MeteredWasm.Machine
