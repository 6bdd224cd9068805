import MeteredWasm.Proofs.Agreement.Memory
import MeteredWasm.Proofs.Session.Tick
import MeteredWasm.Sandbox.Snapshot

/-!
# Uses of an executor

An executor is run, and snapshots are put into it (`Later`). A run is refused, or has no gas, or is
a tick that ends or fails (`Ran`).
-/

set_option autoImplicit false

namespace MeteredWasm

open Wasm Machine

/-- Overwriting all of a memory. -/
theorem Machine.Memory.overwrite_all (m : Memory) {bytes : ByteArray} (h : bytes.size = m.size) :
    m.overwrite 0 bytes 0 bytes.size = { m with bytes } := by
  have hm : 0 + bytes.size ≤ m.size := by omega
  have hs : 0 + bytes.size ≤ bytes.size := by omega
  refine Agrees.eq ⟨(m.size_overwrite hm hs).trans h.symm, rfl, rfl, rfl, fun k _ => ?_⟩
  rw [m.byte?_overwrite hm hs]
  split
  · simp [byte?]
  · have hk : m.bytes.data.size ≤ k := by
      change m.size ≤ k
      omega
    have hk' : bytes.data.size ≤ k := by
      change bytes.size ≤ k
      omega
    rw [byte?, byte?, Array.getElem?_eq_none hk, Array.getElem?_eq_none hk']

namespace Executor

/-! ## Runs -/

/-- What becomes of a run. -/
inductive Ran (e : Executor) (fuel : Nat) (budget : Int) :
    Except ExecutionError Bool → Executor → Prop
  | refused (faulted : e.faulted = true) : Ran e fuel budget (.error .faulted) e
  | idle (unfaulted : e.faulted = false) (gas : topUp e.gas budget ≤ 0) :
      Ran e fuel budget (.ok false)
        { e with sandbox := { e.sandbox with gas := topUp e.gas budget } }
  | ended {finished : Bool} {sandbox : Sandbox} (unfaulted : e.faulted = false)
      (gas : 0 < topUp e.gas budget)
      (tick : e.tick fuel { e.sandbox with gas := topUp e.gas budget } =
        some (.ok finished, sandbox)) :
      Ran e fuel budget (.ok finished) { e with sandbox }
  | failed {error : ExecutionError} {sandbox : Sandbox} (unfaulted : e.faulted = false)
      (gas : 0 < topUp e.gas budget)
      (tick : e.tick fuel { e.sandbox with gas := topUp e.gas budget } =
        some (.error error, sandbox)) :
      Ran e fuel budget (.error error) { e with sandbox, faulted := true }

section
variable {e e' : Executor} {fuel : Nat} {budget : Int} {answer : Except ExecutionError Bool}

theorem run_of_faulted (h : e.faulted = true) : e.run fuel budget = some (.error .faulted, e) := by
  simp [run, h]

/-- Without gas there is no tick. -/
theorem run_of_idle (hopen : e.faulted = false) (h : topUp e.gas budget ≤ 0) :
    e.run fuel budget = some (.ok false,
      { e with sandbox := { e.sandbox with gas := topUp e.gas budget } }) := by
  simp only [gas] at h ⊢
  simp [run, hopen, h]

theorem ran_of_run (h : e.run fuel budget = some (answer, e')) : e.Ran fuel budget answer e' := by
  by_cases hfaulted : e.faulted = true
  · rw [run_of_faulted hfaulted] at h
    cases h
    exact .refused hfaulted
  · have hopen := Bool.eq_false_iff.2 hfaulted
    by_cases hgas : topUp e.gas budget ≤ 0
    · rw [run_of_idle hopen hgas] at h
      cases h
      exact .idle hopen hgas
    · have hpos := Int.not_le.1 hgas
      have hidle : ¬topUp e.sandbox.gas budget ≤ 0 := hgas
      rw [run, if_neg hfaulted] at h
      dsimp only at h
      rw [if_neg hidle] at h
      split at h <;> cases h
      · exact .ended hopen hpos ‹_›
      · exact .failed hopen hpos ‹_›

/-- How many steps a run may take does not change what comes of it. -/
theorem run_add {x : Except ExecutionError Bool × Executor} (h : e.run fuel budget = some x)
    (more : Nat) : e.run (fuel + more) budget = some x := by
  unfold run at h ⊢
  split at h
  · rw [if_pos ‹_›]
    exact h
  · rw [if_neg ‹_›]
    dsimp only at h ⊢
    split at h
    · rw [if_pos ‹_›]
      exact h
    · rw [if_neg ‹_›]
      split at h
      · cases h
      · rw [tick_add ‹_› more]
        exact h
      · rw [tick_add ‹_› more]
        exact h

theorem run_unique {fuel' : Nat} {x x' : Except ExecutionError Bool × Executor}
    (h : e.run fuel budget = some x) (h' : e.run fuel' budget = some x') : x = x' := by
  have hmore := run_add h' fuel
  rw [Nat.add_comm, run_add h fuel'] at hmore
  exact Option.some.inj hmore

/-- A run is a tick, if there is gas. -/
theorem run_of_ownTick {controls : Controls} {finished : Bool} {sandbox : Sandbox}
    (hcontrols : e.instance_.controls = some controls) (hopen : e.faulted = false)
    (hgas : 0 < topUp e.gas budget)
    (h : OwnTick e.instance_ fuel e.entry controls { e.sandbox with gas := topUp e.gas budget }
      finished sandbox) :
    e.run fuel budget = some (.ok finished, { e with sandbox }) := by
  have hidle : ¬topUp e.sandbox.gas budget ≤ 0 := Int.not_le.2 hgas
  have htick := tick_of_ownTick hcontrols h
  rw [run, if_neg (Bool.eq_false_iff.1 hopen)]
  dsimp only
  rw [if_neg hidle]
  simp only [gas] at htick
  rw [htick]

/-- A run fails where the entry does. -/
theorem run_of_entry_failed {controls : Controls} {error : ExecutionError} {sb₁ sandbox : Sandbox}
    (hcontrols : e.instance_.controls = some controls) (hopen : e.faulted = false)
    (hgas : 0 < topUp e.gas budget)
    (hrewound : Rewound e.instance_ fuel controls.startRewind
      { e.sandbox with gas := topUp e.gas budget } sb₁)
    (h : call e.instance_ fuel e.entry [] sb₁ = some (.error error, sandbox)) :
    e.run fuel budget = some (.error error, { e with sandbox, faulted := true }) := by
  have hidle : ¬topUp e.sandbox.gas budget ≤ 0 := Int.not_le.2 hgas
  have hrewind := rewind_eq_ok.2 hrewound
  simp only [gas] at hrewind
  have htick : e.tick fuel { e.sandbox with gas := topUp e.sandbox.gas budget } =
      some (.error error, sandbox) := by
    rw [tick_eq hcontrols, tick_bind_of_ok hrewind]
    exact tick_bind_of_error h
  rw [run, if_neg (Bool.eq_false_iff.1 hopen)]
  dsimp only
  rw [if_neg hidle, htick]

/-- A run leaves the instance and its entry. -/
theorem Ran.keeps (h : e.Ran fuel budget answer e') :
    e'.instance_ = e.instance_ ∧ e'.entry = e.entry := by
  cases h <;> exact ⟨rfl, rfl⟩

end

/-! ## Snapshots -/

section
variable {e e' : Executor} {s : ByteArray}

theorem serialize_eq_some : e.serialize = some s ↔
    e.sandbox.paused = true ∧ e.faulted = false ∧ s = e.memory.bytes := by
  unfold serialize isPaused
  cases hp : e.sandbox.paused <;> cases hf : e.faulted <;> simp [eq_comm]

/-- The storage with other bytes of memory. -/
def refilled (i : Instance) (st : Storage) (bytes : ByteArray) : Storage :=
  st.modifyMemory i.blockMemory ({ · with bytes })

/-- Writing as many bytes as memory has is filling it with them. -/
theorem write_all {i : Instance} {sb : Sandbox} {m : Memory}
    (hm : sb.storage.memories[i.blockMemory]? = some m) (hsize : s.size = m.size) :
    sb.write? i 0 s = .ok { sb with storage := refilled i sb.storage s } := by
  have hholds : m.holds 0 s.size = true := by
    simp only [Memory.holds, decide_eq_true_eq, hsize]
    omega
  have hwrite : m.hostWrite 0 s = .ok { m with bytes := s } := by
    unfold Memory.hostWrite Memory.writeShared Memory.writeOwned
    rw [Memory.overwrite_all m hsize, if_pos hholds]
    split
    · rfl
    · rfl
  have hfilled : sb.storage.modifyMemory i.blockMemory (fun _ => { m with bytes := s }) =
      refilled i sb.storage s :=
    Storage.modifyMemory_congr fun m' hm' => by rw [Option.some.inj (hm.symm.trans hm')]
  simp only [Sandbox.write?, hm, hwrite, except_ok_bind, hfilled]
  rfl

theorem deserialize_eq_ok : e.deserialize s = .ok e' ↔ e.faulted = false ∧
    s.size = e.memorySize ∧ e.instance_.blockMemory < e.sandbox.storage.memories.length ∧
    e' = { e with
      sandbox := { e.sandbox with
        paused := true, storage := refilled e.instance_ e.sandbox.storage s } } := by
  unfold deserialize
  by_cases hf : e.faulted = true
  · simp [hf]
  · by_cases hsize : s.size = e.memorySize
    · cases hm : e.sandbox.storage.memories[e.instance_.blockMemory]? with
      | none =>
        have hno : ¬e.instance_.blockMemory < e.sandbox.storage.memories.length :=
          Nat.not_lt.2 (List.getElem?_eq_none_iff.1 hm)
        simp [hf, hsize, Sandbox.write?, hno]
      | some m =>
        have hlt := (List.getElem?_eq_some_iff.1 hm).1
        have hmemory : s.size = m.size := by
          rw [hsize, memorySize, memory, memoryOf, hm]
          rfl
        simp [hf, hsize, write_all hm hmemory, hlt, eq_comm]
    · simp [hf, hsize]

end

/-! ## Histories -/

/-- What becomes of an executor that is run, and that snapshots are put into. A snapshot that is
taken, or refused, leaves it as it is. -/
inductive Later (e₀ : Executor) : Executor → Prop
  | start : Later e₀ e₀
  | run {e e' : Executor} {fuel : Nat} {budget : Int} {answer : Except ExecutionError Bool}
      (before : Later e₀ e) (run : e.run fuel budget = some (answer, e')) : Later e₀ e'
  | restore {e e' : Executor} {snapshot : ByteArray} (before : Later e₀ e)
      (restored : e.deserialize snapshot = .ok e') : Later e₀ e'

section
variable {e₀ e e' : Executor}

theorem restored_keeps {snapshot : ByteArray} (h : e.deserialize snapshot = .ok e') :
    e'.instance_ = e.instance_ ∧ e'.entry = e.entry ∧ e'.faulted = false := by
  obtain ⟨hopen, -, -, rfl⟩ := deserialize_eq_ok.1 h
  exact ⟨rfl, rfl, hopen⟩

/-- The instance and its entry are settled when the executor is made. -/
theorem Later.keeps (h : Later e₀ e) : e.instance_ = e₀.instance_ ∧ e.entry = e₀.entry := by
  induction h with
  | start => exact ⟨rfl, rfl⟩
  | run _ hrun ih =>
    obtain ⟨hinstance, hentry⟩ := (ran_of_run hrun).keeps
    exact ⟨hinstance.trans ih.1, hentry.trans ih.2⟩
  | restore _ hrestored ih =>
    obtain ⟨hinstance, hentry, -⟩ := restored_keeps hrestored
    exact ⟨hinstance.trans ih.1, hentry.trans ih.2⟩

end

end Executor

end MeteredWasm
