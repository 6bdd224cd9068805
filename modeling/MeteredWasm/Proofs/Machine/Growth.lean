import MeteredWasm.Proofs.Machine.Effect
import MeteredWasm.Proofs.Machine.Hook

/-!
# How memories grow

Code may write to memories and add pages to them; it does nothing else to them. So a memory keeps
what it may grow to, is never smaller than before by any byte, and grows by whole pages
(`Memory.Grown`, `Storage.Grown`), whatever operator it is that runs (`allows_grown`).
-/

set_option autoImplicit false

namespace MeteredWasm.Machine

open Wasm Simulation

/-! ## Memories -/

namespace Memory

theorem size_appendPages (bytes : ByteArray) (count : Nat) :
    (appendPages bytes count).size = bytes.size + count * pageSize := by
  induction count generalizing bytes with
  | zero => simp [appendPages]
  | succ count ih =>
    have hpage : zeroPage.size = pageSize := by simp [zeroPage, ByteArray.size]
    rw [appendPages, ih, ByteArray.size_append, hpage, Nat.succ_mul]
    omega

theorem size_ofPages (count maxPages : Nat) (shared is64 : Bool) :
    (ofPages count maxPages shared is64).size = count * pageSize :=
  (size_appendPages .empty count).trans (by simp)

theorem pages_ofPages (count maxPages : Nat) (shared is64 : Bool) :
    (ofPages count maxPages shared is64).pages = count := by
  rw [pages, size_ofPages]
  exact Nat.mul_div_cancel _ (by decide)

/-- The memory has been written to, and pages have been added. -/
structure Grown (m m' : Memory) : Prop where
  maxPages : m'.maxPages = m.maxPages
  shared : m'.shared = m.shared
  is64 : m'.is64 = m.is64
  larger : m.size ≤ m'.size
  whole : m'.size % pageSize = m.size % pageSize
  within : m.pages ≤ m.maxPages → m'.pages ≤ m'.maxPages

variable {m m' : Memory}

theorem Grown.refl (m : Memory) : m.Grown m := ⟨rfl, rfl, rfl, Nat.le_refl _, rfl, id⟩

theorem Grown.trans {m'' : Memory} (h : m.Grown m') (h' : m'.Grown m'') : m.Grown m'' where
  maxPages := h'.maxPages.trans h.maxPages
  shared := h'.shared.trans h.shared
  is64 := h'.is64.trans h.is64
  larger := Nat.le_trans h.larger h'.larger
  whole := h'.whole.trans h.whole
  within hm := h'.within (h.within hm)

/-- Other bytes of the same number. -/
theorem grown_bytes (m : Memory) {bytes : ByteArray} (h : bytes.size = m.size) :
    m.Grown { m with bytes } := by
  have hsize : ({ m with bytes } : Memory).size = m.size := h
  refine ⟨rfl, rfl, rfl, Nat.le_of_eq hsize.symm, congrArg (· % pageSize) hsize, fun hm => ?_⟩
  rwa [pages, hsize]

theorem grown_overwrite (m : Memory) {source : ByteArray} {address start length : Nat}
    (hm : m.holds address length = true) (hs : start + length ≤ source.size) :
    m.Grown (m.overwrite address source start length) :=
  m.grown_bytes (m.size_overwrite (of_decide_eq_true hm) hs)

theorem grown_write (m : Memory) {address : Nat} {bs : Bytes}
    (hm : m.holds address bs.length = true) : m.Grown (m.write address bs) :=
  m.grown_overwrite hm (by simp [ByteArray.size])

theorem grown_of_grow {delta : Nat} (h : m.grow? delta = some m') : m.Grown m' := by
  simp only [grow?, Option.ite_none_right_eq_some, Option.some.injEq] at h
  obtain ⟨hfits, rfl⟩ := h
  have hsize : ({ m with bytes := appendPages m.bytes delta } : Memory).size =
      m.size + delta * pageSize := size_appendPages m.bytes delta
  refine ⟨rfl, rfl, rfl, ?_, ?_, fun _ => ?_⟩
  · rw [hsize]
    exact Nat.le_add_right ..
  · rw [hsize, Nat.add_mul_mod_self_right]
  · rw [pages, hsize, Nat.add_mul_div_right _ _ (by decide : 0 < pageSize)]
    exact hfits

end Memory

/-! ## Storages -/

/-- Every memory has grown. -/
structure Storage.Grown (st st' : Storage) : Prop where
  count : st'.memories.length = st.memories.length
  memories : ∀ (k : Nat) (m m' : Memory), st.memories[k]? = some m → st'.memories[k]? = some m' →
    m.Grown m'

namespace Storage

variable {st st' : Storage}

theorem Grown.of_memories (h : st'.memories = st.memories) : st.Grown st' := by
  refine ⟨congrArg List.length h, fun k m m' hm hm' => ?_⟩
  rw [h, hm] at hm'
  cases hm'
  exact .refl m

theorem Grown.refl (st : Storage) : st.Grown st := .of_memories rfl

/-- A memory that was there is there. -/
theorem Grown.exists_memory (h : st.Grown st') {k : Nat} {m : Memory}
    (hm : st.memories[k]? = some m) : ∃ m', st'.memories[k]? = some m' ∧ m.Grown m' := by
  obtain ⟨hlt, -⟩ := List.getElem?_eq_some_iff.1 hm
  have hm' := List.getElem?_eq_getElem (h.count.symm ▸ hlt)
  exact ⟨_, hm', h.memories k m _ hm hm'⟩

theorem Grown.trans {st'' : Storage} (h : st.Grown st') (h' : st'.Grown st'') : st.Grown st'' := by
  refine ⟨h'.count.trans h.count, fun k m m'' hm hm'' => ?_⟩
  obtain ⟨m', hm', hgrown⟩ := h.exists_memory hm
  exact hgrown.trans (h'.memories k m' m'' hm' hm'')

theorem grown_modifyMemory {index : Nat} {f : Memory → Memory}
    (hf : ∀ m, st.memories[index]? = some m → m.Grown (f m)) :
    st.Grown (st.modifyMemory index f) := by
  refine ⟨List.length_modify .., fun k m m' hm hm' => ?_⟩
  simp only [modifyMemory, List.getElem?_modify, hm, Option.map_eq_map, Option.map_some,
    Option.some.injEq] at hm'
  subst hm'
  split
  · subst index
    exact hf m hm
  · exact .refl m

end Storage

instance : OnMemories Storage.Grown := ⟨.of_memories, .trans⟩

theorem allowsWrites_grown : AllowsWrites Storage.Grown := by
  intro st index address start length m source hm hholds hs
  refine Storage.grown_modifyMemory fun m' hm' => ?_
  cases hm.symm.trans hm'
  exact m.grown_overwrite hholds hs

/-- Operators do nothing to memories but let them grow. -/
theorem allows_grown (op : Operator) : Allows Storage.Grown op := by
  refine ⟨fun st index delta m larger hm hgrow => ?_, fun _ => allowsWrites_grown⟩
  refine Storage.grown_modifyMemory fun m' hm' => ?_
  cases hm.symm.trans hm'
  exact Memory.grown_of_grow hgrow

/-! ## Steps -/

section
variable {i : Instance} {sb : Sandbox} {st : Storage} {t : Thread} {s s' : State}

/-- Memory that holds the control block goes on to hold it. -/
theorem Instance.BlockFits.grown (h : i.BlockFits sb.storage) (hgrown : sb.storage.Grown st) :
    i.BlockFits st := by
  unfold Instance.BlockFits Action.memoryHolds at h ⊢
  cases hm : sb.storage.memories[i.blockMemory]? with
  | none => simp [hm] at h
  | some m =>
    rw [hm, Option.any_some] at h
    obtain ⟨m', hm', hlarger⟩ := hgrown.exists_memory hm
    rw [hm', Option.any_some]
    exact decide_eq_true (Nat.le_trans (of_decide_eq_true h) hlarger.larger)

/-- Writing from outside leaves the size. -/
theorem grown_written {address : Nat} {bs : Bytes}
    (h : Action.memoryHolds i.blockMemory address bs.length st = true) :
    st.Grown (i.written st address bs) :=
  Storage.grown_modifyMemory fun m hm => m.grown_write (holds_of_memoryHolds hm h)

theorem grown_unwinding (h : i.BlockFits sb.storage) (cost : Int) :
    sb.storage.Grown (unwinding i sb cost).storage :=
  grown_written ((ControlBlock.length_encode i.controlBlock).symm ▸ h)

/-- Code lets memories grow, also where it traps. -/
theorem grown_stepCode (a : Activation) :
    sb.storage.Grown (stepSandbox (stepCode i sb t a)).storage := by
  unfold stepCode
  split
  · exact .refl _
  · rename_i op code _
    dsimp only
    split
    · exact .refl _
    · exact .refl _
    · have hgrown := (perform_relates (allows_grown op) a.operands a.locals).related sb.storage
      split <;> rename_i hperform <;> rw [hperform] at hgrown <;> exact hgrown

theorem grown_of_not_enters (henter : ¬EntersHook i s.thread) :
    s.sandbox.storage.Grown (stepSandbox (step i s)).storage := by
  obtain ⟨sb, control, frames, depth⟩ := s
  cases control with
  | run a => exact grown_stepCode a
  | give results =>
    simp only [step, stepGive]
    split <;> exact .refl _
  | invoke func args =>
    simp only [step, stepInvoke]
    split
    · exact .refl _
    · exact absurd ⟨func, args, rfl, ‹_›⟩ henter
    · split
      · exact .refl _
      · split <;> exact .refl _
    · split <;> exact .refl _

theorem HookStep.grown {cost : Int} {o : Step} (h : HookStep i sb t cost o) :
    sb.storage.Grown (stepSandbox o).storage := by
  cases h with
  | charged | resuming | noRoom | noControls => exact .refl _
  | pausing _ _ _ fits => exact grown_unwinding fits cost

/-- A step lets memories grow. -/
theorem grown_step (i : Instance) (s : State) :
    s.sandbox.storage.Grown (stepSandbox (step i s)).storage := by
  by_cases henter : EntersHook i s.thread
  · rcases step_of_enters henter with ⟨_, cost, -, -, hstep⟩ | hfailed
    · exact hstep.grown
    · rw [hfailed]
      exact .refl _
  · exact grown_of_not_enters henter

end

/-! ## Filling -/

section
open Linking Machine.Action

/-- The segments that are copied when a storage is filled let memories grow, too. -/
theorem fill_grows (m : Module) : Relates Storage.Grown (fill m) := by
  have hvalue (e : ConstExpr) : Relates Storage.Grown (constValue e) :=
    constValue_relates fun op _ vs => compute_relates (allows_grown op) vs
  refine fill_relates (fun g _ => hvalue g.init)
    (fun e _ => addElement_relates (fun _ _ _ item _ => hvalue item) fun _ offset _ =>
      hvalue offset) fun d _ => ?_
  unfold addData
  split
  · exact .bind (hvalue _) fun _ => .lift_bind fun _ =>
      .bind (allowsWrites_grown.writeMemory ..) fun _ => .bind (.pure _) fun _ => .change fun _ => rfl
  · exact .bind (.pure _) fun _ => .change fun _ => rfl

end

end MeteredWasm.Machine
