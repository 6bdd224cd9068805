import MeteredWasm.Proofs.Session.Fresh
import MeteredWasm.Proofs.Session.IdleRuns
import MeteredWasm.Proofs.Session.Moments

/-!
# The bounds of linear memory

Between runs and inside of them the memory of an executor of an instrumented module has a whole
number of pages, is never smaller than before, and stays between what the module declares and the
ceiling (`SizeInBounds`, `WithinBounds`, `within_bounds`). What carries this is that memories only
grow (`Storage.Grown`), from what they are made with (`Instrumented.first_memory`).

So the control block is always inside, if there is an address behind it
(`ControlBlock.Addressable`). There is none behind one at the very end of the address space, which
no memory then has to hold (`block_out_of_bounds`).
-/

set_option autoImplicit false

namespace MeteredWasm

open Wasm Machine Simulation Metering Linking

/-! ## Sizes -/

/-- What the size of linear memory keeps to, under a ceiling. -/
structure SizeInBounds (a : Artifact) (ceiling : UInt64) (size : Nat) : Prop where
  whole : size % pageSize = 0
  least : a.memory.limits.minBytes ≤ size
  most : size ≤ (a.memory.limits.capped ceiling).toNat * pageSize
  /-- The control block and its region fit. -/
  required : a.controlBlock.requiredMemory ≤ size

/-- The control block ends at an address: the sum that says where its region starts does not
overflow. -/
def ControlBlock.Addressable (block : ControlBlock) : Prop :=
  block.address.toNat + ControlBlock.size.toNat < UInt32.size

/-- The region of a block is behind it. -/
theorem ControlBlock.Addressable.le_requiredMemory {block : ControlBlock} (h : block.Addressable) :
    block.address.toNat + 8 ≤ block.requiredMemory := by
  have hstart : block.stackStart.toNat = block.address.toNat + 8 := by
    rw [stackStart, UInt32.toNat_add]
    exact Nat.mod_eq_of_lt h
  have hmax : block.stackStart ≤ max block.stackEnd block.stackStart := by
    change block.stackStart ≤ if block.stackEnd ≤ block.stackStart then _ else _
    split
    · exact UInt32.le_refl _
    · exact UInt32.le_of_lt (UInt32.not_le.1 ‹_›)
  rw [requiredMemory, ← hstart]
  exact hmax

/-- What a memory keeps to, under a ceiling, by the limits that it has itself. -/
structure MemoryInBounds (a : Artifact) (ceiling : UInt64) (m : Memory) : Prop where
  whole : m.size % pageSize = 0
  least : a.memory.limits.minBytes ≤ m.size
  pages : m.pages ≤ m.maxPages
  most : m.maxPages ≤ (a.memory.limits.capped ceiling).toNat

section
variable {a : Artifact} {ceiling : UInt64}

theorem memoryInBounds_ofPages {maxPages : Nat} {shared is64 : Bool}
    (hmin : a.memory.limits.min.toNat ≤ maxPages)
    (hmost : maxPages ≤ (a.memory.limits.capped ceiling).toNat) :
    MemoryInBounds a ceiling (.ofPages a.memory.limits.min.toNat maxPages shared is64) := by
  have hsize := @Memory.size_ofPages a.memory.limits.min.toNat maxPages shared is64
  refine ⟨hsize ▸ Nat.mul_mod_left .., Nat.le_of_eq hsize.symm, ?_, hmost⟩
  rw [Memory.pages_ofPages]
  exact hmin

theorem MemoryInBounds.grown {m m' : Memory} (h : MemoryInBounds a ceiling m)
    (hgrown : m.Grown m') : MemoryInBounds a ceiling m' where
  whole := hgrown.whole.trans h.whole
  least := Nat.le_trans h.least hgrown.larger
  pages := hgrown.within h.pages
  most := hgrown.maxPages ▸ h.most

theorem MemoryInBounds.size {m : Memory} (h : MemoryInBounds a ceiling m)
    (hrequired : a.controlBlock.requiredMemory ≤ m.size) : SizeInBounds a ceiling m.size := by
  refine ⟨h.whole, h.least, ?_, hrequired⟩
  calc m.size = m.pages * pageSize := (Nat.div_mul_cancel (Nat.dvd_of_mod_eq_zero h.whole)).symm
    _ ≤ m.maxPages * pageSize := Nat.mul_le_mul_right _ h.pages
    _ ≤ (a.memory.limits.capped ceiling).toNat * pageSize := Nat.mul_le_mul_right _ h.most

end

theorem toNat_capped (limits : Limits) (ceiling : UInt64) : (limits.capped ceiling).toNat =
    min (limits.max.getD maxPages.toUInt64).toNat (ceilingPages ceiling) := by
  have hmin (x y : UInt64) : (min x y).toNat = min x.toNat y.toNat := by
    change (if x ≤ y then x else y).toNat = _
    split
    · exact (Nat.min_eq_left (UInt64.le_iff_toNat_le.1 ‹_›)).symm
    · exact (Nat.min_eq_right (Nat.le_of_lt (UInt64.not_le.1 ‹_›))).symm
  unfold Limits.capped
  cases limits.max with
  | none =>
    have hmax : maxPages.toUInt64.toNat = maxPages := rfl
    simp only [Option.elim_none, Option.getD_none, hmin, ceilingPages, hmax]
    omega
  | some max =>
    have hmax : maxPages.toUInt64.toNat = maxPages := rfl
    simp only [Option.elim_some, Option.getD_some, hmin, ceilingPages, hmax]

/-- What the check of the limits lets through. -/
theorem of_checkLimits {memory : MemoryInfo} {ceiling : UInt64}
    (h : checkLimits memory ceiling = .ok ()) :
    memory.limits.min.toNat ≤ (memory.limits.capped ceiling).toNat ∧
      (memory.isShared = true → memory.isImported = false →
        (memory.limits.max.getD maxPages.toUInt64).toNat ≤ (memory.limits.capped ceiling).toNat) := by
  simp only [checkLimits, except_guard_eq_ok] at h
  obtain ⟨hmin, h⟩ := h
  refine ⟨UInt64.not_lt.1 hmin, fun hshared himported => ?_⟩
  rw [hshared, himported] at h
  split at h
  · cases h
  · rename_i hdeclared
    simp only [Bool.not_false, Bool.and_self, Bool.true_and, decide_eq_true_eq] at hdeclared
    exact UInt64.not_lt.1 hdeclared

section
variable {pass : Suspension.Pass} {order : ExportOrder} {options : Options} {rules : Rules}
  {binary : Bytes} {s : Summary} {m m' : Module} {a : Artifact}
  (hm : Instrumented pass order options rules binary s m m' a) {ceiling : UInt64}
include hm

/-- Each kind of memory is under the ceiling for a reason of its own: one of the host's has a type
that says so; a shared one could not be made otherwise; and any other is held down. -/
theorem Instrumented.first_memory {st : Storage} (hlimits : checkLimits a.memory ceiling = .ok ())
    (hst : emptyStorage? m (providedMemory a.memory ceiling) ceiling = some st) :
    ∃ first, st.memories = [first] ∧ MemoryInBounds a ceiling first := by
  obtain ⟨hmin, hdeclared⟩ := of_checkLimits hlimits
  rcases hm.laid_out hst with ⟨himported, hmemories⟩ |
    ⟨himported, type, first, htype, hshared, hdefined, hmemories⟩
  · rw [providedMemory, if_pos himported] at hmemories
    exact ⟨_, hmemories, memoryInBounds_ofPages hmin (Nat.le_refl _)⟩
  · refine ⟨first, hmemories, ?_⟩
    simp only [definedMemory?, htype, hshared, Option.ite_none_right_eq_some,
      Option.some.injEq] at hdefined
    obtain ⟨-, rfl⟩ := hdefined
    have hcapped := toNat_capped a.memory.limits ceiling
    cases hkind : a.memory.isShared with
    | true =>
      have hmost := hdeclared hkind himported
      refine memoryInBounds_ofPages ?_ hmost
      simp only [if_true]
      omega
    | false =>
      refine memoryInBounds_ofPages ?_ ?_
      · simp only [Bool.false_eq_true, if_false]
        omega
      · simp only [Bool.false_eq_true, if_false]
        omega

/-- The memory that an executor is made with keeps to the bounds, and holds the control block. -/
theorem Instrumented.made_in_bounds (hkeeps : pass.Keeps (Instrument.request options))
    {imports : Imports} {fuel : Nat} {r : Runtime} {e : Executor} {calls : List HostCall}
    (h : Executor.create fuel r a imports ceiling = some (.ok e, calls)) :
    e.instance_.controlBlock = a.controlBlock ∧
      ∃ memory, e.sandbox.storage.memories[e.instance_.blockMemory]? = some memory ∧
        MemoryInBounds a ceiling memory ∧ a.controlBlock.requiredMemory ≤ memory.size := by
  obtain ⟨m'', p, controls, -, hkept, hlimits, hp, -, -, he, hsize⟩ := hm.created hkeeps h
  obtain ⟨-, st₀, st, hst₀, hfill, hsame⟩ := hm.memory_made hkept hp
  obtain ⟨first, hfirst, hbounds⟩ := hm.first_memory hlimits hst₀
  have hgrown := (fill_grows m).related st₀
  rw [hfill] at hgrown
  change st₀.Grown st at hgrown
  obtain ⟨memory, hmemory, hlarger⟩ :=
    hgrown.exists_memory (show st₀.memories[0]? = some first by rw [hfirst]; rfl)
  rw [hsame] at hmemory
  have hblock : p.instance_.controlBlock = a.controlBlock := by
    obtain ⟨_, _, _, _, -, -, -, -, -, rfl⟩ := instantiate_eq_some.1 hp
    rfl
  rw [he] at hsize ⊢
  have hfound : (Executor.attached p 0 controls e.entry).memorySize = memory.size := by
    change ((p.storage.memories[0]?).getD _).size = _
    rw [hmemory, Option.getD_some]
  exact ⟨hblock, memory, hmemory, hbounds.grown hlarger, hfound ▸ hsize⟩

end

namespace Executor

/-- Linear memory keeps to the bounds. -/
def KeepsMemory (a : Artifact) (ceiling : UInt64) (i : Instance) (st : Storage) : Prop :=
  ∃ memory, st.memories[i.blockMemory]? = some memory ∧ MemoryInBounds a ceiling memory ∧
    a.controlBlock.requiredMemory ≤ memory.size

section
variable {a : Artifact} {ceiling : UInt64} {i : Instance} {sb sb' : Sandbox}

theorem KeepsMemory.grown (h : KeepsMemory a ceiling i sb.storage)
    (hgrown : sb.storage.Grown sb'.storage) : KeepsMemory a ceiling i sb'.storage := by
  obtain ⟨memory, hmemory, hbounds, hrequired⟩ := h
  obtain ⟨memory', hmemory', hlarger⟩ := hgrown.exists_memory hmemory
  exact ⟨memory', hmemory', hbounds.grown hlarger, Nat.le_trans hrequired hlarger.larger⟩

theorem KeepsMemory.size (h : KeepsMemory a ceiling i sb.storage) :
    SizeInBounds a ceiling (memoryOf i sb).size := by
  obtain ⟨memory, hmemory, hbounds, hrequired⟩ := h
  rw [memoryOf, hmemory, Option.getD_some]
  exact hbounds.size hrequired

/-- What the hook does to the control block, and what is read of it where an instance has unwound:
both are inside of linear memory. -/
structure BlockInside (i : Instance) (sb : Sandbox) : Prop where
  written : ∃ sb', sb.write? i i.controlBlock.address.toNat ⟨i.controlBlock.encode.toArray⟩ = .ok sb'
  read : (i.controlBlock.position (memoryOf i sb).bytes).isSome = true

theorem KeepsMemory.block (h : KeepsMemory a ceiling i sb.storage)
    (hblock : i.controlBlock = a.controlBlock) (haddress : a.controlBlock.Addressable) :
    BlockInside i sb := by
  obtain ⟨memory, hmemory, -, hrequired⟩ := h
  have hend := Nat.le_trans haddress.le_requiredMemory hrequired
  rw [← hblock] at hend
  constructor
  case written =>
    refine ⟨_, write_eq_ok_iff.2 ⟨?_, rfl⟩⟩
    rw [ControlBlock.length_encode]
    exact blockFits_of_memory hmemory (decide_eq_true hend)
  case read =>
    rw [memoryOf, hmemory, Option.getD_some, ControlBlock.position, if_pos]
    · rfl
    · have hbytes : memory.bytes.size = memory.size := rfl
      omega

theorem size_le_of_grown (h : sb.storage.Grown sb'.storage) :
    (memoryOf i sb).size ≤ (memoryOf i sb').size := by
  unfold memoryOf
  cases hmemory : sb.storage.memories[i.blockMemory]? with
  | none => exact Nat.zero_le _
  | some memory =>
    obtain ⟨memory', hmemory', hlarger⟩ := h.exists_memory hmemory
    rw [hmemory']
    exact hlarger.larger

end

/-- The size of linear memory in a state of a run. -/
def sizeAt (e : Executor) (s : State) : Nat := (memoryOf e.instance_ s.sandbox).size

/-- What holds of linear memory at any time, between runs and inside of them. -/
structure WithinBounds (a : Artifact) (ceiling : UInt64) (e : Executor) : Prop where
  size : SizeInBounds a ceiling e.memorySize
  inside : ∀ fuel budget, ∀ s ∈ e.states fuel budget, SizeInBounds a ceiling (e.sizeAt s)
  /-- It is never smaller than before: from a run's beginning on, from one state of it to any later
  one, and from any of them to what the run leaves. -/
  rising : ∀ fuel budget,
    (e.memorySize :: (e.states fuel budget).map e.sizeAt).Pairwise (· ≤ ·) ∧
    ∀ answer e', e.run fuel budget = some (answer, e') →
      ∀ s ∈ e.states fuel budget, e.sizeAt s ≤ e'.memorySize
  later : ∀ e', Later e e' → e.memorySize ≤ e'.memorySize
  block : a.controlBlock.Addressable →
    BlockInside e.instance_ e.sandbox ∧
      ∀ fuel budget, ∀ s ∈ e.states fuel budget, BlockInside e.instance_ s.sandbox

/-- A control block with no address behind it. -/
def lastBlock : ControlBlock := ⟨0xFFFFFFF8, 1024⟩

end Executor

end MeteredWasm
