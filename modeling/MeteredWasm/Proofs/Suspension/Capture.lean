import MeteredWasm.Proofs.Machine.Glide
import MeteredWasm.Proofs.Suspension.Kept
import MeteredWasm.Sandbox.Executor

/-!
# What a stack-capture pass promises

An instance of what a pass has made runs beside an instance of what the pass was handed, which is
called plain here. From one call of the hook to the next they do the same (`Pairing.Tracks`). At a
call of the hook the former can give up its stack: it returns to the host, and all that there is
to know of the stack is in the reserved range of memory. When it is told to rewind and its entry is
called, it comes to the same call of the hook again, and runs nothing on the way that could be
noticed.

How it does so is the pass's own affair: what the two have to do with each other in between are
relations that a pass may choose (`Pairing`), and what is asked of it are the laws for them
(`Pairing.Captures`). Where native stack is short, an instance may fail at any time; and it may fail
while it unwinds.
-/

set_option autoImplicit false

namespace MeteredWasm

open Wasm Machine Linking

/-! ## Storage -/

/-- The bytes of the control block and those of the stack region. -/
def Machine.Instance.reserved (i : Instance) : Nat → Nat → Prop := fun memory address =>
  memory = i.blockMemory ∧
    (i.controlBlock.address.toNat ≤ address ∧ address < i.controlBlock.address.toNat + 8 ∨
      i.controlBlock.stackStart.toNat ≤ address ∧ address < i.controlBlock.stackEnd.toNat)

/-- They are the range that the control block reserves, if the block ends below the last address. -/
theorem Machine.Instance.reserved_iff {i : Instance} {address : Nat}
    (h : i.controlBlock.address.toNat + 8 < 0x100000000) :
    i.reserved i.blockMemory address ↔ i.controlBlock.Reserves address := by
  have hstart : i.controlBlock.stackStart.toNat = i.controlBlock.address.toNat + 8 := by
    rw [ControlBlock.stackStart, UInt32.toNat_add]
    exact Nat.mod_eq_of_lt h
  have hmax : i.controlBlock.requiredMemory =
      max (i.controlBlock.address.toNat + 8) i.controlBlock.stackEnd.toNat := by
    change (if i.controlBlock.stackEnd ≤ i.controlBlock.stackStart then i.controlBlock.stackStart
      else i.controlBlock.stackEnd).toNat = _
    rw [← hstart]
    split
    · rename_i hle
      exact (Nat.max_eq_left (UInt32.le_iff_toNat_le.1 hle)).symm
    · rename_i hlt
      exact (Nat.max_eq_right (Nat.le_of_lt (UInt32.not_le.1 hlt))).symm
  simp only [Instance.reserved, ControlBlock.Reserves, hmax, hstart, true_and]
  omega

namespace Suspension

/-- Memories that are the same but for hidden bytes. -/
structure SameMemories (hidden : Nat → Nat → Prop) (memories memories' : List Memory) : Prop where
  count : memories'.length = memories.length
  each : ∀ (k : Nat) (m m' : Memory), memories[k]? = some m → memories'[k]? = some m' →
    m.Agrees (hidden k) m'

theorem SameMemories.refl (hidden : Nat → Nat → Prop) (memories : List Memory) :
    SameMemories hidden memories memories where
  count := rfl
  each k m m' hm hm' := by
    obtain rfl := Option.some.inj (hm.symm.trans hm')
    exact .refl _ m

theorem SameMemories.single {hidden : Nat → Nat → Prop} {m m' : Memory}
    (h : m.Agrees (hidden 0) m') : SameMemories hidden [m] [m'] where
  count := (List.length_singleton ..).trans (List.length_singleton ..).symm
  each k m₁ m₁' hm₁ hm₁' := by
    cases k with
    | zero =>
      obtain rfl := Option.some.inj hm₁
      obtain rfl := Option.some.inj hm₁'
      exact h
    | succ k => cases hm₁

/-- Storages that are the same but for memory and for two globals. -/
structure SameBeside (own : Nat × Nat) (st st' : Storage) : Prop where
  tables : st'.tables = st.tables
  globals : ∀ k, k ≠ own.1 → k ≠ own.2 → st'.globals[k]? = st.globals[k]?
  elements : st'.elements = st.elements
  datas : st'.datas = st.datas

/-! ## The two instances -/

/-- How an instance stands to the plain one that runs beside it. The threads that the relations are
about are those that the hook comes back to. -/
structure Pairing where
  /-- What the functions of the plain instance are called. -/
  func : UInt32 → UInt32
  /-- Nothing runs. -/
  ready : Storage → Storage → Prop
  /-- Both threads run. -/
  running : Storage → Thread → Storage → Thread → Prop
  /-- The stack has been given up, -/
  unwound : Storage → Thread → Storage → Prop
  /-- and the instance has been told that it is. -/
  held : Storage → Thread → Storage → Prop
  /-- The stack is about to be built up again, -/
  rewinding : Storage → Thread → Storage → Prop
  /-- and is there, but the instance has not been told. -/
  rebuilt : Storage → Thread → Storage → Thread → Prop

namespace Pairing

variable (C : Pairing) (i i' : Instance)

/-- Neither instance is paused, and the same host functions have been called. -/
structure Abreast (sb sb' : Sandbox) : Prop where
  plain : sb.paused = false
  captured : sb'.paused = false
  calls : sb'.calls = sb.calls.map (HostCall.mapFunc C.func)

/-- Both machines glide no further, for the same reason. -/
inductive Meets : State → State → Prop
  | hook {sb sb' : Sandbox} {func func' : UInt32} {cost : BitVec 32}
      {frames frames' : List Machine.Frame} {depth depth' : Nat} (plain : i.function? func = some .hook)
      (captured : i'.function? func' = some .hook) (abreast : C.Abreast sb sb')
      (running : C.running sb.storage ⟨.give [], frames, depth⟩ sb'.storage
        ⟨.give [], frames', depth'⟩) :
      Meets ⟨sb, ⟨.invoke func [.i32 cost], frames, depth⟩⟩
        ⟨sb', ⟨.invoke func' [.i32 cost], frames', depth'⟩⟩
  | finished {s s' : State} {results results' : List Value} {sb sb' : Sandbox}
      (plain : step i s = .finished results sb) (captured : step i' s' = .finished results' sb')
      (abreast : C.Abreast sb sb') (ready : C.ready sb.storage sb'.storage) : Meets s s'
  | failed {s s' : State} {error : ExecutionError} {sb sb' : Sandbox}
      (beside : ¬EntersHook i s.thread) (beside' : ¬EntersHook i' s'.thread)
      (plain : step i s = .failed error sb) (captured : step i' s' = .failed error sb')
      (calls : sb'.calls = sb.calls.map (HostCall.mapFunc C.func)) : Meets s s'

/-- What the machine at `s'` glides to belongs to what the plain one glides to from `s`, which has
as much room as it needs. -/
structure Tracks (s s' : State) : Prop where
  halts : ∀ n s₁, Glides (i.deep n) s s₁ → Stops (i.deep n) s₁ →
    ∃ s₁', Glides i' s' s₁' ∧ Halts i' s₁'
  meets : ∀ s₁', Glides i' s' s₁' → Stops i' s₁' →
    ∃ n s₁, Glides (i.deep n) s s₁ ∧ Stops (i.deep n) s₁ ∧ C.Meets (i.deep n) i' s₁ s₁'

section
variable {C i i'}

/-- Where both machines halt, they have tracked each other up to there. -/
theorem tracks_of_meets {n : Nat} {s s₁ s' s₁' : State} (h : Glides (i.deep n) s s₁)
    (hs : Stops (i.deep n) s₁) (h' : Glides i' s' s₁') (hs' : Halts i' s₁')
    (hmeets : Exhausts i' s₁' ∨ C.Meets (i.deep n) i' s₁ s₁') : C.Tracks i i' s s' where
  halts _ _ _ _ := ⟨s₁', h', hs'⟩
  meets s₂' hglides hstops := by
    obtain rfl := hglides.unique hstops.halts h' hs'
    exact ⟨n, s₁, h, hs, hmeets.resolve_left hstops.roomy⟩

end

/-- The instance `i'` does as `i` does, and can have its stack captured on the way. Its entry is
called `entry'`, and that of `i` is `entry`. The globals `own` are there for the capture. -/
structure Captures (own : Nat × Nat) (controls : Controls) (entry entry' : UInt32) : Prop where
  /-- Memory is the same. -/
  shows : ∀ {st st' : Storage}, C.ready st st' → st'.memories = st.memories
  /-- What else there is does not depend on memory. -/
  settled : ∀ {st st' st₁' : Storage} {memories : List Memory}, C.ready st st' →
    C.ready { st with memories } st₁' → SameBeside own st' st₁'
  /-- All that is captured is in memory: another instance can take it over, -/
  moves : ∀ {st : Storage} {t : Thread} {st' st₀ st₀' : Storage}, C.held st t st' →
    C.ready st₀ st₀' → st₀'.tables = st'.tables →
    C.held { st₀ with memories := st.memories } t { st₀' with memories := st'.memories }
  /-- and goes on as it was where nothing else is different. -/
  restores : ∀ {st : Storage} {t : Thread} {st' st₀ st₀' : Storage}, C.held st t st' →
    C.ready st₀ st₀' → SameBeside own st₀' st' →
    C.held st t { st₀' with memories := st'.memories }
  /-- The entry does what it does. -/
  enters : ∀ {sb sb' : Sandbox}, C.ready sb.storage sb'.storage → C.Abreast sb sb' →
    C.Tracks i i' ⟨sb, .call entry []⟩ ⟨sb', .call entry' []⟩
  /-- So does what comes behind a call of the hook. -/
  goesOn : ∀ {sb sb' : Sandbox} {t t' : Thread}, C.running sb.storage t sb'.storage t' →
    C.Abreast sb sb' → C.Tracks i i' ⟨sb, t⟩ ⟨sb', t'⟩
  /-- Told to unwind in the hook, the instance gives up its stack. -/
  startsUnwind : ∀ {st : Storage} {t : Thread} {sb sb' : Sandbox} {t' : Thread},
    C.running st t sb.storage t' → sb.paused = false →
    sb.write? i' i'.controlBlock.address.toNat ⟨i'.controlBlock.encode.toArray⟩ = .ok sb' →
    let s : State := ⟨sb'.tell (.startUnwind i'.controlBlock.address),
      ⟨.invoke controls.startUnwind [.ofWord i'.controlBlock.address],
        .hook .pausing :: t'.frames, t'.depth + 1⟩⟩
    Breaks i' s ∨ ∃ st', ComesBack i' s { s.sandbox with storage := st', paused := true } ∧
      C.unwound st t st'
  /-- Told to stop, it stops, and has only written where it may if the stack fits. -/
  stopsUnwind : ∀ {st : Storage} {t : Thread} {sb : Sandbox}, C.unwound st t sb.storage →
    sb.paused = true → ¬i'.controlBlock.stackEnd < Executor.position i' sb →
    Breaks i' ⟨sb, .call controls.stopUnwind []⟩ ∨
      ∃ st', ComesBack i' ⟨sb, .call controls.stopUnwind []⟩ { sb with storage := st' } ∧
        C.held { st with memories := st'.memories } t st' ∧
        SameMemories i'.reserved st.memories st'.memories
  /-- It can be told to rewind. -/
  startsRewind : ∀ {st : Storage} {t : Thread} {sb : Sandbox}, C.held st t sb.storage →
    sb.paused = true →
    let s : State := ⟨sb, .call controls.startRewind [.ofWord i'.controlBlock.address]⟩
    RunsOut i' s ∨ ∃ st', ComesBack i' s { sb with storage := st' } ∧ C.rewinding st t st'
  /-- The entry comes to the hook then. -/
  reenters : ∀ {st : Storage} {t : Thread} {sb : Sandbox}, C.rewinding st t sb.storage →
    sb.paused = true →
    RunsOut i' ⟨sb, .call entry' []⟩ ∨ ∃ st' func cost frames depth,
      Glides i' ⟨sb, .call entry' []⟩
        ⟨{ sb with storage := st' }, ⟨.invoke func [.i32 cost], frames, depth⟩⟩ ∧
      i'.function? func = some .hook ∧ C.rebuilt st t st' ⟨.give [], frames, depth⟩
  /-- Told to stop rewinding in the hook, the instance goes on there. -/
  stopsRewind : ∀ {st : Storage} {t : Thread} {sb : Sandbox} {t' : Thread},
    C.rebuilt st t sb.storage t' → sb.paused = true →
    let s : State := ⟨sb, ⟨.invoke controls.stopRewind [],
      .hook .resuming :: t'.frames, t'.depth + 1⟩⟩
    RunsOut i' s ∨ ∃ st', Glides i' s ⟨{ sb with storage := st', paused := false }, t'⟩ ∧
      C.running { st with memories := st'.memories } t st' t' ∧
      SameMemories i'.reserved st.memories st'.memories

end Pairing

/-! ## The contract -/

/-- Instances of `m'` that have one memory do as instances of `m` do, and can have their stacks
captured where the control block is this one. The globals `own` are there for that. How much room
the machines have that they run on makes no difference. -/
def Captured (m m' : Module) (block : ControlBlock) (own : Nat × Nat) : Prop :=
  ∀ (a : Artifact) (imports : Imports) (ceiling : UInt64) (relaxed : RelaxedResults)
    (controls : Controls) (name : String) (entry entry' : UInt32), a.controlBlock = block →
    imports.Opaque → exportedFunc? m name = some entry → exportedFunc? m' name = some entry' →
    ∃ C : Pairing, ∀ (depth depth' : Nat) (p p' : Prepared),
      instantiate? a imports ceiling ⟨depth, relaxed⟩ m = some p →
      instantiate? a imports ceiling ⟨depth', relaxed⟩ m' = some p' →
      p'.storage.memories.length = 1 → findControls p' = .ok controls →
      requireType p'.instance_ name entry' ⟨[], []⟩ = .ok () →
      C.Captures p.instance_ { p'.instance_ with controls := some controls } own controls entry
        entry' ∧ C.ready p.storage p'.storage

/-- Whatever a pass makes of a module can have its stack captured, if it can be run at all. Where
the globals are that the pass has added is what `own` says of a binary. -/
def Pass.Captures (pass : Pass) (request : Request) (block : ControlBlock)
    (own : Bytes → Nat × Nat) : Prop :=
  ∀ binary m wasm m', Module.decode? .full binary = some m → pass request binary = .ok wasm →
    Validation.validate? .engine wasm = some m' → Captured m m' block (own wasm)

/-- What is true of one module is true of all, if a pass refuses the others. -/
theorem Pass.captures_only {pass : Pass} {request : Request} {binary wasm : Bytes} {m m' : Module}
    {block : ControlBlock} {own : Bytes → Nat × Nat} (hdecode : Module.decode? .full binary = some m)
    (hpass : pass request binary = .ok wasm) (hvalid : Validation.validate? .engine wasm = some m')
    (hcaptured : Captured m m' block (own wasm)) :
    (pass.only binary).Captures request block own := by
  intro given m₁ wasm₁ m₂ hdecode₁ hpass₁ hvalid₁
  obtain ⟨rfl, rfl, rfl⟩ := Pass.eq_of_only hdecode hpass hvalid hdecode₁ hpass₁ hvalid₁
  exact hcaptured

end Suspension

end MeteredWasm
