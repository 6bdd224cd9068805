import MeteredWasm.Machine.Storage
import MeteredWasm.Proofs.Agreement.Memory
import MeteredWasm.Proofs.Agreement.Value

/-!
# Storages that agree

`Storage.Agrees g hidden st st'`: `st'` is `st` with functions renamed by `g`, but for hidden bytes
of memory. Two actions, one on each storage, end alike (`Alike`) if both trap with the same trap
or both succeed with related results, and leave storages that agree. Actions that only read find
the same (`Finds`): they leave both storages as they are, so that several in a row see the same.

There is one lemma for each way of touching the storage. Those that read memory take the access to
spare the hidden bytes.
-/

set_option autoImplicit false

namespace MeteredWasm.Machine

open Wasm

/-! ## Storages -/

def RefTable.mapFunc (g : UInt32 → UInt32) (t : RefTable) : RefTable :=
  { t with items := t.items.map (Option.map g) }

/-- The storages are the same but for the names of functions and for hidden bytes, which are given
by memory and address. -/
structure Storage.Agrees (g : UInt32 → UInt32) (hidden : Nat → Nat → Prop) (st st' : Storage) :
    Prop where
  memoryCount : st'.memories.length = st.memories.length
  memories : ∀ (i : Nat) (m m' : Memory), st.memories[i]? = some m → st'.memories[i]? = some m' →
    m.Agrees (hidden i) m'
  tables : st'.tables = st.tables.map (RefTable.mapFunc g)
  globals : st'.globals = st.globals.map (Value.mapFunc g)
  elements : st'.elements = st.elements.map (List.map (Option.map g))
  datas : st'.datas = st.datas

/-- No byte is hidden. -/
def nothing : Nat → Nat → Prop := fun _ _ => False

/-- Renames all functions that the storage refers to. -/
def Storage.mapFunc (g : UInt32 → UInt32) (st : Storage) : Storage where
  memories := st.memories
  tables := st.tables.map (RefTable.mapFunc g)
  globals := st.globals.map (Value.mapFunc g)
  elements := st.elements.map (List.map (Option.map g))
  datas := st.datas

/-- With nothing hidden, agreement leaves no choice. -/
theorem Storage.agrees_nothing_iff {g : UInt32 → UInt32} {st st' : Storage} :
    st.Agrees g nothing st' ↔ st' = st.mapFunc g := by
  constructor
  · intro h
    have hmemories : st'.memories = st.memories := by
      refine List.ext_getElem? fun i => ?_
      cases hm : st.memories[i]? with
      | none => rw [List.getElem?_eq_none (h.memoryCount ▸ List.getElem?_eq_none_iff.1 hm)]
      | some m =>
        obtain ⟨hlt, -⟩ := List.getElem?_eq_some_iff.1 hm
        have hm' := List.getElem?_eq_getElem (l := st'.memories) (h.memoryCount.symm ▸ hlt)
        rw [hm', (h.memories i m _ hm hm').eq]
    obtain ⟨memories, tables, globals, elements, datas⟩ := st'
    simp only at hmemories
    rw [Storage.mapFunc, hmemories, ← h.tables, ← h.globals, ← h.elements, ← h.datas]
  · rintro rfl
    refine ⟨rfl, fun i m m' hm hm' => ?_, rfl, rfl, rfl, rfl⟩
    rw [show m' = m from Option.some.inj (hm'.symm.trans hm)]
    exact .refl _ m

/-! ## Actions -/

section
variable {α β γ δ : Type}

theorem bind_of_ok {x : Action α} {k : α → Action β} {st st₁ : Storage} {a : α}
    (h : x st = .ok a st₁) : (x >>= k) st = k a st₁ := by
  change EStateM.bind x k st = _
  unfold EStateM.bind
  rw [h]

theorem bind_of_error {x : Action α} {k : α → Action β} {st st₁ : Storage} {t : Trap}
    (h : x st = .error t st₁) : (x >>= k) st = .error t st₁ := by
  change EStateM.bind x k st = _
  unfold EStateM.bind
  rw [h]

theorem find_of_some {part : Storage → Option α} {st : Storage} {a : α} (h : part st = some a) :
    Action.find part st = .ok a st := by
  rw [Action.find, h]

theorem find_of_none {part : Storage → Option α} {st : Storage} (h : part st = none) :
    Action.find part st = .error .unreachable st := by
  rw [Action.find, h]

/-- Two actions have ended alike. -/
inductive Alike (R : Storage → Storage → Prop) (S : α → β → Prop) :
    EStateM.Result Trap Storage α → EStateM.Result Trap Storage β → Prop
  | ok {a : α} {b : β} {st st' : Storage} (h : S a b) (hst : R st st') :
      Alike R S (.ok a st) (.ok b st')
  | trap {t : Trap} {st st' : Storage} (hst : R st st') : Alike R S (.error t st) (.error t st')

/-- Two actions find the same and leave the storages as they are. -/
inductive Finds (S : α → β → Prop) (st st' : Storage) (x : Action α) (y : Action β) : Prop
  | ok (a : α) (b : β) (hx : x st = .ok a st) (hy : y st' = .ok b st') (h : S a b)
  | trap (t : Trap) (hx : x st = .error t st) (hy : y st' = .error t st')

theorem Finds.alike {R : Storage → Storage → Prop} {S : α → β → Prop} {st st' : Storage}
    {x : Action α} {y : Action β} (hst : R st st') (h : Finds S st st' x y) :
    Alike R S (x st) (y st') := by
  cases h with
  | ok a b hx hy h => rw [hx, hy]; exact .ok h hst
  | trap t hx hy => rw [hx, hy]; exact .trap hst

theorem Finds.bind {S : α → β → Prop} {Q : γ → δ → Prop} {st st' : Storage} {x : Action α}
    {y : Action β} {k : α → Action γ} {k' : β → Action δ} (h : Finds S st st' x y)
    (hk : ∀ a b, S a b → Finds Q st st' (k a) (k' b)) :
    Finds Q st st' (x >>= k) (y >>= k') := by
  cases h with
  | ok a b hx hy h =>
    cases hk a b h with
    | ok c d hc hd h' =>
      exact .ok c d ((bind_of_ok hx).trans hc) ((bind_of_ok hy).trans hd) h'
    | trap t hc hd => exact .trap t ((bind_of_ok hx).trans hc) ((bind_of_ok hy).trans hd)
  | trap t hx hy => exact .trap t (bind_of_error hx) (bind_of_error hy)

/-- Goes on with an action that may write. -/
theorem Finds.andThen {R : Storage → Storage → Prop} {S : α → β → Prop} {Q : γ → δ → Prop}
    {st st' : Storage} {x : Action α} {y : Action β} {k : α → Action γ} {k' : β → Action δ}
    (hst : R st st') (h : Finds S st st' x y)
    (hk : ∀ a b, S a b → Alike R Q (k a st) (k' b st')) :
    Alike R Q ((x >>= k) st) ((y >>= k') st') := by
  cases h with
  | ok a b hx hy h =>
    rw [bind_of_ok hx, bind_of_ok hy]
    exact hk a b h
  | trap t hx hy =>
    rw [bind_of_error hx, bind_of_error hy]
    exact .trap hst

theorem Alike.bind {R : Storage → Storage → Prop} {S : α → β → Prop} {Q : γ → δ → Prop}
    {st st' : Storage} {x : Action α} {y : Action β} {k : α → Action γ} {k' : β → Action δ}
    (h : Alike R S (x st) (y st'))
    (hk : ∀ a b st₁ st₁', S a b → R st₁ st₁' → Alike R Q (k a st₁) (k' b st₁')) :
    Alike R Q ((x >>= k) st) ((y >>= k') st') := by
  cases hx : x st <;> cases hy : y st' <;> rw [hx, hy] at h <;> cases h
  · rw [bind_of_ok hx, bind_of_ok hy]
    exact hk _ _ _ _ ‹_› ‹_›
  · rw [bind_of_error hx, bind_of_error hy]
    exact .trap ‹_›

theorem Finds.pure {S : α → β → Prop} {st st' : Storage} {a : α} {b : β} (h : S a b) :
    Finds S st st' (Pure.pure a) (Pure.pure b) := .ok a b rfl rfl h

theorem Finds.stop {S : α → β → Prop} {st st' : Storage} (t : Trap) :
    Finds S st st' (Action.trap t) (Action.trap t) := .trap t rfl rfl

/-- A computation without storage that does not depend on the names of functions. -/
theorem Finds.same {st st' : Storage} (e : Except Trap α) :
    Finds (fun a b => b = a ∧ e = .ok a) st st' (Action.ofExcept e) (Action.ofExcept e) := by
  cases e with
  | ok a => exact .ok a a rfl rfl ⟨rfl, rfl⟩
  | error t => exact .trap t rfl rfl

/-- A computation without storage. -/
theorem Finds.mapped {st st' : Storage} (f : α → β) (e : Except Trap α) :
    Finds (fun a b => b = f a) st st' (Action.ofExcept e) (Action.ofExcept (f <$> e)) := by
  cases e with
  | ok a => exact .ok a (f a) rfl rfl rfl
  | error t => exact .trap t rfl rfl

/-- Actions that start with the same computation without storage go on with the same value. -/
theorem Alike.ofExcept {R : Storage → Storage → Prop} {Q : γ → δ → Prop} {st st' : Storage}
    {k : α → Action γ} {k' : α → Action δ} (hst : R st st') (e : Except Trap α)
    (hk : ∀ a, e = .ok a → Alike R Q (k a st) (k' a st')) :
    Alike R Q ((Action.ofExcept e >>= k) st) ((Action.ofExcept e >>= k') st') := by
  refine (Finds.same e).andThen hst ?_
  rintro _ a ⟨rfl, ha⟩
  exact hk a ha

end

/-! ## Ways of touching the storage -/

/-- Whether an access to a memory leaves hidden bytes alone. -/
def Storage.Spares (hidden : Nat → Nat → Prop) (st : Storage) (memory address length : Nat) :
    Prop :=
  ∀ m, st.memories[memory]? = some m → m.Spares (hidden memory) address length

/-- A part of the storage that is renamed by `f`. -/
theorem Finds.find {α β : Type} {st st' : Storage} {part : Storage → Option α}
    {part' : Storage → Option β} {f : α → β}
    (hf : part' st' = (part st).map f) :
    Finds (fun a b => b = f a) st st' (Action.find part) (Action.find part') := by
  cases hp : part st with
  | none => exact .trap .unreachable (find_of_none hp) (find_of_none (by rw [hf, hp]; rfl))
  | some a => exact .ok a (f a) (find_of_some hp) (find_of_some (by rw [hf, hp]; rfl)) rfl

section
variable {g : UInt32 → UInt32} {hidden : Nat → Nat → Prop} {st st' : Storage}
  (h : st.Agrees g hidden st')
include h

namespace Storage.Agrees

/-- Both storages have a memory of this index, or neither has. -/
theorem memory_cases (i : Nat) :
    (st.memories[i]? = none ∧ st'.memories[i]? = none) ∨
      ∃ m m', st.memories[i]? = some m ∧ st'.memories[i]? = some m' ∧ m.Agrees (hidden i) m' := by
  cases hm : st.memories[i]? with
  | none =>
    have hlen := List.getElem?_eq_none_iff.1 hm
    exact .inl ⟨rfl, List.getElem?_eq_none (h.memoryCount ▸ hlen)⟩
  | some m =>
    have hlt := (List.getElem?_eq_some_iff.1 hm).1
    have hlt' : i < st'.memories.length := h.memoryCount ▸ hlt
    have hm' := List.getElem?_eq_getElem hlt'
    exact .inr ⟨m, _, rfl, hm', h.memories i m _ hm hm'⟩

theorem modifyMemory {i : Nat} {f f' : Memory → Memory}
    (hf : ∀ m m', st.memories[i]? = some m → st'.memories[i]? = some m' →
      m.Agrees (hidden i) m' → (f m).Agrees (hidden i) (f' m')) :
    (st.modifyMemory i f).Agrees g hidden (st'.modifyMemory i f') where
  memoryCount := by simp [Storage.modifyMemory, h.memoryCount]
  memories k m m' hm hm' := by
    simp only [Storage.modifyMemory, List.getElem?_modify] at hm hm'
    rcases h.memory_cases k with ⟨hn, -⟩ | ⟨m₀, m₀', hm₀, hm₀', hagree⟩
    · rw [hn] at hm
      cases hm
    · rw [hm₀] at hm
      rw [hm₀'] at hm'
      by_cases hk : i = k
      · subst hk
        simp only [if_true, Option.map_eq_map, Option.map_some, Option.some.injEq] at hm hm'
        subst hm hm'
        exact hf m₀ m₀' hm₀ hm₀' hagree
      · simp only [hk, if_false, Option.map_eq_map, Option.map_some, Option.some.injEq] at hm hm'
        subst hm hm'
        exact hagree
  tables := h.tables
  globals := h.globals
  elements := h.elements
  datas := h.datas

/-- A change of one table that goes along with renaming. -/
theorem modifyTable {i : Nat} {f f' : RefTable → RefTable}
    (hf : ∀ t, f' (t.mapFunc g) = (f t).mapFunc g) :
    (st.modifyTable i f).Agrees g hidden (st'.modifyTable i f') := by
  refine { h with tables := ?_ }
  simp only [Storage.modifyTable, h.tables]
  apply List.ext_getElem?
  intro k
  simp only [List.getElem?_modify, List.getElem?_map, Option.map_eq_map, Option.map_map]
  congr 1
  funext t
  split
  · exact hf t
  · rfl

end Storage.Agrees

namespace Finds

theorem memory (i : Nat) : Finds (fun m m' => m.Agrees (hidden i) m' ∧
    st.memories[i]? = some m ∧ st'.memories[i]? = some m') st st'
      (Action.memory i) (Action.memory i) := by
  rcases h.memory_cases i with ⟨hm, hm'⟩ | ⟨m, m', hm, hm', hagree⟩
  · exact .trap .unreachable (find_of_none hm) (find_of_none hm')
  · exact .ok m m' (find_of_some hm) (find_of_some hm') ⟨hagree, hm, hm'⟩

theorem loadNumber {i address length : Nat} (hs : st.Spares hidden i address length) :
    Finds (fun n n' => n' = n) st st' (Action.loadNumber i address length)
      (Action.loadNumber i address length) := by
  rcases h.memory_cases i with ⟨hm, hm'⟩ | ⟨m, m', hm, hm', hagree⟩
  · exact .trap .unreachable (by simp [Action.loadNumber, hm]) (by simp [Action.loadNumber, hm'])
  · have hload := hagree.load (hs m hm)
    cases hl : m.load address length with
    | ok n =>
      exact .ok n n (by simp [Action.loadNumber, hm, hl])
        (by simp [Action.loadNumber, hm', hload, hl]) rfl
    | error t =>
      exact .trap t (by simp [Action.loadNumber, hm, hl])
        (by simp [Action.loadNumber, hm', hload, hl])

theorem table (i : Nat) : Finds (fun t t' => t' = t.mapFunc g) st st'
    (Action.table i) (Action.table i) := find (by simp [h.tables])

theorem element (i : Nat) : Finds (fun refs refs' => refs' = refs.map (Option.map g)) st st'
    (Action.element i) (Action.element i) := find (by simp [h.elements])

theorem data (i : Nat) : Finds (fun bs bs' => bs' = bs) st st' (Action.data i) (Action.data i) :=
  find (f := id) (by simp [h.datas])

theorem global (i : Nat) : Finds (fun v v' => v' = v.mapFunc g) st st'
    (Action.global i) (Action.global i) := find (by simp [h.globals])

theorem tableGet (i position : Nat) : Finds (fun r r' => r' = r.map g) st st'
    (Action.tableGet i position) (Action.tableGet i position) := by
  refine (table h i).bind ?_
  rintro t _ rfl
  simp only [RefTable.mapFunc, Array.getElem?_map]
  cases t.items[position]? with
  | none => exact .stop _
  | some item => exact .pure rfl

end Finds

end

theorem Finds.slice {α β : Type} {st st' : Storage} (t : Trap) (f : α → β) (items : List α)
    (start length : Nat) : Finds (fun part part' => part' = part.map f) st st'
      (Action.sliceOr t items start length) (Action.sliceOr t (items.map f) start length) := by
  simp only [Action.sliceOr, Action.slice?, List.length_map]
  split
  · rename_i part hpart
    simp only [Option.ite_none_right_eq_some, Option.some.injEq] at hpart
    obtain ⟨hle, rfl⟩ := hpart
    rw [if_pos hle]
    exact .pure (by simp)
  · rename_i hnone
    rw [if_neg (by simpa using hnone)]
    exact .stop t

/-! ## Ways of changing the storage -/

section
variable {g : UInt32 → UInt32} {hidden : Nat → Nat → Prop} {st st' : Storage}

theorem holds_of_memoryHolds {i address length : Nat} {m : Memory}
    (hm : st.memories[i]? = some m) (hh : Action.memoryHolds i address length st = true) :
    m.holds address length = true := by
  simpa [Action.memoryHolds, hm] using hh

/-- Both storages are changed, or neither is. -/
theorem alike_changeIf {condition condition' : Storage → Bool} {t : Trap}
    {f f' : Storage → Storage} (h : st.Agrees g hidden st') (hc : condition' st' = condition st)
    (hf : condition st = true → (f st).Agrees g hidden (f' st')) :
    Alike (Storage.Agrees g hidden) (fun _ _ => True) (Action.changeIf condition t f st)
      (Action.changeIf condition' t f' st') := by
  unfold Action.changeIf
  rw [hc]
  split
  · exact .ok trivial (hf ‹_›)
  · exact .trap h

theorem alike_modify {f f' : Storage → Storage} (hf : (f st).Agrees g hidden (f' st')) :
    Alike (Storage.Agrees g hidden) (fun _ _ => True) ((modify f : Action PUnit) st)
      ((modify f' : Action PUnit) st') := .ok trivial hf

variable (h : st.Agrees g hidden st')
include h

theorem memoryHolds_eq (i address length : Nat) :
    Action.memoryHolds i address length st' = Action.memoryHolds i address length st := by
  unfold Action.memoryHolds
  rcases h.memory_cases i with ⟨hm, hm'⟩ | ⟨m, m', hm, hm', hagree⟩
  · rw [hm, hm']
  · simp [hm, hm', hagree.holds]

namespace Alike

theorem writeMemory (i address : Nat) (bs : Bytes) :
    Alike (Storage.Agrees g hidden) (fun _ _ => True) (Action.writeMemory i address bs st)
      (Action.writeMemory i address bs st') :=
  alike_changeIf h (memoryHolds_eq h i address bs.length) fun hh =>
    h.modifyMemory fun _ _ hm _ hagree => hagree.write (holds_of_memoryHolds hm hh)

theorem storeNumber (i address length n : Nat) :
    Alike (Storage.Agrees g hidden) (fun _ _ => True) (Action.storeNumber i address length n st)
      (Action.storeNumber i address length n st') := writeMemory h i address _

theorem fillMemory (i address length : Nat) (byte : UInt8) :
    Alike (Storage.Agrees g hidden) (fun _ _ => True) (Action.fillMemory i address length byte st)
      (Action.fillMemory i address length byte st') :=
  alike_changeIf h (memoryHolds_eq h i address length) fun hh =>
    h.modifyMemory fun _ _ hm _ hagree =>
      hagree.overwrite (holds_of_memoryHolds hm hh) (by simp [ByteArray.size])
        (by simp [ByteArray.size]) fun _ _ _ => rfl

theorem copyMemory {target source address start length : Nat}
    (hs : st.Spares hidden source start length) :
    Alike (Storage.Agrees g hidden) (fun _ _ => True)
      (Action.copyMemory target source address start length st)
      (Action.copyMemory target source address start length st') := by
  refine (Finds.memory h source).andThen h ?_
  rintro from_ from_' ⟨hfrom, hm, hm'⟩
  refine alike_changeIf h (by simp only [memoryHolds_eq h]) fun hh => ?_
  simp only [Bool.and_eq_true] at hh
  have hsource : from_.holds start length = true := holds_of_memoryHolds hm hh.1
  have hsource' : from_'.holds start length = true := (hfrom.holds start length).trans hsource
  exact h.modifyMemory fun m m' hmem _ hagree =>
    hagree.overwrite (holds_of_memoryHolds hmem hh.2) (of_decide_eq_true hsource)
      (of_decide_eq_true hsource') fun k h1 h2 =>
        hfrom.byte k (hs from_ hm hsource k h1 h2)

theorem growMemory (i delta : Nat) :
    Alike (Storage.Agrees g hidden) (fun v v' => v' = v.mapFunc g)
      (Action.growMemory i delta st) (Action.growMemory i delta st') := by
  refine (Finds.memory h i).andThen h ?_
  rintro m m' ⟨hagree, hm, hm'⟩
  simp only
  rcases hagree.grow delta with ⟨hn, hn'⟩ | ⟨larger, larger', hl, hl', hlarger⟩
  · rw [hn, hn', hagree.is64]
    exact .ok (Value.mapFunc_noIndex g m.is64).symm h
  · rw [hl, hl', hagree.pages, hagree.is64]
    exact (alike_modify (h.modifyMemory fun _ _ _ _ _ => hlarger)).bind fun _ _ _ _ _ hst =>
      .ok (Value.mapFunc_ofIndex g m.is64 m.pages).symm hst

theorem writeTable (i position : Nat) (items : List (Option UInt32)) :
    Alike (Storage.Agrees g hidden) (fun _ _ => True) (Action.writeTable i position items st)
      (Action.writeTable i position (items.map (Option.map g)) st') := by
  refine alike_changeIf h ?_ fun _ => h.modifyTable fun t => ?_
  · simp [h.tables, RefTable.mapFunc, Option.any_map]
  · simp [RefTable.mapFunc, Array.map_append, Array.map_extract]

theorem growTable (i delta : Nat) (item : Option UInt32) :
    Alike (Storage.Agrees g hidden) (fun v v' => v' = v.mapFunc g)
      (Action.growTable i delta item st) (Action.growTable i delta (item.map g) st') := by
  refine (Finds.table h i).andThen h ?_
  rintro t _ rfl
  simp only [RefTable.mapFunc, Array.size_map]
  split
  · refine (alike_modify (h.modifyTable fun t => ?_)).bind fun _ _ _ _ _ hst =>
      .ok (Value.mapFunc_ofIndex g t.is64 t.items.size).symm hst
    simp [RefTable.mapFunc, Array.map_append]
  · exact .ok (Value.mapFunc_noIndex g t.is64).symm h

theorem setGlobal (i : Nat) (v : Value) :
    Alike (Storage.Agrees g hidden) (fun _ _ => True) (Action.setGlobal i v st)
      (Action.setGlobal i (v.mapFunc g) st') :=
  alike_modify { h with globals := by simp [h.globals, List.map_set] }

theorem dropData (i : Nat) :
    Alike (Storage.Agrees g hidden) (fun _ _ => True) (Action.dropData i st)
      (Action.dropData i st') :=
  alike_modify { h with datas := by simp [h.datas] }

theorem dropElement (i : Nat) :
    Alike (Storage.Agrees g hidden) (fun _ _ => True) (Action.dropElement i st)
      (Action.dropElement i st') :=
  alike_modify { h with elements := by simp [h.elements, List.map_set] }

end Alike

end

end MeteredWasm.Machine
