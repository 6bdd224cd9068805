import MeteredWasm.Proofs.Agreement.Storage
import MeteredWasm.Sandbox.Linking

/-!
# What actions leave of memories

An action leaves a storage, also where it traps (`Action.storageOf`). It relates the storage that it
starts from to the one that it leaves (`Action.Relates`) if its parts do and the relation goes on
from one part to the next. All that operators do to memories is to add pages and to put bytes in the
place of others. So these two are all that has to be shown of a relation that looks at memories only
(`Allows`), for every operator to relate what it finds to what it leaves (`perform_relates`). The
same goes for the parts of filling a storage (`fill_relates`).
-/

set_option autoImplicit false

namespace MeteredWasm.Machine

open Wasm

/-- A relation that looks at memories only, and goes on from one change of them to the next. -/
class OnMemories (R : Storage → Storage → Prop) : Prop where
  same : ∀ {st st' : Storage}, st'.memories = st.memories → R st st'
  trans : ∀ {st st' st'' : Storage}, R st st' → R st' st'' → R st st''

namespace Action

variable {α β : Type}

/-- The storage that an action leaves. -/
def storageOf : EStateM.Result Trap Storage α → Storage
  | .ok _ st | .error _ st => st

/-- What the first part of an action leaves and the rest of it keeps, the whole leaves. -/
theorem storageOf_bind {P : Storage → Prop} {x : Action α} {k : α → Action β} {st : Storage}
    (hx : P (storageOf (x st))) (hk : ∀ a st₁, P st₁ → P (storageOf (k a st₁))) :
    P (storageOf ((x >>= k) st)) := by
  cases h : x st with
  | ok a st₁ =>
    rw [bind_of_ok h]
    rw [h] at hx
    exact hk a st₁ hx
  | error t st₁ =>
    rw [bind_of_error h]
    rwa [h] at hx

theorem storageOf_find (f : Storage → Option α) (st : Storage) :
    storageOf (Action.find f st) = st := by
  unfold Action.find
  split <;> rfl

theorem storageOf_loadNumber (index address length : Nat) (st : Storage) :
    storageOf (Action.loadNumber index address length st) = st := by
  unfold Action.loadNumber
  split
  · rfl
  · split <;> rfl

/-- The action relates the storage that it starts from to the one that it leaves. -/
structure Relates (R : Storage → Storage → Prop) (x : Action α) : Prop where
  related : ∀ st : Storage, R st (storageOf (x st))

namespace Relates

variable {R : Storage → Storage → Prop} [OnMemories R]

theorem of_same {x : Action α} (h : ∀ st, (storageOf (x st)).memories = st.memories) :
    Relates R x := ⟨fun st => OnMemories.same (h st)⟩

theorem pure (a : α) : Relates R (Pure.pure a : Action α) := .of_same fun _ => rfl

theorem trap (t : Trap) : Relates R (Action.trap t : Action α) := .of_same fun _ => rfl

theorem bind {x : Action α} {k : α → Action β} (hx : Relates R x) (hk : ∀ a, Relates R (k a)) :
    Relates R (x >>= k) :=
  ⟨fun st => storageOf_bind (hx.related st) fun a st₁ hst₁ =>
    OnMemories.trans hst₁ ((hk a).related st₁)⟩

theorem lift (e : Except Trap α) : Relates R (ofExcept e) := by
  cases e with
  | ok a => exact pure a
  | error t => exact trap t

/-- Goes on with what has been read. -/
theorem lift_bind {e : Except Trap α} {k : α → Action β} (hk : ∀ a, Relates R (k a)) :
    Relates R (ofExcept e >>= k) := bind (lift e) hk

/-- Does something and then answers with the operands that are left. -/
theorem leave {x : Action α} (hx : Relates R x) (f : α → β) :
    Relates R (x >>= fun a => Pure.pure (f a)) := bind hx fun a => pure (f a)

theorem find (f : Storage → Option α) : Relates R (Action.find f) :=
  .of_same fun st => congrArg Storage.memories (storageOf_find f st)

theorem change {f : Storage → Storage} (hf : ∀ st, (f st).memories = st.memories) :
    Relates R (modify f) := .of_same hf

theorem changeIf {condition : Storage → Bool} {t : Trap} {f : Storage → Storage}
    (hf : ∀ st, condition st = true → R st (f st)) :
    Relates R (Action.changeIf condition t f) := by
  refine ⟨fun st => ?_⟩
  unfold Action.changeIf
  split
  · exact hf st ‹_›
  · exact OnMemories.same rfl

theorem forM {f : α → Action Unit} {items : List α} (hf : ∀ a ∈ items, Relates R (f a)) :
    Relates R (items.forM f) := by
  induction items with
  | nil => exact .pure _
  | cons item items ih =>
    exact .bind (hf item (List.mem_cons_self ..)) fun _ =>
      ih fun a ha => hf a (List.mem_cons_of_mem _ ha)

theorem mapM {f : α → Action β} {items : List α} (hf : ∀ a ∈ items, Relates R (f a)) :
    Relates R (items.mapM f) := by
  induction items with
  | nil => exact .pure _
  | cons item items ih =>
    rw [List.mapM_cons]
    exact .bind (hf item (List.mem_cons_self ..)) fun _ =>
      .leave (ih fun a ha => hf a (List.mem_cons_of_mem _ ha)) _

/-! ## Ways of touching the storage beside memories -/

theorem loadNumber (index address length : Nat) :
    Relates R (Action.loadNumber index address length) :=
  .of_same fun st => congrArg Storage.memories (storageOf_loadNumber index address length st)

theorem tableGet (index position : Nat) : Relates R (Action.tableGet index position) :=
  bind (find _) fun t => by
    split
    · exact pure _
    · exact trap _

theorem writeTable (index position : Nat) (items : List (Option UInt32)) :
    Relates R (Action.writeTable index position items) :=
  changeIf fun _ _ => OnMemories.same rfl

theorem sliceOr {γ : Type} (t : Trap) (items : List γ) (start length : Nat) :
    Relates R (Action.sliceOr t items start length) := by
  unfold Action.sliceOr
  split
  · exact pure _
  · exact trap _

theorem growTable (index delta : Nat) (item : Option UInt32) :
    Relates R (Action.growTable index delta item) :=
  bind (find _) fun t => by
    dsimp only
    split
    · exact bind (change fun _ => rfl) fun _ => pure _
    · exact pure _

theorem setGlobal (index : Nat) (v : Value) : Relates R (Action.setGlobal index v) :=
  change fun _ => rfl

theorem dropData (index : Nat) : Relates R (Action.dropData index) := change fun _ => rfl

theorem dropElement (index : Nat) : Relates R (Action.dropElement index) := change fun _ => rfl

end Relates

end Action

/-! ## Operators -/

open Machine.Action

/-- Whether the operator may put bytes in the place of others. -/
def mayWrite : Operator → Bool
  | .store _ _ | .memoryInit _ _ | .memoryCopy _ _ | .memoryFill _ | .vectorStore _
  | .storeLane _ _ _ | .atomic _ _ _ => true
  | _ => false

/-- The relation goes along with pages that are added to a memory. -/
def AllowsGrowth (R : Storage → Storage → Prop) : Prop :=
  ∀ (st : Storage) (index delta : Nat) (m larger : Memory), st.memories[index]? = some m →
    m.grow? delta = some larger → R st (st.modifyMemory index fun _ => larger)

/-- The relation goes along with bytes that are put in the place of others. -/
def AllowsWrites (R : Storage → Storage → Prop) : Prop :=
  ∀ (st : Storage) (index address start length : Nat) (m : Memory) (source : ByteArray),
    st.memories[index]? = some m → m.holds address length = true → start + length ≤ source.size →
    R st (st.modifyMemory index (·.overwrite address source start length))

/-- The relation goes along with all that the operator may do to memories. -/
structure Allows (R : Storage → Storage → Prop) (op : Operator) : Prop where
  growth : AllowsGrowth R
  writes : mayWrite op = true → AllowsWrites R

section
variable {R : Storage → Storage → Prop} [OnMemories R] {op : Operator}

theorem AllowsGrowth.growMemory (h : AllowsGrowth R) (index delta : Nat) :
    Relates R (Action.growMemory index delta) := by
  refine ⟨fun st => ?_⟩
  cases hm : st.memories[index]? with
  | none =>
    have hfind : Action.memory index st = .error .unreachable st := find_of_none hm
    rw [Action.growMemory, bind_of_error hfind]
    exact OnMemories.same rfl
  | some m =>
    have hfind : Action.memory index st = .ok m st := find_of_some hm
    rw [Action.growMemory, bind_of_ok hfind]
    cases hgrow : m.grow? delta with
    | none => exact OnMemories.same rfl
    | some larger => exact h st index delta m larger hm hgrow

namespace AllowsWrites

variable (h : AllowsWrites R)
include h

omit [OnMemories R] in
/-- Bytes are put into a memory that holds all of them. -/
theorem overwrite {st : Storage} {index address start length : Nat} {source : ByteArray}
    (hholds : memoryHolds index address length st = true) (hs : start + length ≤ source.size) :
    R st (st.modifyMemory index (·.overwrite address source start length)) := by
  cases hm : st.memories[index]? with
  | none => simp [memoryHolds, hm] at hholds
  | some m => exact h st index address start length m source hm (holds_of_memoryHolds hm hholds) hs

theorem writeMemory (index address : Nat) (bs : Bytes) :
    Relates R (Action.writeMemory index address bs) :=
  .changeIf fun _ hholds => h.overwrite hholds (by simp [ByteArray.size])

theorem storeNumber (index address length n : Nat) :
    Relates R (Action.storeNumber index address length n) := h.writeMemory index address _

/-- What is copied is all there, so that as many bytes are put in as are taken out. -/
theorem copyMemory (target source address start length : Nat) :
    Relates R (Action.copyMemory target source address start length) := by
  refine ⟨fun st => ?_⟩
  cases hm : st.memories[source]? with
  | none =>
    have hfind : Action.memory source st = .error .unreachable st := find_of_none hm
    rw [Action.copyMemory, bind_of_error hfind]
    exact OnMemories.same rfl
  | some from_ =>
    have hfind : Action.memory source st = .ok from_ st := find_of_some hm
    rw [Action.copyMemory, bind_of_ok hfind, Action.changeIf]
    split
    · rename_i hholds
      rw [Bool.and_eq_true] at hholds
      have hsource := holds_of_memoryHolds hm hholds.1
      exact h.overwrite hholds.2 (of_decide_eq_true hsource)
    · exact OnMemories.same rfl

theorem fillMemory (index address length : Nat) (byte : UInt8) :
    Relates R (Action.fillMemory index address length byte) :=
  .changeIf fun _ hholds => h.overwrite hholds (by simp [ByteArray.size])

end AllowsWrites

section
variable (h : Allows R op) (operands : List Value)
include h

theorem computeMemory_relates : Relates R (computeMemory op operands) := by
  unfold computeMemory
  split
  · exact .lift_bind fun _ => .leave (.loadNumber ..) _
  · exact .lift_bind fun _ => .lift_bind fun _ => .leave ((h.writes rfl).storeNumber ..) _
  · exact .leave (.find _) _
  · exact .lift_bind fun _ => .leave (h.growth.growMemory ..) _
  · exact .lift_bind fun _ => .lift_bind fun _ => .lift_bind fun _ => .bind (.find _) fun _ =>
      .bind (.sliceOr ..) fun _ => .leave ((h.writes rfl).writeMemory ..) _
  · exact .leave (.dropData _) _
  · exact .lift_bind fun _ => .lift_bind fun _ => .lift_bind fun _ =>
      .leave ((h.writes rfl).copyMemory ..) _
  · exact .lift_bind fun _ => .lift_bind fun _ => .lift_bind fun _ =>
      .leave ((h.writes rfl).fillMemory ..) _
  · exact .trap _

theorem computeVector_relates : Relates R (computeVector op operands) := by
  unfold computeVector
  split
  · exact .pure _
  · exact .lift_bind fun _ => .leave (.lift _) _
  · exact .lift_bind fun _ => .leave (.loadNumber ..) _
  · exact .lift_bind fun _ => .lift_bind fun _ => .leave ((h.writes rfl).storeNumber ..) _
  · exact .lift_bind fun _ => .lift_bind fun _ => .leave (.loadNumber ..) _
  · exact .lift_bind fun _ => .lift_bind fun _ => .leave ((h.writes rfl).storeNumber ..) _
  · exact .leave (.lift _) _
  · exact .lift_bind fun _ => .leave (.lift _) _
  · exact .lift _
  · exact .trap _

theorem computeAtomic_relates : Relates R (computeAtomic op operands) := by
  unfold computeAtomic
  split
  · exact .pure _
  · exact .lift_bind fun _ => .lift_bind fun _ => .leave (.loadNumber ..) _
  · refine .lift_bind fun _ => .lift_bind fun _ => .lift_bind fun _ => .bind (.loadNumber ..)
      fun _ => .bind (.find _) fun _ => ?_
    split
    · exact .pure _
    · exact .trap _
  · exact .lift_bind fun _ => .leave (.loadNumber ..) _
  · exact .lift_bind fun _ => .lift_bind fun _ => .leave ((h.writes rfl).storeNumber ..) _
  · refine .lift_bind fun _ => .lift_bind fun _ => .lift_bind fun _ => .bind (.loadNumber ..)
      fun _ => ?_
    dsimp only
    split
    · exact .leave ((h.writes rfl).storeNumber ..) _
    · exact .pure _
  · exact .lift_bind fun _ => .lift_bind fun _ => .bind (.loadNumber ..) fun _ =>
      .leave ((h.writes rfl).storeNumber ..) _
  · exact .trap _

omit h in
theorem computeTable_relates : Relates R (computeTable op operands) := by
  unfold computeTable
  split
  · cases operands with
    | nil => exact .trap _
    | cons v vs => exact .leave (.lift _) _
  · exact .lift_bind fun _ => .leave (.tableGet ..) _
  · exact .lift_bind fun _ => .lift_bind fun _ => .leave (.writeTable ..) _
  · exact .lift_bind fun _ => .lift_bind fun _ => .lift_bind fun _ => .bind (.find _) fun _ =>
      .bind (.sliceOr ..) fun _ => .leave (.writeTable ..) _
  · exact .leave (.dropElement _) _
  · exact .lift_bind fun _ => .lift_bind fun _ => .lift_bind fun _ => .bind (.find _) fun _ =>
      .bind (.sliceOr ..) fun _ => .leave (.writeTable ..) _
  · exact .lift_bind fun _ => .lift_bind fun _ => .leave (.growTable ..) _
  · exact .leave (.find _) _
  · refine .lift_bind fun _ => .lift_bind fun _ => .lift_bind fun _ => .bind (.find _) fun _ => ?_
    split
    · exact .trap _
    · exact .leave (.writeTable ..) _
  · exact .pure _
  · exact .pure _
  · exact .trap _

theorem compute_relates : Relates R (compute op operands) := by
  unfold compute
  split
  any_goals exact .pure _
  any_goals exact .trap _
  any_goals exact .leave (.lift _) _
  any_goals exact computeMemory_relates h _
  any_goals exact computeVector_relates h _
  any_goals exact computeAtomic_relates h _
  any_goals exact computeTable_relates _
  · exact .leave (.find _) _
  · exact .leave (.setGlobal ..) _
  · exact .lift _

/-- The operator relates what it finds to what it leaves, if the relation allows for it. -/
theorem perform_relates (locals : List Value) : Relates R (perform op locals operands) := by
  unfold perform
  split
  · split
    · exact .pure _
    · exact .trap _
  · exact .pure _
  · exact .pure _
  · exact .leave (compute_relates h _) _

end

end

/-! ## Filling -/

section
open Linking

variable {R : Storage → Storage → Prop} [OnMemories R]

theorem constValue_relates {e : ConstExpr} (he : ∀ op ∈ e, ∀ vs, Relates R (compute op vs)) :
    Relates R (constValue e) := by
  have hfold (vs : List Value) : Relates R (e.foldlM (fun vs op => compute op vs) vs) := by
    induction e generalizing vs with
    | nil => exact .pure _
    | cons op e ih =>
      rw [List.foldlM_cons]
      exact .bind (he op (List.mem_cons_self ..) vs)
        (ih fun op' hop' => he op' (List.mem_cons_of_mem _ hop'))
  refine .bind (hfold []) fun vs => ?_
  split
  · exact .pure _
  · exact .trap _

/-- An element segment is put into storage without a look at memories, if its expressions have
their values without one. -/
theorem addElement_relates {e : Element}
    (hitems : ∀ type items, e.items = .expressions type items →
      ∀ item ∈ items, Relates R (constValue item))
    (hoffset : ∀ table offset, e.mode = .active table offset → Relates R (constValue offset)) :
    Relates R (addElement e) := by
  obtain ⟨mode, items⟩ := e
  have hrefs : Relates R (elementRefs ⟨mode, items⟩) := by
    cases items with
    | functions indices => exact .pure _
    | expressions type items =>
      exact .mapM fun item hitem => .bind (hitems type items rfl item hitem) fun _ => .lift _
  refine .bind hrefs fun refs => ?_
  cases mode with
  | active table offset =>
    exact .bind (hoffset table offset rfl) fun _ => .lift_bind fun _ =>
      .bind (.writeTable ..) fun _ => .bind (.pure _) fun _ => .change fun _ => rfl
  | passive => exact .bind (.pure _) fun _ => .change fun _ => rfl
  | declared => exact .bind (.pure _) fun _ => .change fun _ => rfl

/-- Filling a storage relates it to what is left of it, if the values of globals and all segments
do. -/
theorem fill_relates {m : Module} (hglobals : ∀ g ∈ m.globals, Relates R (constValue g.init))
    (helements : ∀ e ∈ m.elements, Relates R (addElement e))
    (hdatas : ∀ d ∈ m.datas, Relates R (addData d)) : Relates R (fill m) :=
  .bind (.forM fun g hg => .bind (hglobals g hg) fun _ => .change fun _ => rfl) fun _ =>
    .bind (.forM helements) fun _ => .forM hdatas

end

end MeteredWasm.Machine
