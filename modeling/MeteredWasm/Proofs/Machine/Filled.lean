import MeteredWasm.Proofs.Machine.Growth
import MeteredWasm.Proofs.Validation.Declared

/-!
# What instantiation writes to memory

Before a module runs, memory is all zeros (`byte_ofPages`), and the active data segments are copied
into it. Constant expressions, globals and element segments leave memories as they are. So where
every data segment stays off some addresses (`Data.StaysOff`), filling a storage with one memory
spares these addresses, and leaves its size (`fill_spares`).
-/

set_option autoImplicit false

namespace MeteredWasm

/-- If the segment is copied into memory, it goes to an address that stands in the module, and
reaches none of these addresses. -/
def Wasm.Data.StaysOff (spared : Nat → Prop) (d : Data) : Prop :=
  ∀ memory offset, d.mode = .active memory offset → ∃ start : UInt32,
    offset = [.i32Const start] ∧
    ∀ address, spared address → ¬(start.toNat ≤ address ∧ address < start.toNat + d.bytes.length)

namespace Machine

open Wasm

/-! ## Memories -/

namespace Memory

variable {spared : Nat → Prop} {m m' : Memory}

/-- Other bytes, except at addresses that are spared. -/
structure Spared (spared : Nat → Prop) (m m' : Memory) : Prop where
  size : m'.size = m.size
  shared : m'.shared = m.shared
  byte : ∀ address, spared address → m'.byte? address = m.byte? address

theorem Spared.refl (spared : Nat → Prop) (m : Memory) : m.Spared spared m :=
  ⟨rfl, rfl, fun _ _ => rfl⟩

theorem Spared.trans {m'' : Memory} (h : m.Spared spared m') (h' : m'.Spared spared m'') :
    m.Spared spared m'' where
  size := h'.size.trans h.size
  shared := h'.shared.trans h.shared
  byte address hspared := (h'.byte address hspared).trans (h.byte address hspared)

theorem byte_write (m : Memory) {address : Nat} {bs : Bytes} (h : address + bs.length ≤ m.size)
    (k : Nat) : (m.write address bs).byte? k =
      if address ≤ k ∧ k < address + bs.length then bs[k - address]? else m.byte? k := by
  rw [write, m.byte?_overwrite h (by simp [ByteArray.size])]
  simp

theorem spared_write {address : Nat} {bs : Bytes} (hholds : m.holds address bs.length = true)
    (hoff : ∀ k, spared k → ¬(address ≤ k ∧ k < address + bs.length)) :
    m.Spared spared (m.write address bs) where
  size := m.size_write (of_decide_eq_true hholds)
  shared := rfl
  byte k hk := by rw [m.byte_write (of_decide_eq_true hholds), if_neg (hoff k hk)]

theorem byte_appendPages (bytes : ByteArray) (count address : Nat) :
    (appendPages bytes count).data[address]? =
      if address < bytes.size then bytes.data[address]?
      else if address < bytes.size + count * pageSize then some 0 else none := by
  induction count generalizing bytes with
  | zero =>
    have hsize : bytes.data.size = bytes.size := rfl
    rw [appendPages]
    split
    · rfl
    · rw [if_neg (by omega)]
      exact Array.getElem?_eq_none (by omega)
  | succ count ih =>
    have hsize : bytes.data.size = bytes.size := rfl
    have hpage : zeroPage.size = pageSize := by simp [zeroPage, ByteArray.size]
    rw [appendPages, ih, ByteArray.size_append, hpage, ByteArray.data_append, Nat.succ_mul]
    by_cases hold : address < bytes.size
    · rw [if_pos (by omega), if_pos hold, Array.getElem?_append_left (by omega)]
    · rw [if_neg hold]
      by_cases hnew : address < bytes.size + pageSize
      · rw [if_pos hnew, if_pos (by omega), Array.getElem?_append_right (by omega), zeroPage,
          Array.getElem?_replicate, if_pos (by omega)]
      · rw [if_neg hnew]
        congr 1
        simp only [eq_iff_iff]
        omega

/-- A memory starts with zeros. -/
theorem byte_ofPages {count maxPages : Nat} {shared is64 : Bool} {address : Nat}
    (h : address < (ofPages count maxPages shared is64).size) :
    (ofPages count maxPages shared is64).byte? address = some 0 := by
  rw [size_ofPages] at h
  rw [byte?, ofPages, byte_appendPages]
  simp [h]

end Memory

/-! ## Filling -/

/-- If there is one memory, there is one still, and these addresses of it are spared. -/
def Storage.SparesOne (spared : Nat → Prop) (st st' : Storage) : Prop :=
  ∀ m, st.memories = [m] → ∃ m', st'.memories = [m'] ∧ m.Spared spared m'

instance (spared : Nat → Prop) : OnMemories (Storage.SparesOne spared) where
  same h m hm := ⟨m, h.trans hm, .refl spared m⟩
  trans h h' m hm := by
    obtain ⟨m₁, hm₁, hfirst⟩ := h m hm
    obtain ⟨m₂, hm₂, hrest⟩ := h' m₁ hm₁
    exact ⟨m₂, hm₂, hfirst.trans hrest⟩

section
open Machine.Action Linking Validation

variable {spared : Nat → Prop} {c : Context}

/-- What is written elsewhere spares the addresses. -/
theorem writeMemory_spares {index address : Nat} {bs : Bytes}
    (hoff : ∀ k, spared k → ¬(address ≤ k ∧ k < address + bs.length)) :
    Relates (Storage.SparesOne spared) (Action.writeMemory index address bs) := by
  refine .changeIf fun st hholds m hm => ?_
  cases index with
  | zero =>
    have hfirst : st.memories[0]? = some m := by rw [hm]; rfl
    refine ⟨m.write address bs, ?_, Memory.spared_write (holds_of_memoryHolds hfirst hholds) hoff⟩
    change st.memories.modify 0 _ = _
    rw [hm]
    rfl
  | succ index => simp [memoryHolds, hm] at hholds

/-- A constant expression leaves memories as they are. -/
theorem constValue_spares {type : ValType} {e : ConstExpr} (h : constOk c type e = true) :
    Relates (Storage.SparesOne spared) (constValue e) := by
  simp only [constOk, Bool.and_eq_true] at h
  refine constValue_relates fun op hop vs => ?_
  have hconst := List.all_eq_true.1 h.1 op hop
  cases op
  case globalGet => exact .bind (.find _) fun _ => .pure _
  case numeric => exact .lift _
  case i32Const | i64Const | f32Const | f64Const | v128Const | refNull | refFunc => exact .pure _
  all_goals cases hconst

theorem addElement_spares {e : Element} (h : elementOk c e = true) :
    Relates (Storage.SparesOne spared) (addElement e) := by
  obtain ⟨mode, items⟩ := e
  simp only [elementOk, Bool.and_eq_true] at h
  refine addElement_relates (fun type items hitems item hitem => ?_) fun table offset hmode => ?_
  · subst hitems
    simp only [Bool.and_eq_true] at h
    exact constValue_spares (List.all_eq_true.1 h.1.2 item hitem)
  · subst hmode
    simp only [Option.any_eq_true, Bool.and_eq_true] at h
    obtain ⟨-, type, -, -, hoffset⟩ := h
    exact constValue_spares hoffset

/-- Copying a segment to an address that stands in the module. -/
theorem addData_active (memory start : UInt32) (bytes : Bytes) :
    addData ⟨.active memory [.i32Const start], bytes⟩ = (do
      Action.writeMemory memory.toNat start.toNat bytes
      modify fun st => { st with datas := st.datas ++ [[]] }) := rfl

theorem addData_spares {d : Data} (h : d.StaysOff spared) :
    Relates (Storage.SparesOne spared) (addData d) := by
  obtain ⟨mode, bytes⟩ := d
  cases mode with
  | active memory offset =>
    obtain ⟨start, rfl, hoff⟩ := h memory offset rfl
    rw [addData_active]
    exact .bind (writeMemory_spares hoff) fun _ => .change fun _ => rfl
  | passive => exact .bind (.pure _) fun _ => .change fun _ => rfl

/-- Filling storage spares what all data segments stay off. -/
theorem fill_spares {m : Module} (hm : Declarations c m)
    (hdatas : ∀ d ∈ m.datas, d.StaysOff spared) : Relates (Storage.SparesOne spared) (fill m) := by
  have hglobals := List.all_eq_true.1 hm.globals
  simp only [Bool.and_eq_true] at hglobals
  exact fill_relates (fun g hg => constValue_spares (hglobals g hg).2)
    (fun e he => addElement_spares (List.all_eq_true.1 hm.elements e he))
    fun d hd => addData_spares (hdatas d hd)

end

end Machine

end MeteredWasm
