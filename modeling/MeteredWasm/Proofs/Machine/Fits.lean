import MeteredWasm.Proofs.Machine.Filled
import MeteredWasm.Proofs.Validation.Constant

/-!
# Segments that fit are copied

Where no global is imported, a valid constant expression has a value, and an offset is the number
that stands in the module. So nothing but a segment that reaches past the end of its memory or table
keeps a storage from being filled: if every active segment fits (`SegmentsFit`), the globals and the
segments of a valid module are put into a storage of its shape without a trap (`fill_completes`).
-/

set_option autoImplicit false

namespace MeteredWasm

namespace Wasm

/-- How many items a segment has. -/
def ElementItems.length : ElementItems → Nat
  | .functions indices => indices.length
  | .expressions _ items => items.length

/-- A data segment that is copied to a constant address ends inside of its memory. -/
def Data.Fits (memories : List MemoryType) (d : Data) : Prop :=
  ∀ memory start type, d.mode = .active memory [.i32Const start] →
    memories[memory.toNat]? = some type →
      start.toNat + d.bytes.length ≤ type.limits.minBytes

/-- An element segment that is copied to a constant position ends inside of its table. -/
def Element.Fits (tables : List TableType) (e : Element) : Prop :=
  ∀ table start type, e.mode = .active table [.i32Const start] →
    tables[(table.getD 0).toNat]? = some type →
      start.toNat + e.items.length ≤ type.limits.min.toNat

/-- All segments of the module are in bounds. -/
structure SegmentsFit (m : Module) : Prop where
  datas : ∀ d ∈ m.datas, d.Fits m.memoryTypes
  elements : ∀ e ∈ m.elements, e.Fits m.tableTypes

end Wasm

namespace Machine

open Wasm

/-! ## Actions that come to an end -/

namespace Action

variable {α β : Type} {P : Storage → Prop}

/-- Where `P` holds, the action has an answer of which `Q` holds, and `P` holds still. -/
structure Completes (P : Storage → Prop) (Q : α → Prop) (x : Action α) : Prop where
  completed : ∀ st, P st → ∃ a st', x st = .ok a st' ∧ Q a ∧ P st'

namespace Completes

variable {Q : α → Prop} {R : β → Prop}

theorem pure {a : α} (ha : Q a) : Completes P Q (Pure.pure a : Action α) :=
  ⟨fun st hst => ⟨a, st, rfl, ha, hst⟩⟩

theorem bind {x : Action α} {k : α → Action β} (hx : Completes P Q x)
    (hk : ∀ a, Q a → Completes P R (k a)) : Completes P R (x >>= k) := by
  refine ⟨fun st hst => ?_⟩
  obtain ⟨a, st₁, hfirst, ha, hst₁⟩ := hx.completed st hst
  obtain ⟨b, st₂, hrest, hb, hst₂⟩ := (hk a ha).completed st₁ hst₁
  exact ⟨b, st₂, (bind_of_ok hfirst).trans hrest, hb, hst₂⟩

theorem modify {f : Storage → Storage} (hf : ∀ st, P st → P (f st)) :
    Completes P (fun _ => True) (modify f : Action PUnit) :=
  ⟨fun st hst => ⟨⟨⟩, f st, rfl, trivial, hf st hst⟩⟩

theorem changeIf {condition : Storage → Bool} {t : Trap} {f : Storage → Storage}
    (hcondition : ∀ st, P st → condition st = true) (hf : ∀ st, P st → P (f st)) :
    Completes P (fun _ => True) (Action.changeIf condition t f) :=
  ⟨fun st hst => ⟨(), f st, if_pos (hcondition st hst), trivial, hf st hst⟩⟩

theorem forM {γ : Type} {f : γ → Action Unit} {items : List γ}
    (hf : ∀ a ∈ items, Completes P (fun _ => True) (f a)) :
    Completes P (fun _ => True) (items.forM f) := by
  induction items with
  | nil => exact .pure trivial
  | cons item items ih =>
    exact .bind (hf item (List.mem_cons_self ..)) fun _ _ =>
      ih fun a ha => hf a (List.mem_cons_of_mem _ ha)

theorem mapM {γ : Type} {f : γ → Action α} {items : List γ}
    (hf : ∀ a ∈ items, Completes P (fun _ => True) (f a)) :
    Completes P (fun answers : List α => answers.length = items.length) (items.mapM f) := by
  induction items with
  | nil => exact .pure rfl
  | cons item items ih =>
    rw [List.mapM_cons]
    refine .bind (hf item (List.mem_cons_self ..)) fun _ _ =>
      .bind (ih fun a ha => hf a (List.mem_cons_of_mem _ ha)) fun answers hlength =>
        .pure ?_
    rw [List.length_cons, List.length_cons, hlength]

end Completes

end Action

/-! ## Constant expressions -/

open Machine.Action Linking Validation

section
variable {P : Storage → Prop} {c : Context} (hplain : c.features.extendedConst = false)
  (hglobals : c.importedGlobals = 0)
include hplain hglobals

theorem constValue_completes {type : ValType} {e : ConstExpr} (h : constOk c type e = true) :
    Completes P (fun _ => True) (constValue e) := by
  obtain ⟨op, _, rfl, hop, -⟩ := const_single hplain h
  cases op
  case i32Const | i64Const | f32Const | f64Const | v128Const | refNull | refFunc =>
    exact ⟨fun st hst => ⟨_, st, rfl, trivial, hst⟩⟩
  case globalGet => simp [constOperator, hglobals] at hop
  case numeric op => cases op <;> simp [constOperator, hplain] at hop
  all_goals cases hop

/-- A constant expression of a type of references has a reference. -/
theorem constReference_completes {type : RefType} {e : ConstExpr}
    (h : constOk c (.ref type) e = true) :
    Completes P (fun _ => True) (do (← constValue e).reference : Action (Option UInt32)) := by
  obtain ⟨op, _, rfl, hop, hsignature⟩ := const_single hplain h
  cases op
  case refNull | refFunc => exact ⟨fun st hst => ⟨_, st, rfl, trivial, hst⟩⟩
  case globalGet => simp [constOperator, hglobals] at hop
  case numeric op => cases op <;> simp [constOperator, hplain] at hop
  case i32Const | i64Const | f32Const | f64Const | v128Const => cases hsignature
  all_goals cases hop

theorem elementRefs_completes {e : Element} (h : elementOk c e = true) :
    Completes P (fun refs : List (Option UInt32) => refs.length = e.items.length)
      (elementRefs e) := by
  obtain ⟨mode, items⟩ := e
  cases items with
  | functions indices => exact .pure (List.length_map some)
  | expressions type items =>
    simp only [elementOk, Bool.and_eq_true] at h
    exact .mapM fun item hi =>
      constReference_completes hplain hglobals (List.all_eq_true.1 h.1.2 item hi)

end

/-! ## Filling -/

/-- One memory of this size, and tables of the sizes that they start with. -/
structure Shaped (type : MemoryType) (tables : List TableType) (st : Storage) : Prop where
  memory : ∃ memory, st.memories = [memory] ∧ memory.size = type.limits.minBytes
  tables : st.tables.map (·.items.size) = tables.map (·.limits.min.toNat)

section
variable {type : MemoryType} {tables : List TableType} {c : Context}

theorem writeMemory_completes {address : Nat} {bs : Bytes}
    (hfits : address + bs.length ≤ type.limits.minBytes) :
    Completes (Shaped type tables) (fun _ => True) (Action.writeMemory 0 address bs) := by
  refine .changeIf (fun st hst => ?_) fun st hst => ?_
  · obtain ⟨memory, hmemory, hsize⟩ := hst.memory
    simp only [memoryHolds, hmemory, List.getElem?_cons_zero, Option.any_some, Memory.holds, hsize,
      decide_eq_true_eq]
    exact hfits
  · obtain ⟨memory, hmemory, hsize⟩ := hst.memory
    refine ⟨⟨memory.write address bs, ?_, ?_⟩, hst.tables⟩
    · change st.memories.modify 0 _ = _
      rw [hmemory]
      rfl
    · rw [memory.size_write (hsize ▸ hfits), hsize]

theorem writeTable_completes {index position : Nat} {refs : List (Option UInt32)}
    {tableType : TableType} (hindex : tables[index]? = some tableType)
    (hfits : position + refs.length ≤ tableType.limits.min.toNat) :
    Completes (Shaped type tables) (fun _ => True) (Action.writeTable index position refs) := by
  have hsized {st : Storage} (hst : Shaped type tables st) :
      ∃ t, st.tables[index]? = some t ∧ t.items.size = tableType.limits.min.toNat := by
    have hsame := congrArg (·[index]?) hst.tables
    simp only [List.getElem?_map, hindex, Option.map_some, Option.map_eq_some_iff] at hsame
    exact hsame
  refine .changeIf (fun st hst => ?_) fun st hst => ⟨hst.memory, ?_⟩
  · obtain ⟨t, ht, hsize⟩ := hsized hst
    simp only [ht, Option.any_some, hsize, decide_eq_true_eq]
    exact hfits
  · obtain ⟨t, ht, hsize⟩ := hsized hst
    rw [← hst.tables]
    refine List.ext_getElem? fun k => ?_
    change ((st.tables.modify index _).map _)[k]? = _
    rw [List.getElem?_map, List.getElem?_map, List.getElem?_modify]
    by_cases hk : index = k
    · subst hk
      simp only [ht, if_true, Option.map_some, Option.map_eq_map, Option.some.injEq]
      simp only [Array.size_append, Array.size_extract, List.size_toArray]
      omega
    · simp [hk]

/-- Copying a segment to a position that stands in the module. -/
theorem addElement_active (table : Option UInt32) (start : UInt32) (items : ElementItems) :
    addElement ⟨.active table [.i32Const start], items⟩ = (do
      let refs ← elementRefs ⟨.active table [.i32Const start], items⟩
      Action.writeTable (table.getD 0).toNat start.toNat refs
      modify fun st => { st with elements := st.elements ++ [[]] }) := rfl

section
variable (hplain : c.features.extendedConst = false) (hglobals : c.importedGlobals = 0)
include hplain hglobals

theorem addGlobal_completes {g : Global} (h : constOk c g.type.content g.init = true) :
    Completes (Shaped type tables) (fun _ => True) (addGlobal g) :=
  .bind (constValue_completes hplain hglobals h) fun _ _ =>
    .modify fun _ hst => ⟨hst.memory, hst.tables⟩

theorem addElement_completes (htables : c.tables = tables.toArray)
    (hnarrow : ∀ found ∈ tables, found.is64 = false) {e : Element} (h : elementOk c e = true) (hfits : e.Fits tables) :
    Completes (Shaped type tables) (fun _ => True) (addElement e) := by
  have hrefs := elementRefs_completes (P := Shaped type tables) hplain hglobals h
  obtain ⟨mode, items⟩ := e
  cases mode with
  | passive | declared =>
    exact .bind hrefs fun _ _ => .bind (.pure (Q := fun _ => True) trivial) fun _ _ =>
      .modify fun _ hst => ⟨hst.memory, hst.tables⟩
  | active table offset =>
    simp only [elementOk, Bool.and_eq_true, Option.any_eq_true] at h
    obtain ⟨-, found, htype, -, hoffset⟩ := h
    rw [Context.table?, htables, List.getElem?_toArray] at htype
    rw [hnarrow found (List.mem_of_getElem? htype)] at hoffset
    obtain ⟨start, rfl⟩ := offset_of_const hplain hglobals hoffset
    rw [addElement_active]
    refine .bind hrefs fun refs hlength => .bind (writeTable_completes htype ?_) fun _ _ =>
      .modify fun _ hst => ⟨hst.memory, hst.tables⟩
    rw [hlength]
    exact hfits table start found rfl htype

theorem addData_completes (hmemories : c.memories = [type].toArray) (hnarrow : type.is64 = false)
    {d : Data} (h : dataOffsetOk c d = true) (hfits : d.Fits [type]) :
    Completes (Shaped type tables) (fun _ => True) (addData d) := by
  obtain ⟨mode, bytes⟩ := d
  cases mode with
  | passive =>
    exact .bind (.pure (Q := fun _ => True) trivial) fun _ _ =>
      .modify fun _ hst => ⟨hst.memory, hst.tables⟩
  | active memory offset =>
    simp only [dataOffsetOk, Option.any_eq_true] at h
    obtain ⟨address, haddress, hoffset⟩ := h
    obtain ⟨found, hfound, rfl⟩ := Option.map_eq_some_iff.1 haddress
    rw [Context.memory?, hmemories, List.getElem?_toArray] at hfound
    obtain ⟨hzero, rfl⟩ : memory.toNat = 0 ∧ type = found := by
      simpa [List.getElem?_singleton] using hfound
    rw [hnarrow] at hoffset
    obtain ⟨start, rfl⟩ := offset_of_const hplain hglobals hoffset
    have hend := hfits memory start type rfl hfound
    rw [addData_active, hzero]
    exact .bind (writeMemory_completes hend) fun _ _ =>
      .modify fun _ hst => ⟨hst.memory, hst.tables⟩

end

/-- A module with one memory and no imported global puts all into storage that has its shape, if its
segments fit. -/
theorem fill_completes {features : Features} {m : Module} (hplain : features.extendedConst = false)
    (hnarrow : features.memory64 = false) (hc : Context.of? features m = some c)
    (hd : Declarations c m)
    (hmemories : m.memoryTypes = [type]) (hglobals : m.importedGlobals = [])
    (hfits : SegmentsFit m) :
    Completes (Shaped type m.tableTypes) (fun _ => True) (fill m) := by
  obtain ⟨hfeatures, hcount⟩ := const_of_context hc
  have hplain : c.features.extendedConst = false := by rw [hfeatures, hplain]
  have hwidths := hd.narrow (by rw [hfeatures, hnarrow])
  have hzero : c.importedGlobals = 0 := by rw [hcount, hglobals, List.length_nil]
  have hinits := List.all_eq_true.1 hd.globals
  simp only [Bool.and_eq_true] at hinits
  refine .bind (.forM fun g hg => addGlobal_completes hplain hzero (hinits g hg).2) fun _ _ =>
    .bind (.forM fun e he => ?_) fun _ _ => .forM fun d hdata => ?_
  · exact addElement_completes hplain hzero (tables_of_context hc) hwidths.1
      (List.all_eq_true.1 hd.elements e he) (hfits.elements e he)
  · exact addData_completes hplain hzero (hmemories ▸ memories_of_context hc)
      (hwidths.2 type (hmemories ▸ List.mem_singleton_self type))
      (List.all_eq_true.1 hd.datas d hdata) (hmemories ▸ hfits.datas d hdata)

end

end Machine

end MeteredWasm
