import MeteredWasm.Proofs.Validation.Declared
import MeteredWasm.Wasm.Module.MapFunc

/-!
# The names in a valid module

Whatever function or type a valid module names is one of its own (`Named`, `named_of_validate`).
So renaming functions that it does not have leaves the module as it is.
-/

set_option autoImplicit false

namespace MeteredWasm.Wasm

/-- Only functions in front of `n` are named in an expression. -/
def ConstExpr.Below (n : Nat) (e : ConstExpr) : Prop :=
  ∀ op ∈ e, ∀ func ∈ op.func?, func.toNat < n

def ElementItems.Below (n : Nat) : ElementItems → Prop
  | .functions indices => ∀ func ∈ indices, func.toNat < n
  | .expressions _ items => ∀ item ∈ items, ConstExpr.Below n item

/-- The functions and types that a module names are its own. -/
structure Named (m : Module) : Prop where
  types : m.types.length ≤ Validation.maxItems
  funcs : m.funcTypes.length ≤ Validation.maxItems
  paired : m.bodies.length = m.functions.length
  /-- Every function has a type. -/
  typed : ∀ index ∈ m.funcTypes, index.toNat < m.types.length
  code : ∀ body ∈ m.bodies, ∀ op ∈ body.code,
    (∀ func ∈ op.func?, func.toNat < m.funcTypes.length) ∧
      (∀ type ∈ op.typeIndex?, type.toNat < m.types.length)
  globals : ∀ g ∈ m.globals, ConstExpr.Below m.funcTypes.length g.init
  items : ∀ e ∈ m.elements, e.items.Below m.funcTypes.length
  elementOffsets : ∀ e ∈ m.elements, ∀ table offset, e.mode = .active table offset →
    ConstExpr.Below m.funcTypes.length offset
  dataOffsets : ∀ d ∈ m.datas, ∀ memory offset, d.mode = .active memory offset →
    ConstExpr.Below m.funcTypes.length offset
  exports : ∀ e ∈ m.exports, e.kind = .func → e.index.toNat < m.funcTypes.length

namespace Validation

section
variable {features : Features} {m : Module} {c : Context}

theorem func_lt (hc : Context.of? features m = some c) {func : UInt32}
    (h : (c.func? func).isSome) : func.toNat < m.funcTypes.length := by
  obtain ⟨type, htype⟩ := Option.isSome_iff_exists.1 h
  rw [← (sizes_of_context hc).1]
  exact (Array.getElem?_eq_some_iff.1 htype).1

theorem type_lt (hc : Context.of? features m = some c) {index : UInt32}
    (h : (c.type? index).isSome) : index.toNat < m.types.length := by
  obtain ⟨type, htype⟩ := Option.isSome_iff_exists.1 h
  rw [← (sizes_of_context hc).2]
  exact (Array.getElem?_eq_some_iff.1 htype).1

theorem typed_of_context (hc : Context.of? features m = some c) :
    ∀ index ∈ m.funcTypes, index.toNat < m.types.length := by
  obtain ⟨funcs, hf, -⟩ := context_eq_some_iff.1 hc
  generalize m.funcTypes = indices at hf ⊢
  induction indices generalizing funcs with
  | nil => simp
  | cons index indices ih =>
    simp only [List.mapM_cons, Option.pure_def, Option.bind_eq_bind, Option.bind_eq_some_iff,
      Option.some.injEq] at hf
    obtain ⟨type, htype, rest, hrest, -⟩ := hf
    intro k hk
    rcases List.mem_cons.1 hk with rfl | hk
    · obtain ⟨hlt, -⟩ := List.getElem?_eq_some_iff.1 htype
      simpa using hlt
    · exact ih rest hrest k hk

theorem constOk_below (hc : Context.of? features m = some c) {type : ValType} {e : ConstExpr}
    (h : constOk c type e = true) : ConstExpr.Below m.funcTypes.length e := by
  intro op hop func hfunc
  simp only [constOk, Bool.and_eq_true] at h
  have hconst := List.all_eq_true.1 h.1 op hop
  cases op <;> simp only [Operator.func?, Option.mem_def, reduceCtorEq, Option.some.injEq] at hfunc
  case call => cases hconst
  case returnCall => cases hconst
  case refFunc =>
    subst hfunc
    exact func_lt hc hconst

theorem named_of_validate {binary : Bytes} (h : validate? features binary = some m) : Named m := by
  obtain ⟨hdecode, hok⟩ := validate_eq_some h
  obtain ⟨c, hc, hd, hbodies⟩ := context_of_moduleOk hok
  have hd := declarations_of_ok hd
  have hpaired := length_bodies hdecode
  refine ⟨hd.lengths.1, hd.lengths.2, hpaired, typed_of_context hc, fun body hb op hop => ?_,
    fun g hg => ?_, fun e he => ?_, fun e he table offset hmode => ?_,
    fun d hd' memory offset hmode => ?_, fun e he hkind => ?_⟩
  · obtain ⟨type, hbody⟩ := bodyOk_of_mem hc hbodies hpaired hb
    have hdeclares := bodyOk_declares hbody op hop
    exact ⟨fun func hf => func_lt hc (hdeclares.func func hf),
      fun type ht => type_lt hc (hdeclares.type type ht)⟩
  · have hg := List.all_eq_true.1 hd.globals g hg
    simp only [Bool.and_eq_true] at hg
    exact constOk_below hc hg.2
  · have he := List.all_eq_true.1 hd.elements e he
    simp only [elementOk, Bool.and_eq_true] at he
    cases hitems : e.items with
    | functions indices =>
      rw [hitems] at he
      exact fun func hf => func_lt hc (List.all_eq_true.1 he.1 func hf)
    | expressions type items =>
      rw [hitems] at he
      simp only [Bool.and_eq_true] at he
      exact fun item hi => constOk_below hc (List.all_eq_true.1 he.1.2 item hi)
  · have he := List.all_eq_true.1 hd.elements e he
    simp only [elementOk, hmode, Bool.and_eq_true, Option.any_eq_true] at he
    obtain ⟨-, type, -, -, hoffset⟩ := he
    exact constOk_below hc hoffset
  · have hd := List.all_eq_true.1 hd.datas d hd'
    simp only [dataOffsetOk, hmode, Option.any_eq_true] at hd
    obtain ⟨address, -, hoffset⟩ := hd
    exact constOk_below hc hoffset
  · have he := List.all_eq_true.1 hd.exports e he
    simp only [exportOk, hkind] at he
    exact func_lt hc he

end

end Validation

/-! ## Renaming what is not there -/

theorem Operator.mapFunc_congr {f g : UInt32 → UInt32} {op : Operator}
    (h : ∀ func ∈ op.func?, f func = g func) : op.mapFunc f = op.mapFunc g := by
  cases op <;> first | rfl | rw [Operator.mapFunc, Operator.mapFunc, h _ rfl]

section
variable {n : Nat} {g : UInt32 → UInt32} (hg : ∀ func : UInt32, func.toNat < n → g func = func)
include hg

theorem Operator.mapFunc_of_below {op : Operator} (h : ∀ func ∈ op.func?, func.toNat < n) :
    op.mapFunc g = op :=
  (Operator.mapFunc_congr (g := id) fun func hf => hg func (h func hf)).trans
    (Operator.mapFunc_id op)

theorem ConstExpr.mapFunc_of_below {e : ConstExpr} (h : e.Below n) : ConstExpr.mapFunc g e = e :=
  (List.map_congr_left fun op hop => Operator.mapFunc_of_below hg (h op hop)).trans (List.map_id _)

end

section
variable {m : Module} (h : Named m) {g : UInt32 → UInt32}
  (hg : ∀ func : UInt32, func.toNat < m.funcTypes.length → g func = func)
include h hg

theorem Named.globals_mapFunc : m.globals.map (Global.mapFunc g) = m.globals := by
  refine (List.map_congr_left fun x hx => ?_).trans (List.map_id _)
  obtain ⟨type, init⟩ := x
  exact congrArg (Global.mk type) (ConstExpr.mapFunc_of_below hg (h.globals _ hx))

theorem Named.elements_mapFunc : m.elements.map (Element.mapFunc g) = m.elements := by
  refine (List.map_congr_left fun x hx => ?_).trans (List.map_id _)
  obtain ⟨mode, items⟩ := x
  have hmode : mode.mapFunc g = mode := by
    cases mode with
    | active table offset =>
      exact congrArg (ElementMode.active table)
        (ConstExpr.mapFunc_of_below hg (h.elementOffsets _ hx table offset rfl))
    | _ => rfl
  have hitems : items.mapFunc g = items := by
    have hbelow := h.items _ hx
    cases items with
    | functions indices =>
      exact congrArg ElementItems.functions
        ((List.map_congr_left fun func hf => hg func (hbelow func hf)).trans (List.map_id _))
    | expressions type items =>
      refine congrArg (ElementItems.expressions type) ?_
      exact (List.map_congr_left fun item hi =>
        ConstExpr.mapFunc_of_below hg (hbelow item hi)).trans (List.map_id _)
  simp only [Element.mapFunc, hmode, hitems, id]

theorem Named.datas_mapFunc : m.datas.map (Data.mapFunc g) = m.datas := by
  refine (List.map_congr_left fun x hx => ?_).trans (List.map_id _)
  obtain ⟨mode, bytes⟩ := x
  cases mode with
  | active memory offset =>
    simp only [Data.mapFunc, DataMode.mapFunc,
      ConstExpr.mapFunc_of_below hg (h.dataOffsets _ hx memory offset rfl), id]
  | passive => rfl

end

end MeteredWasm.Wasm
