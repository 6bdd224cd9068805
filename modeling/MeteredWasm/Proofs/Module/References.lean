import MeteredWasm.Proofs.Module.Summary
import MeteredWasm.Wasm.Module.MapFunc

/-!
# The functions that a module refers to

Every place of a module where a function index stands, item by item (`funcs`), and what the indices
denote: the imported functions first, then the defined ones (`Module.funcDecls`). Replacing the
functions of an item replaces them in these lists, one by one and in order. The names that a name
section gives to functions and locals are references as well.
-/

set_option autoImplicit false

namespace MeteredWasm.Wasm

/-! ## References -/

def ConstExpr.funcs (e : ConstExpr) : List UInt32 := e.filterMap Operator.func?

def Table.funcs (t : Table) : List UInt32 := t.init.toList.flatMap ConstExpr.funcs

def Global.funcs (g : Global) : List UInt32 := ConstExpr.funcs g.init

def Export.funcs (e : Export) : List UInt32 := if e.kind = .func then [e.index] else []

def ElementMode.funcs : ElementMode → List UInt32
  | .active _ offset => ConstExpr.funcs offset
  | .passive | .declared => []

def ElementItems.funcs : ElementItems → List UInt32
  | .functions indices => indices
  | .expressions _ items => items.flatMap ConstExpr.funcs

def Element.funcs (e : Element) : List UInt32 := e.mode.funcs ++ e.items.funcs

def DataMode.funcs : DataMode → List UInt32
  | .active _ offset => ConstExpr.funcs offset
  | .passive => []

def Data.funcs (d : Data) : List UInt32 := d.mode.funcs

def Body.funcs (b : Body) : List UInt32 := b.code.filterMap Operator.func?

/-- The functions that are named, and those whose locals are. -/
def NameSubsection.funcs : NameSubsection → List UInt32
  | .functions names => names.map Prod.fst
  | .locals names => names.map Prod.fst
  | _ => []

section
variable (f : UInt32 → UInt32)

theorem filterMap_func_mapFunc (ops : List Operator) :
    (ops.map (Operator.mapFunc f)).filterMap Operator.func? =
      (ops.filterMap Operator.func?).map f := by
  rw [List.filterMap_map, List.map_filterMap]
  exact List.filterMap_congr fun op _ => Operator.func?_mapFunc f op

@[simp] theorem ConstExpr.funcs_mapFunc (e : ConstExpr) :
    (ConstExpr.mapFunc f e).funcs = e.funcs.map f := filterMap_func_mapFunc f e

theorem flatMap_funcs_mapFunc (items : List ConstExpr) :
    (items.map (ConstExpr.mapFunc f)).flatMap ConstExpr.funcs =
      (items.flatMap ConstExpr.funcs).map f := by
  rw [List.flatMap_map, List.map_flatMap]
  exact List.flatMap_congr fun e _ => ConstExpr.funcs_mapFunc f e

@[simp] theorem Table.funcs_mapFunc (t : Table) : (t.mapFunc f).funcs = t.funcs.map f := by
  unfold Table.funcs Table.mapFunc
  cases t.init <;> simp

@[simp] theorem Global.funcs_mapFunc (g : Global) : (g.mapFunc f).funcs = g.funcs.map f :=
  ConstExpr.funcs_mapFunc f g.init

@[simp] theorem Export.name_mapFunc (e : Export) : (e.mapFunc f).name = e.name := by
  obtain ⟨name, kind, index⟩ := e
  cases kind <;> rfl

@[simp] theorem Export.kind_mapFunc (e : Export) : (e.mapFunc f).kind = e.kind := by
  obtain ⟨name, kind, index⟩ := e
  cases kind <;> rfl

theorem Export.mapFunc_of_ne_func {e : Export} (h : e.kind ≠ .func) : e.mapFunc f = e := by
  obtain ⟨name, kind, index⟩ := e
  cases kind <;> first | rfl | exact absurd rfl h

@[simp] theorem Export.funcs_mapFunc (e : Export) : (e.mapFunc f).funcs = e.funcs.map f := by
  obtain ⟨name, kind, index⟩ := e
  cases kind <;> rfl

@[simp] theorem ElementItems.funcs_mapFunc (items : ElementItems) :
    (items.mapFunc f).funcs = items.funcs.map f := by
  cases items with
  | functions indices => rfl
  | expressions type items => exact flatMap_funcs_mapFunc f items

@[simp] theorem Element.funcs_mapFunc (e : Element) : (e.mapFunc f).funcs = e.funcs.map f := by
  have hmode : (e.mode.mapFunc f).funcs = e.mode.funcs.map f := by
    cases e.mode with
    | active table offset => exact ConstExpr.funcs_mapFunc f offset
    | passive | declared => rfl
  simp [Element.funcs, Element.mapFunc, hmode]

@[simp] theorem Data.funcs_mapFunc (d : Data) : (d.mapFunc f).funcs = d.funcs.map f := by
  obtain ⟨mode, bytes⟩ := d
  cases mode with
  | active memory offset => exact ConstExpr.funcs_mapFunc f offset
  | passive => rfl

@[simp] theorem NameSubsection.funcs_mapFunc (s : NameSubsection) :
    (s.mapFunc f).funcs = s.funcs.map f := by
  cases s <;> simp [NameSubsection.funcs, NameSubsection.mapFunc, Function.comp_def]

end

/-! ## What an index denotes -/

/-- A function of a module. -/
inductive FuncDecl
  | imported (i : Import)
  | defined (type : UInt32) (body : Body)
  deriving DecidableEq

def FuncDecl.typeIndex? : FuncDecl → Option UInt32
  | .imported i => i.function?.map FunctionImport.type
  | .defined type _ => some type

namespace Module

variable (m : Module)

/-- The type of a function, if its type index is one of the module. -/
def declType? (f : FuncDecl) : Option TypeEntry := f.typeIndex?.bind fun t => m.types[t.toNat]?

/-- The imports of functions. -/
def funcImports : List Import := m.imports.filter fun i => i.function?.isSome

/-- The functions of the module, by index. -/
def funcDecls : List FuncDecl :=
  m.funcImports.map .imported ++ List.zipWith .defined m.functions m.bodies

/-- The functions that the items of the module refer to, bodies and names apart. -/
def itemFuncs : List UInt32 :=
  m.tables.flatMap Table.funcs ++ m.globals.flatMap Global.funcs ++ m.exports.flatMap Export.funcs ++
    m.starts ++ m.elements.flatMap Element.funcs ++ m.datas.flatMap Data.funcs

/-- The functions that the bodies refer to. -/
def codeFuncs : List UInt32 := m.bodies.flatMap Body.funcs

theorem length_filterMap_function :
    (m.imports.filterMap Import.function?).length = m.funcImports.length := by
  rw [List.length_filterMap_eq_countP, funcImports, List.countP_eq_length_filter]

theorem length_funcImports : m.funcImports.length = m.importedFuncs.length := by
  rw [importedFuncs_eq, List.length_map, length_filterMap_function]

theorem length_funcDecls (h : m.bodies.length = m.functions.length) :
    m.funcDecls.length = m.funcTypes.length := by
  simp [funcDecls, funcTypes, length_funcImports, h]

end Module

end MeteredWasm.Wasm
