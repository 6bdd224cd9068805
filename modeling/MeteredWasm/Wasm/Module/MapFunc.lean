import MeteredWasm.Wasm.Module.Names

/-!
# Function references of a module

Every place of a module where a function index can stand: calls and `ref.func` in bodies and
constant expressions, element segments, exports and the start function. `mapFunc` replaces all of
them, item by item, and leaves everything else as it is.
-/

set_option autoImplicit false

namespace MeteredWasm.Wasm

def ConstExpr.mapFunc (f : UInt32 → UInt32) (e : ConstExpr) : ConstExpr :=
  e.map (Operator.mapFunc f)

def Table.mapFunc (f : UInt32 → UInt32) (t : Table) : Table :=
  { t with init := t.init.map (ConstExpr.mapFunc f) }

def Global.mapFunc (f : UInt32 → UInt32) (g : Global) : Global :=
  { g with init := ConstExpr.mapFunc f g.init }

def Export.mapFunc (f : UInt32 → UInt32) (e : Export) : Export :=
  match e.kind with
  | .func => { e with index := f e.index }
  | _ => e

def ElementMode.mapFunc (f : UInt32 → UInt32) : ElementMode → ElementMode
  | .active table offset => .active table (ConstExpr.mapFunc f offset)
  | .passive => .passive
  | .declared => .declared

def ElementItems.mapFunc (f : UInt32 → UInt32) : ElementItems → ElementItems
  | .functions indices => .functions (indices.map f)
  | .expressions type items => .expressions type (items.map (ConstExpr.mapFunc f))

def Element.mapFunc (f : UInt32 → UInt32) (e : Element) : Element :=
  ⟨e.mode.mapFunc f, e.items.mapFunc f⟩

def DataMode.mapFunc (f : UInt32 → UInt32) : DataMode → DataMode
  | .active memory offset => .active memory (ConstExpr.mapFunc f offset)
  | .passive => .passive

def Data.mapFunc (f : UInt32 → UInt32) (d : Data) : Data := { d with mode := d.mode.mapFunc f }

def Body.mapFunc (f : UInt32 → UInt32) (b : Body) : Body :=
  { b with code := b.code.map (Operator.mapFunc f) }

end MeteredWasm.Wasm
