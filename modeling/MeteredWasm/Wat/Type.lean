import MeteredWasm.Wat.Scope

/-!
# Types in the text format

Value types, and the types of functions, tables, memories and globals. A function or block may say
its type in place; such a type joins the types of the module, behind those that have an entry of
their own, unless it is there already.
-/

set_option autoImplicit false

namespace MeteredWasm.Wat

open Wasm

/-! ## Value types -/

def abstractHeap? : Tree → Option AbstractHeap
  | .word cs => AbstractHeap.ofName? (String.ofList cs)
  | _ => none

/-- What a reference points to; `types` are the names of defined types. -/
def heapType? (types : Names) (t : Tree) : Option HeapType :=
  match listOf? "shared" t, listOf? "exact" t with
  | some [kind], _ => (abstractHeap? kind).map (.abstract true)
  | _, some [index] => (resolve? types index).map .precisely
  | _, _ =>
    match abstractHeap? t with
    | some kind => some (.abstract false kind)
    | none => (resolve? types t).map .concrete

/-- The reference types of one word. -/
def refTypeName? : Tree → Option AbstractHeap
  | .word cs =>
    if cs = "anyfunc".toList then some .func else AbstractHeap.ofRefName? (String.ofList cs)
  | _ => none

def refType? (types : Names) (t : Tree) : Option RefType :=
  match listOf? "ref" t, listOf? "shared" t with
  | some [.word null, heap], _ =>
    if null = "null".toList then (heapType? types heap).map (⟨true, ·⟩) else none
  | some [heap], _ => (heapType? types heap).map (⟨false, ·⟩)
  | some _, _ => none
  | none, some [kind] => (refTypeName? kind).map fun kind => ⟨true, .abstract true kind⟩
  | none, _ => (refTypeName? t).map fun kind => ⟨true, .abstract false kind⟩

def valType? (types : Names) (t : Tree) : Option ValType :=
  match t with
  | .word cs =>
    match String.ofList cs with
    | "i32" => some .i32
    | "i64" => some .i64
    | "f32" => some .f32
    | "f64" => some .f64
    | "v128" => some .v128
    | _ => (refType? types t).map .ref
  | t => (refType? types t).map .ref

/-! ## Function types -/

/-- Parameters or locals: one with a name, or any number without. -/
def declarations (types : Names) (named : Bool) :
    Items (List (Option (List Char) × ValType)) := do
  let before ← get
  let name ← if named then takeName else pure none
  if (← get).length < before.length then return [(name, ← Items.one (valType? types))]
  else return (← Items.all (valType? types)).map (none, ·)

/-- Parameters, which may have names, and results. -/
structure Signature where
  params : List (Option (List Char) × ValType)
  results : List ValType

def Signature.type (s : Signature) : FuncType := ⟨s.params.map (·.2), s.results⟩

/-- Takes parameters and results off, as long as there are any. Parameters stand in front of
results. -/
def addSignature (types : Names) (named : Bool) (s : Signature) :
    List Tree → Option (Signature × List Tree)
  | [] => some (s, [])
  | t :: rest =>
    match listOf? "param" t, listOf? "result" t with
    | some items, _ =>
      match s.results, (declarations types named).whole items with
      | [], some params => addSignature types named { s with params := s.params ++ params } rest
      | _, _ => none
    | none, some items =>
      match items.mapM (valType? types) with
      | some results => addSignature types named { s with results := s.results ++ results } rest
      | none => none
    | none, none => some (s, t :: rest)

def takeSignature (types : Names) (named : Bool) : Items Signature :=
  addSignature types named ⟨[], []⟩

/-- A type as it is said in place: perhaps an index, and perhaps parameters and results. -/
structure TypeUse where
  index : Option UInt32
  signature : Option Signature

def TypeUse.type (u : TypeUse) : FuncType := (u.signature.map Signature.type).getD ⟨[], []⟩

/-- Takes a type off. -/
def takeTypeUse (s : Scope) (named : Bool) : Items TypeUse := do
  let index ← Items.list? "type" (takeIndex (s.names .types))
  let before ← get
  let signature ← takeSignature (s.names .types) named
  if (← get).length < before.length then return ⟨index, some signature⟩
  else return ⟨index, none⟩

/-- The index of a type said in place. What is said beside an index has to agree with it. -/
def TypeUse.resolve (u : TypeUse) : Meaning UInt32 := do
  match u.index, u.signature with
  | none, _ => Meaning.typeIndex u.type
  | some index, none => return index
  | some index, some _ =>
    match (← get).types[index.toNat]? with
    | some type => if type = u.type then return index else Meaning.malformed
    | none => return index

/-! ## Sizes -/

def number? (bound : Nat) : Tree → Option UInt64
  | .word cs => (Literal.unsigned? bound cs).map Nat.toUInt64
  | _ => none

/-- Takes the type of addresses off, which is `i32` if left out; whether it is `i64`. -/
def takeWide : Items Bool := do
  if ← Items.word "i64" then return true
  let _ ← Items.word "i32"
  return false

/-- Takes the least size off, and the greatest if it is there. -/
def takeLimits (wide : Bool) : Items Limits := do
  let bound := if wide then UInt64.size else UInt32.size
  let min ← Items.one (number? bound)
  let bounded := (← Items.peek?).any isNumber
  return ⟨min, ← if bounded then some <$> Items.one (number? bound) else pure none⟩

/-- The binary logarithm of a page size. -/
def pageSizeLog? (t : Tree) : Option UInt32 := do
  let size := (← number? UInt32.size t).toNat
  if size = 1 <<< size.log2 then return size.log2.toUInt32 else none

def takePageSize : Items (Option UInt32) := Items.list? "pagesize" (Items.one pageSizeLog?)

/-! ## Entities -/

def memoryType : Items MemoryType := do
  let wide ← takeWide
  let limits ← takeLimits wide
  let shared ← Items.word "shared"
  return ⟨limits, wide, shared, ← takePageSize⟩

def tableType (types : Names) : Items TableType := do
  let shared ← Items.word "shared"
  let wide ← takeWide
  let limits ← takeLimits wide
  return ⟨← Items.one (refType? types), limits, wide, shared⟩

/-- The type of a global behind the marks that it is shared and that it may be changed. -/
def markedGlobal (types : Names) (shared : Bool) : Items GlobalType := do
  let isMutable ← Items.word "mut"
  return ⟨← Items.one (valType? types), isMutable, shared⟩

def globalType? (types : Names) (t : Tree) : Option GlobalType :=
  match listOf? "mut" t, listOf? "shared" t with
  | some [type], _ => (valType? types type).map (⟨·, true, false⟩)
  | some _, _ => none
  | none, some items => (markedGlobal types true).whole items
  | none, none => (valType? types t).map (⟨·, false, false⟩)

end MeteredWasm.Wat
