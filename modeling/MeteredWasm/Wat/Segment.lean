import MeteredWasm.Wasm.Module.Section
import MeteredWasm.Wat.Code

/-!
# Segments in the text format

What a memory or table holds at first. A segment that is copied when the module starts says where
to: its offset is an expression in a list of its own, or one folded operator.
-/

set_option autoImplicit false

namespace MeteredWasm.Wat

open Wasm

/-- Takes the expression for an offset off. -/
def takeOffset (fuel : Nat) (s : Scope) : Items (Meaning ConstExpr) := do
  match ← Items.list? "offset" (takeCode fuel s) with
  | some offset => return offset
  | none => Items.one (foldedCode? fuel s)

/-- Takes the memory or table of a segment off, which may be a plain number or left out. -/
def takeTarget (s : Scope) (space : Space) (head : String) : Items (Option UInt32) := do
  if (← Items.peek?).any isNumber then some <$> takeIndex (s.names space)
  else Items.list? head (takeIndex (s.names space))

/-! ## Data -/

/-- The bytes of numbers of `width` bytes each. -/
def numberBytes? (width : Nat) (read : List Char → Option Nat) (items : List Tree) :
    Option Bytes := do
  let numbers ← (Items.all fun | .word cs => read cs | _ => none).whole items
  return numbers.flatMap (LittleEndian.write width)

/-- The bytes of vectors, each with its shape; at most `n` of them. -/
def vectorBytes : (n : Nat) → Items Bytes
  | 0 => return []
  | n + 1 => do
    if (← Items.peek?).isNone then return []
    let v ← takeVector
    return writeVector v ++ (← vectorBytes n)

/-- A byte string, or numbers behind the name of their type. -/
def dataPart? : Tree → Option Bytes
  | .quoted bytes => some bytes
  | .list (.word cs :: items) =>
    match String.ofList cs with
    | "i8" => numberBytes? 1 (Literal.integer? 8) items
    | "i16" => numberBytes? 2 (Literal.integer? 16) items
    | "i32" => numberBytes? 4 (Literal.integer? 32) items
    | "i64" => numberBytes? 8 (Literal.integer? 64) items
    | "f32" => numberBytes? 4 (Literal.float? .single) items
    | "f64" => numberBytes? 8 (Literal.float? .double) items
    | "v128" => (vectorBytes items.length).whole items
    | _ => none
  | _ => none

/-- All that is left, as contents of a memory. -/
def takeContents : Items Bytes := do return (← Items.all dataPart?).flatten

/-- A segment that starts with a byte string is not copied at the start. -/
def dataSegment (fuel : Nat) (s : Scope) : Items (Meaning Data) := do
  if (← Items.peek?).any fun t => (bytes? t).isSome then
    let bytes ← takeContents
    return pure ⟨.passive, bytes⟩
  else
    let memory ← takeTarget s .memories "memory"
    let offset ← takeOffset fuel s
    let bytes ← takeContents
    return do return ⟨.active (memory.getD 0) (← offset), bytes⟩

/-! ## Elements -/

/-- All that is left, as functions. -/
def takeFunctions (s : Scope) : Items (Meaning ElementItems) := do
  let indices ← Items.all (resolve? (s.names .funcs))
  return pure (.functions indices)

/-- An expression for a reference: a list of its own, or one folded operator. -/
def elementItem? (fuel : Nat) (s : Scope) (t : Tree) : Option (Meaning ConstExpr) :=
  match listOf? "item" t with
  | some items => (takeCode fuel s).whole items
  | none => foldedCode? fuel s t

/-- All that is left, as what a segment holds: functions by index, or references of some type by a
constant expression each. Without a type they are functions. -/
def takeElements (fuel : Nat) (s : Scope) (type : Option RefType) :
    Items (Meaning ElementItems) := do
  match type with
  | none =>
    let _ ← Items.word "func"
    takeFunctions s
  | some type =>
    if type.heap = .abstract false .func ∧ (← Items.peek?).any isIndex then takeFunctions s
    else
      let parts ← Items.all (elementItem? fuel s)
      return do return .expressions type (← parts.mapM id)

/-- Whether a list is a reference type. -/
def startsRefType (t : Tree) : Bool := (listOf? "ref" t).isSome || (listOf? "shared" t).isSome

def takeElementMode (fuel : Nat) (s : Scope) : Items (Meaning ElementMode) := do
  if ← Items.word "declare" then return pure .declared
  if (← Items.peek?).any fun t => isNumber t || (isList t && !startsRefType t) then
    let table ← takeTarget s .tables "table"
    let offset ← takeOffset fuel s
    return do return .active table (← offset)
  else return pure .passive

def elementSegment (fuel : Nat) (s : Scope) : Items (Meaning Element) := do
  let mode ← takeElementMode fuel s
  let type ← Items.optional (refType? (s.names .types))
  let items ← takeElements fuel s type
  return do return ⟨← mode, ← items⟩

end MeteredWasm.Wat
