import MeteredWasm.Wat.Token

/-!
# Taking trees off lists

What a list of trees means is read from front to back: `Items` takes trees off a list, or finds that
they do not fit. Most lists are read whole (`Items.whole`).
-/

set_option autoImplicit false

namespace MeteredWasm.Wat

/-- Takes trees off the front of a list, or finds that they do not fit. -/
abbrev Items (α : Type) := StateT (List Tree) Option α

/-- The items of a list that starts with this keyword. -/
def listOf? (head : String) : Tree → Option (List Tree)
  | .list (.word cs :: items) => if cs = head.toList then some items else none
  | _ => none

def isList : Tree → Bool
  | .list _ => true
  | _ => false

namespace Items

variable {α : Type}

def malformed : Items α := fun _ => none

def ofOption : Option α → Items α
  | some a => pure a
  | none => malformed

/-- Goes on only if `c` holds. -/
def require (c : Bool) : Items Unit := if c then pure () else malformed

/-- The next tree. -/
def next : Items Tree
  | t :: rest => some (t, rest)
  | [] => none

/-- The next tree, left where it is. -/
def peek? : Items (Option Tree) := fun items => some (items.head?, items)

/-- All trees that are left. -/
def rest : Items (List Tree) := fun items => some (items, [])

/-- Reads all of a list. -/
def whole (x : Items α) (items : List Tree) : Option α :=
  match x items with
  | some (a, []) => some a
  | _ => none

/-- The next tree, as `f` reads it. -/
def one (f : Tree → Option α) : Items α := do ofOption (f (← next))

/-- The next tree, if there is one that `f` can read. -/
def optional (f : Tree → Option α) : Items (Option α)
  | [] => some (none, [])
  | t :: rest =>
    match f t with
    | some a => some (some a, rest)
    | none => some (none, t :: rest)

/-- Trees as long as `f` can read them. -/
def many (f : Tree → Option α) : Items (List α)
  | [] => some ([], [])
  | t :: rest =>
    match f t with
    | some a => (many f rest).map fun (as, rest) => (a :: as, rest)
    | none => some ([], t :: rest)

/-- Trees as long as `f` knows them; one that it knows but finds malformed fits nothing. -/
def known (f : Tree → Option (Option α)) : Items (List α)
  | [] => some ([], [])
  | t :: rest =>
    match f t with
    | some a =>
      match a, known f rest with
      | some a, some (as, rest) => some (a :: as, rest)
      | _, _ => none
    | none => some ([], t :: rest)

/-- All trees that are left, as `f` reads them. -/
def all (f : Tree → Option α) : Items (List α) := do ofOption ((← rest).mapM f)

/-- Whether the next tree is this word, which is taken off then. -/
def word (w : String) : Items Bool
  | .word cs :: rest => if cs = w.toList then some (true, rest) else some (false, .word cs :: rest)
  | items => some (false, items)

/-- The next tree, if it is a list that starts with this keyword; its items have to fit `x`. -/
def list? (head : String) (x : Items α) : Items (Option α)
  | [] => some (none, [])
  | t :: rest =>
    match listOf? head t with
    | some items => (whole x items).map fun a => (some a, rest)
    | none => some (none, t :: rest)

/-- Lists that start with this keyword, as long as there are any. -/
def lists (head : String) (x : Items α) : Items (List α) :=
  known fun t => (listOf? head t).map (whole x)

/-- `n` values in a row. -/
def times (n : Nat) (x : Items α) : Items (List α) := (List.range n).mapM fun _ => x

end Items

/-! ## Byte strings -/

def bytes? : Tree → Option Bytes
  | .quoted bytes => some bytes
  | _ => none

/-- A byte string that is text. -/
def text? (t : Tree) : Option String := (bytes? t).bind Utf8.decode?

/-- All byte strings that are left, in a row. -/
def Items.bytes : Items Bytes := do return (← Items.all bytes?).flatten

end MeteredWasm.Wat
