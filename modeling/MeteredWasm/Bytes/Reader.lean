/-!
# Readers of byte strings

A reader takes bytes off the front of its input and yields a value and the bytes it left, or
refuses. Readers say nothing about where they stopped: every format of this library answers a
malformed input with one error.

The small lemmas say what each reader does to an input that starts with what the matching writer
produces.
-/

set_option autoImplicit false

namespace MeteredWasm

/-- A byte string. -/
abbrev Bytes := List UInt8

/-- Takes a value off the front of a byte string, or refuses. -/
abbrev Reader (α : Type) := StateT Bytes Option α

namespace Reader

variable {α β : Type}

/-- The next byte. -/
def byte : Reader UInt8
  | [] => none
  | b :: rest => some (b, rest)

/-- The next byte, left where it is. -/
def peek : Reader UInt8
  | [] => none
  | b :: rest => some (b, b :: rest)

/-- Refuses every input. -/
def refuse : Reader α := fun _ => none

/-- Goes on only if `c` holds. -/
def require (c : Bool) : Reader Unit := fun input => if c then some ((), input) else none

/-- The value of an option, refusing where there is none. -/
def ofOption : Option α → Reader α
  | some a => pure a
  | none => refuse

/-- Splits off exactly `n` bytes. -/
def splitExactly : Nat → Bytes → Option (Bytes × Bytes)
  | 0, input => some ([], input)
  | _ + 1, [] => none
  | n + 1, b :: rest => (splitExactly n rest).map fun (front, left) => (b :: front, left)

/-- The next `n` bytes. -/
def take (n : Nat) : Reader Bytes := splitExactly n

/-- `n` values in a row. -/
def times (n : Nat) (item : Reader α) : Reader (List α) :=
  match n with
  | 0 => pure []
  | n + 1 => do
    let x ← item
    let xs ← times n item
    return x :: xs

/-- Values in a row until the input is used up; at most `n` of them. -/
def upTo (n : Nat) (item : Reader α) (input : Bytes) : Option (List α) :=
  match input with
  | [] => some []
  | _ :: _ =>
    match n with
    | 0 => none
    | n + 1 =>
      match item input with
      | none => none
      | some (x, rest) => (upTo n item rest).map (x :: ·)

/-- Values in a row until the input is used up. An item takes at least one byte, so there are no
more items than bytes. -/
def many (item : Reader α) (input : Bytes) : Option (List α) := upTo input.length item input

/-- Reads the whole of `input` as one value. -/
def whole (item : Reader α) (input : Bytes) : Option α :=
  match item input with
  | some (x, []) => some x
  | _ => none

/-! ## What a reader does to written bytes -/

theorem splitExactly_append (front rest : Bytes) :
    splitExactly front.length (front ++ rest) = some (front, rest) := by
  induction front with
  | nil => rfl
  | cons b front ih => simp [splitExactly, ih]

theorem eq_append_of_splitExactly {n : Nat} {input front rest : Bytes}
    (h : splitExactly n input = some (front, rest)) :
    input = front ++ rest ∧ front.length = n := by
  induction n generalizing input front with
  | zero => simp_all [splitExactly]
  | succ n ih =>
    cases input with
    | nil => simp [splitExactly] at h
    | cons b input =>
      simp only [splitExactly, Option.map_eq_some_iff, Prod.exists, Prod.mk.injEq] at h
      obtain ⟨f, r, hs, rfl, rfl⟩ := h
      obtain ⟨rfl, rfl⟩ := ih hs
      simp

theorem splitExactly_eq_none_iff {n : Nat} {input : Bytes} :
    splitExactly n input = none ↔ input.length < n := by
  induction n generalizing input with
  | zero => simp [splitExactly]
  | succ n ih => cases input <;> simp [splitExactly, ih]

@[simp] theorem take_append (front rest : Bytes) :
    take front.length (front ++ rest) = some (front, rest) := splitExactly_append front rest

@[simp] theorem byte_cons (b : UInt8) (rest : Bytes) : byte (b :: rest) = some (b, rest) := rfl

@[simp] theorem byte_nil : byte [] = none := rfl

@[simp] theorem peek_cons (b : UInt8) (rest : Bytes) :
    peek (b :: rest) = some (b, b :: rest) := rfl

@[simp] theorem pure_apply (a : α) (input : Bytes) : (pure a : Reader α) input = some (a, input) :=
  rfl

/-- The second reader goes on where the first one stopped. -/
theorem bind_apply (x : Reader α) (f : α → Reader β) (input : Bytes) :
    (x >>= f) input = (x input).bind fun (a, rest) => f a rest := rfl

@[simp] theorem require_true (input : Bytes) : require true input = some ((), input) := rfl

@[simp] theorem require_false (input : Bytes) : require false input = none := rfl

end Reader

end MeteredWasm
