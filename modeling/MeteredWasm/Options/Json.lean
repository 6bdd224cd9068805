/-!
# JSON values

A value of the JSON data model. Numbers that are not written as integers are told apart from
integers, whatever their value. An object is its members as they are written, in order and with
every one of a name that is written twice.
-/

set_option autoImplicit false

namespace MeteredWasm

inductive Json
  | null
  | bool (b : Bool)
  | int (i : Int)
  /-- A number written with a fraction or an exponent. -/
  | fraction
  | string (s : String)
  | array (items : List Json)
  | object (members : List (String × Json))

namespace Json

/-- An integer of at most `max`. -/
def nat? (max : Nat) : Json → Option Nat
  | .int i => if 0 ≤ i ∧ i ≤ max then some i.toNat else none
  | _ => none

def u8? (j : Json) : Option UInt8 := (j.nat? (UInt8.size - 1)).map Nat.toUInt8

def u32? (j : Json) : Option UInt32 := (j.nat? (UInt32.size - 1)).map Nat.toUInt32

def u64? (j : Json) : Option UInt64 := (j.nat? (UInt64.size - 1)).map Nat.toUInt64

def bool? : Json → Option Bool
  | .bool b => some b
  | _ => none

def string? : Json → Option String
  | .string s => some s
  | _ => none

/-! ## Fields -/

/-- The values that members of this name have, in order. -/
def valuesOf (members : List (String × Json)) (key : String) : List Json :=
  (members.filter (·.1 = key)).map Prod.snd

/-- The value of a member, if there is one; two of one name are refused. -/
def member? (members : List (String × Json)) (key : String) : Option (Option Json) :=
  match valuesOf members key with
  | [] => some none
  | [value] => some (some value)
  | _ => none

/-- What is read in the place of these fields: the members of an object, or the items of an array,
which stand for the first of the fields in order. -/
def members? (fields : List String) : Json → Option (List (String × Json))
  | .object members => some members
  | .array items => if items.length ≤ fields.length then some (fields.zip items) else none
  | _ => none

/-- The value of a field that must be given. -/
def required? {α : Type} (read : Json → Option α) (members : List (String × Json))
    (key : String) : Option α :=
  (member? members key).bind fun given => given.bind read

/-- The value of a field, standard where it is not given. -/
def field? {α : Type} (read : Json → Option α) (standard : α) (members : List (String × Json))
    (key : String) : Option α :=
  (member? members key).bind fun given => given.elim (some standard) read

end Json

end MeteredWasm
