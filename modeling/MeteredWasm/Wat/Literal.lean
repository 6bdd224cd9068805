import MeteredWasm.Float.Decimal
import MeteredWasm.Wat.Token

/-!
# Numbers in the text format

Digits may be grouped by single underscores. An integer of `n` bits is written as a signed or an
unsigned number. A float is a decimal, a hexadecimal number with a binary exponent, `inf`, or a
NaN.
-/

set_option autoImplicit false

namespace MeteredWasm.Wat.Literal

/-- The number that digits write; underscores stand between digits only. -/
def digitsFrom (base : Nat) (n : Nat) : List Char → Option Nat
  | [] => some n
  | '_' :: c :: rest =>
    match Token.hexValue? c with
    | some d => if d < base then digitsFrom base (n * base + d) rest else none
    | none => none
  | c :: rest =>
    match Token.hexValue? c with
    | some d => if d < base then digitsFrom base (n * base + d) rest else none
    | none => none

def digits? (base : Nat) (cs : List Char) : Option Nat :=
  match cs with
  | [] | '_' :: _ => none
  | cs => digitsFrom base 0 cs

def natural? : List Char → Option Nat
  | '0' :: 'x' :: rest => digits? 16 rest
  | cs => digits? 10 cs

/-- Takes a sign off; whether it is a minus. -/
def sign : List Char → Bool × List Char
  | '-' :: rest => (true, rest)
  | '+' :: rest => (false, rest)
  | cs => (false, cs)

/-- The bits of an integer of `bits` bits. -/
def integer? (bits : Nat) (cs : List Char) : Option Nat := do
  let (negative, cs) := sign cs
  let n ← natural? cs
  let range := 1 <<< bits
  if negative then if 2 * n ≤ range then return (range - n) % range else none
  else if n < range then return n else none

/-- An integer that is no less than zero and below `bound`. A plus may stand in front of it. -/
def unsigned? (bound : Nat) (cs : List Char) : Option Nat :=
  match sign cs with
  | (true, _) => none
  | (false, cs) => do
    let n ← natural? cs
    if n < bound then return n else none

def u32? (cs : List Char) : Option UInt32 := (unsigned? UInt32.size cs).map Nat.toUInt32

def u64? (cs : List Char) : Option UInt64 := (unsigned? UInt64.size cs).map Nat.toUInt64

def u8? (cs : List Char) : Option UInt8 := (unsigned? UInt8.size cs).map Nat.toUInt8

/-- A number without a sign. -/
def unsignedByte? (cs : List Char) : Option UInt8 := do
  let n ← natural? cs
  if n < UInt8.size then return n.toUInt8 else none

/-- Whether a word writes an integer, of whatever size. -/
def isInteger (cs : List Char) : Bool := (natural? (sign cs).2).isSome

/-- A number behind the equals sign of an option such as `align=4`: digits without underscores,
perhaps behind a plus. -/
def option? (bound : Nat) (cs : List Char) : Option Nat := do
  let (base, cs) := match cs with
    | '0' :: 'x' :: rest => (16, rest)
    | cs => (10, cs)
  let cs := if cs.head? = some '+' then cs.drop 1 else cs
  if cs.contains '_' then none
  let n ← digits? base cs
  if n < bound then return n else none

/-! ## Floats -/

/-- Splits at the first of some characters, which is dropped. -/
def splitAt (marks : List Char) (cs : List Char) : List Char × Option (List Char) :=
  match cs.dropWhile (!marks.contains ·) with
  | [] => (cs.takeWhile (!marks.contains ·), none)
  | _ :: rest => (cs.takeWhile (!marks.contains ·), some rest)

/-- A number with a point and an exponent: all digits, how many stand behind the point, and the
exponent. -/
def scientific? (base : Nat) (marks : List Char) (cs : List Char) :
    Option (Nat × Nat × Int) := do
  let (mantissa, exponent) := splitAt marks cs
  let (whole, fraction) := splitAt ['.'] mantissa
  let fraction := fraction.getD []
  let _ ← digits? base whole
  let all ← digits? base (whole ++ fraction)
  if fraction.head? = some '_' then none
  let exponent ← match exponent with
    | none => some (0 : Int)
    | some cs => do
      let (negative, cs) := sign cs
      let n ← digits? 10 cs
      some (if negative then -(n : Int) else n)
  return (all, (fraction.filter (· ≠ '_')).length, exponent)

/-- The bits of a float. Numbers past the range of the format are refused; of the payload of a NaN
the bits that the format has are taken. -/
def float? (f : Ieee.Format) (cs : List Char) : Option Nat := do
  let (negative, cs) := sign cs
  match cs with
  | ['i', 'n', 'f'] => return f.signed negative f.infinityBits
  | ['n', 'a', 'n'] => return f.signed negative (f.infinityBits + f.quietBit)
  | 'n' :: 'a' :: 'n' :: ':' :: '0' :: 'x' :: payload =>
    let n ← digits? 16 payload
    let fraction := n % f.fractionRange
    if n < UInt64.size ∧ fraction ≠ 0 then return f.signed negative (f.infinityBits + fraction)
    else none
  | '0' :: 'x' :: rest =>
    let (digits, places, exponent) ← scientific? 16 ['p', 'P'] rest
    finite? negative (f.round negative digits 1 (exponent - 4 * places))
  | cs =>
    let (digits, places, exponent) ← scientific? 10 ['e', 'E'] cs
    finite? negative (f.ofDecimal negative ⟨digits, exponent - places⟩)
where
  finite? (negative : Bool) (bits : Nat) : Option Nat :=
    if bits = f.signed negative f.infinityBits then none else some bits

end MeteredWasm.Wat.Literal
