import MeteredWasm.Float.Basic

/-!
# Decimal text of floating-point numbers

A number is printed with the fewest digits that read back as the same number, and of those nearest
to it, always in positional notation. A decimal is read as the nearest number.
-/

set_option autoImplicit false

namespace MeteredWasm.Ieee

/-- A decimal `digits · 10 ^ exponent`. -/
structure Decimal where
  digits : Nat
  exponent : Int
  deriving Repr, DecidableEq

namespace Decimal

/-- `n · 10 ^ e / d` as a quotient of natural numbers. -/
def scale (n d : Nat) (e : Int) : Nat × Nat := (n * Nat.pow 10 e.toNat, d * Nat.pow 10 (-e).toNat)

/-- The exponent of the first digit of `n / d`, between these bounds. -/
def leading (n d : Nat) : (fuel : Nat) → (low : Int) → Int
  | 0, low => low
  | fuel + 1, low =>
    let (a, b) := scale n d (-(low + 1))
    if a < b then low else leading n d fuel (low + 1)

end Decimal

namespace Format

variable (f : Format)

/-- The middle of the interval of numbers that round to `m · 2 ^ e`, and its ends, as multiples of
`2 ^ (e - 2)`. Below the first mantissa of an exponent numbers are twice as dense. -/
def interval (m : Nat) (e : Int) : Nat × Nat × Nat :=
  let dense := m = f.fractionRange ∧ e > f.minExponent
  (4 * m, 4 * m - (if dense then 1 else 2), 4 * m + 2)

/-- The decimal of the grid `10 ^ exponent` that is nearest to the number, if it rounds to it. -/
def onGrid? (m : Nat) (e : Int) (exponent : Int) : Option Decimal :=
  let (mid, low, high) := f.interval m e
  -- all three over one denominator
  let (n, d) := Format.scale 1 1 (e - 2)
  let (n, d) := Decimal.scale n d (-exponent)
  let inside (c : Nat) : Bool :=
    if m % 2 = 0 then low * n ≤ c * d && c * d ≤ high * n else low * n < c * d && c * d < high * n
  let below := mid * n / d
  let above := below + 1
  let nearer := 2 * (mid * n) < (below + above) * d
  if inside below && (nearer || !inside above) then some ⟨below, exponent⟩
  else if inside above then some ⟨above, exponent⟩
  else none

/-- The shortest decimal that reads back as `m · 2 ^ e`, trying `count` digits and more. -/
def shortestFrom (m : Nat) (e first : Int) : (fuel count : Nat) → Decimal
  | 0, count => ⟨0, first - count⟩
  | fuel + 1, count =>
    match f.onGrid? m e (first + 1 - count) with
    | some d => d
    | none => shortestFrom m e first fuel (count + 1)

/-- The shortest decimal that reads back as `m · 2 ^ e`, which is not zero. -/
def shortest (m : Nat) (e : Int) : Decimal :=
  let (n, d) := Format.scale m 1 e
  let first := Decimal.leading n d 700 (-350)
  f.shortestFrom m e first 20 1

end Format

/-- Digits with the point where the exponent puts it. -/
def Decimal.text (d : Decimal) : String :=
  let digits := Nat.toDigits 10 d.digits
  if 0 ≤ d.exponent then String.ofList (digits ++ List.replicate d.exponent.toNat '0')
  else
    let places := (-d.exponent).toNat
    let padded := List.replicate (places + 1 - digits.length) '0' ++ digits
    let (whole, fraction) := padded.splitAt (padded.length - places)
    let trimmed := (fraction.reverse.dropWhile (· = '0')).reverse
    String.ofList (if trimmed.isEmpty then whole else whole ++ '.' :: trimmed)

namespace Format

/-- The text of a number. -/
def text (f : Format) (x : Nat) : String :=
  match f.unpack x with
  | .nan _ _ => "NaN"
  | .infinity negative => if negative then "-inf" else "inf"
  | .finite negative m e =>
    (if negative then "-" else "") ++ (if m = 0 then "0" else (f.shortest m e).text)

/-- The number nearest to a decimal. -/
def ofDecimal (f : Format) (negative : Bool) (d : Decimal) : Nat :=
  let (n, q) := Decimal.scale d.digits 1 d.exponent
  f.round negative n q 0

end Format

end MeteredWasm.Ieee
