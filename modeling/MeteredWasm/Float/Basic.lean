/-!
# Floating-point numbers

Binary interchange formats, as bits. A finite number is a natural number times a power of two, so
every operation computes its exact result and rounds once, to nearest and ties to even.

`Format.round` is the only place that rounds.
-/

set_option autoImplicit false

namespace MeteredWasm.Ieee

/-- A format, by the widths of its two lower fields. -/
structure Format where
  exponentBits : Nat
  fractionBits : Nat

namespace Format

def single : Format := ⟨8, 23⟩

def double : Format := ⟨11, 52⟩

def width (f : Format) : Nat := 1 + f.exponentBits + f.fractionBits

/-- How many exponents the exponent field holds. -/
def exponentRange (f : Format) : Nat := 1 <<< f.exponentBits

/-- How many fractions the fraction field holds. -/
def fractionRange (f : Format) : Nat := 1 <<< f.fractionBits

/-- The exponent of the last place of the smallest numbers. -/
def minExponent (f : Format) : Int := 2 - (f.exponentRange / 2 + f.fractionBits : Nat)

/-- The bits of an infinity without its sign. -/
def infinityBits (f : Format) : Nat := (f.exponentRange - 1) * f.fractionRange

/-- The bit that tells quiet from signalling NaNs. -/
def quietBit (f : Format) : Nat := f.fractionRange / 2

def signBit (f : Format) : Nat := f.exponentRange * f.fractionRange

end Format

/-- What bits stand for. -/
inductive Number
  | nan (negative : Bool) (payload : Nat)
  | infinity (negative : Bool)
  /-- `± mantissa · 2 ^ exponent` -/
  | finite (negative : Bool) (mantissa : Nat) (exponent : Int)
  deriving Repr, DecidableEq

namespace Number

def negative : Number → Bool
  | nan s _ | infinity s | finite s _ _ => s

def isNan : Number → Bool
  | nan _ _ => true
  | _ => false

end Number

namespace Format

variable (f : Format)

def signed (negative : Bool) (bits : Nat) : Nat := if negative then f.signBit + bits else bits

/-- Takes bits apart. -/
def unpack (bits : Nat) : Number :=
  let negative := bits / f.signBit % 2 = 1
  let exponent := bits / f.fractionRange % f.exponentRange
  let fraction := bits % f.fractionRange
  if exponent = f.exponentRange - 1 then
    if fraction = 0 then .infinity negative else .nan negative fraction
  else if exponent = 0 then .finite negative fraction f.minExponent
  else .finite negative (fraction + f.fractionRange) (f.minExponent + exponent - 1)

/-- `numerator / denominator`, rounded to nearest with ties to even. -/
def roundDiv (numerator denominator : Nat) : Nat :=
  let q := numerator / denominator
  let r := numerator % denominator
  if 2 * r > denominator ∨ (2 * r = denominator ∧ q % 2 = 1) then q + 1 else q

/-- `n · 2 ^ e / d` as a quotient of natural numbers. -/
def scale (n d : Nat) (e : Int) : Nat × Nat := (n <<< e.toNat, d <<< (-e).toNat)

/-- The bits of the number nearest to `n / d · 2 ^ e`. -/
def round (negative : Bool) (n d : Nat) (e : Int) : Nat :=
  if n = 0 then f.signed negative 0
  else
    -- the last place, one too low where the quotient is at the upper end of its estimate
    let low := max f.minExponent ((n.log2 : Int) - d.log2 - 1 + e - f.fractionBits)
    let (n₀, d₀) := scale n d (e - low)
    let place := if n₀ / d₀ < 2 * f.fractionRange then low else low + 1
    let (n₁, d₁) := scale n d (e - place)
    let bits := (place - f.minExponent).toNat * f.fractionRange + roundDiv n₁ d₁
    f.signed negative (min bits f.infinityBits)

/-- The bits of a number that the format holds; others are rounded. -/
def pack : Number → Nat
  | .nan negative payload => f.signed negative (f.infinityBits + payload)
  | .infinity negative => f.signed negative f.infinityBits
  | .finite negative mantissa exponent => f.round negative mantissa 1 exponent

/-- The NaN that an invalid operation yields. -/
def defaultNan : Nat := f.signed true (f.infinityBits + f.quietBit)

/-- A NaN as an operation passes it on: quiet, all else kept. -/
def quiet (negative : Bool) (payload : Nat) : Nat :=
  f.signed negative
    (f.infinityBits + (if payload / f.quietBit % 2 = 1 then payload else payload + f.quietBit))

/-- The first NaN among the operands, made quiet. -/
def firstNan? : List Number → Option Nat
  | [] => none
  | .nan negative payload :: _ => some (f.quiet negative payload)
  | _ :: rest => firstNan? rest

/-! ## Arithmetic -/

/-- The exact sum of two finite numbers, over the lower of their exponents. -/
def exactSum (s : Bool) (m : Nat) (e : Int) (t : Bool) (n : Nat) (d : Int) : Int × Int :=
  let low := min e d
  let a : Int := (m <<< (e - low).toNat : Nat)
  let b : Int := (n <<< (d - low).toNat : Nat)
  ((if s then -a else a) + (if t then -b else b), low)

def add (x y : Nat) : Nat :=
  match f.firstNan? [f.unpack x, f.unpack y] with
  | some nan => nan
  | none =>
    match f.unpack x, f.unpack y with
    | .infinity s, .infinity t => if s = t then x else f.defaultNan
    | .infinity _, _ => x
    | _, .infinity _ => y
    | .finite s m e, .finite t n d =>
      let (sum, low) := exactSum s m e t n d
      if sum = 0 then f.signed (s && t) 0
      else f.round (sum < 0) sum.natAbs 1 low
    | _, _ => f.defaultNan

/-- Changes the sign. -/
def neg (x : Nat) : Nat := x ^^^ f.signBit

def abs (x : Nat) : Nat := x % f.signBit

def copysign (x y : Nat) : Nat := f.signed (y / f.signBit % 2 = 1) (f.abs x)

def sub (x y : Nat) : Nat :=
  match f.firstNan? [f.unpack x, f.unpack y] with
  | some nan => nan
  | none => f.add x (f.neg y)

def mul (x y : Nat) : Nat :=
  match f.firstNan? [f.unpack x, f.unpack y] with
  | some nan => nan
  | none =>
    match f.unpack x, f.unpack y with
    | .infinity s, .infinity t => f.signed (s != t) f.infinityBits
    | .infinity s, .finite t n _ | .finite t n _, .infinity s =>
      if n = 0 then f.defaultNan else f.signed (s != t) f.infinityBits
    | .finite s m e, .finite t n d => f.round (s != t) (m * n) 1 (e + d)
    | _, _ => f.defaultNan

def div (x y : Nat) : Nat :=
  match f.firstNan? [f.unpack x, f.unpack y] with
  | some nan => nan
  | none =>
    match f.unpack x, f.unpack y with
    | .infinity _, .infinity _ => f.defaultNan
    | .infinity s, .finite t _ _ => f.signed (s != t) f.infinityBits
    | .finite s _ _, .infinity t => f.signed (s != t) 0
    | .finite s m e, .finite t n d =>
      if n = 0 then if m = 0 then f.defaultNan else f.signed (s != t) f.infinityBits
      else f.round (s != t) m n (e - d)
    | _, _ => f.defaultNan

/-- The greatest number whose square is at most `n`, found bit by bit from bit `k - 1` down on top
of `root`. -/
def sqrtFrom (n : Nat) : (k root : Nat) → Nat
  | 0, root => root
  | k + 1, root =>
    let next := root + (1 <<< k)
    sqrtFrom n k (if next * next ≤ n then next else root)

def sqrt (x : Nat) : Nat :=
  match f.unpack x with
  | .nan negative payload => f.quiet negative payload
  | .infinity negative => if negative then f.defaultNan else x
  | .finite negative m e =>
    if m = 0 then x
    else if negative then f.defaultNan
    else
      -- an even exponent, and more bits of the root than the format holds
      let shift := 2 * (f.fractionBits + 4) + (e.toNat + (-e).toNat) % 2
      let n := m <<< shift
      let root := sqrtFrom n (n.log2 / 2 + 1) 0
      let inexact := if root * root = n then 0 else 1
      f.round false (2 * root + inexact) 1 ((e - shift) / 2 - 1)

/-! ## Comparison -/

/-- How two numbers compare; `none` if one is a NaN. -/
def compare? (x y : Nat) : Option Ordering :=
  match f.unpack x, f.unpack y with
  | .nan _ _, _ | _, .nan _ _ => none
  | .infinity s, .infinity t => some (if s = t then .eq else if s then .lt else .gt)
  | .infinity s, .finite _ _ _ => some (if s then .lt else .gt)
  | .finite _ _ _, .infinity t => some (if t then .gt else .lt)
  | .finite s m e, .finite t n d => some (compare (exactSum s m e (!t) n d).1 0)

/-- The lesser number; a negative zero is less than a positive one. -/
def minimum (x y : Nat) : Nat :=
  match f.firstNan? [f.unpack y, f.unpack x] with
  | some nan => nan
  | none =>
    match f.compare? x y with
    | some .lt => x
    | some .gt => y
    | _ => if (f.unpack x).negative then x else y

/-- The greater number; a positive zero is greater than a negative one. -/
def maximum (x y : Nat) : Nat :=
  match f.firstNan? [f.unpack y, f.unpack x] with
  | some nan => nan
  | none =>
    match f.compare? x y with
    | some .gt => x
    | some .lt => y
    | _ => if (f.unpack x).negative then y else x

/-! ## Rounding to integers -/

/-- Which integer stands for a number between two integers. -/
inductive Rounding
  | up | down | towardZero | nearest
  deriving Repr, DecidableEq

/-- The size of `± m · 2 ^ e` as an integer. -/
def toNatural (rounding : Rounding) (negative : Bool) (m : Nat) (e : Int) : Nat :=
  let (n, d) := scale m 1 e
  match rounding with
  | .towardZero => n / d
  | .nearest => roundDiv n d
  | .up => if negative then n / d else (n + d - 1) / d
  | .down => if negative then (n + d - 1) / d else n / d

/-- The number rounded to an integer, with its sign. -/
def integral (rounding : Rounding) (x : Nat) : Nat :=
  match f.unpack x with
  | .nan negative payload => f.quiet negative payload
  | .infinity _ => x
  | .finite negative m e => f.round negative (toNatural rounding negative m e) 1 0

/-- More than any range of integers holds. -/
def boundless : Nat := 1 <<< 128

/-- The integer toward zero; `none` for a NaN, and for an infinity an integer that no range
holds. -/
def toInt? (x : Nat) : Option Int :=
  let towards (negative : Bool) (n : Int) := some (if negative then -n else n)
  match f.unpack x with
  | .nan _ _ => none
  | .infinity negative => towards negative boundless
  | .finite negative m e => towards negative (toNatural .towardZero negative m e)

/-- The number nearest to an integer. -/
def ofInt (i : Int) : Nat := f.round (i < 0) i.natAbs 1 0

/-- The number nearest to a number of another format. The payload of a NaN keeps its upper
bits. -/
def convert (source : Format) (x : Nat) : Nat :=
  match source.unpack x with
  | .nan negative payload =>
    let (n, d) := scale payload 1 ((f.fractionBits : Int) - source.fractionBits)
    f.quiet negative (n / d)
  | .infinity negative => f.signed negative f.infinityBits
  | .finite negative m e => f.round negative m 1 e

end Format

end MeteredWasm.Ieee
