import MeteredWasm.Error
import MeteredWasm.Wasm.Operator.Numeric

/-!
# Integer arithmetic

Integers wrap around at their width. Division goes toward zero and has no answer for a zero
divisor, nor for the one quotient that the width cannot hold. Shift amounts are taken modulo the
width.
-/

set_option autoImplicit false

namespace MeteredWasm.Wasm

variable {n : Nat}

/-- The zeros in front of the first one among the lower `k` bits. -/
def leadingZeros (a : BitVec n) : (k : Nat) → Nat
  | 0 => 0
  | k + 1 => if a.getLsbD k then 0 else leadingZeros a k + 1

/-- The zeros behind the last one of the bits from `n - k` on. -/
def trailingZeros (a : BitVec n) : (k : Nat) → Nat
  | 0 => 0
  | k + 1 => if a.getLsbD (n - 1 - k) then 0 else trailingZeros a k + 1

/-- The ones among the lower `k` bits. -/
def countOnes (a : BitVec n) : (k : Nat) → Nat
  | 0 => 0
  | k + 1 => countOnes a k + (a.getLsbD k).toNat

def IntUnary.eval (op : IntUnary) (a : BitVec n) : BitVec n :=
  match op with
  | .clz => BitVec.ofNat n (leadingZeros a n)
  | .ctz => BitVec.ofNat n (trailingZeros a n)
  | .popcnt => BitVec.ofNat n (countOnes a n)

/-- The quotient and remainder operators' divisor. -/
def nonzero (b : BitVec n) : Except Trap (BitVec n) :=
  if b = 0 then .error .integerDivideByZero else .ok b

def IntBinary.eval (op : IntBinary) (a b : BitVec n) : Except Trap (BitVec n) :=
  match op with
  | .add => .ok (a + b)
  | .sub => .ok (a - b)
  | .mul => .ok (a * b)
  | .divS => do
    let b ← nonzero b
    if a = BitVec.intMin n ∧ b = BitVec.allOnes n then throw .integerOverflow
    return a.sdiv b
  | .divU => do return a / (← nonzero b)
  | .remS => do return a.srem (← nonzero b)
  | .remU => do return a % (← nonzero b)
  | .and => .ok (a &&& b)
  | .or => .ok (a ||| b)
  | .xor => .ok (a ^^^ b)
  | .shl => .ok (a <<< (b.toNat % n))
  | .shrS => .ok (a.sshiftRight (b.toNat % n))
  | .shrU => .ok (a >>> (b.toNat % n))
  | .rotl => .ok (a.rotateLeft (b.toNat % n))
  | .rotr => .ok (a.rotateRight (b.toNat % n))

def IntRelation.eval (op : IntRelation) (a b : BitVec n) : Bool :=
  match op with
  | .eq => a = b
  | .ne => a ≠ b
  | .ltS => a.slt b
  | .ltU => a.ult b
  | .gtS => b.slt a
  | .gtU => b.ult a
  | .leS => a.sle b
  | .leU => a.ule b
  | .geS => b.sle a
  | .geU => b.ule a

/-- The number that the bits of an integer stand for. -/
def Sign.value (s : Sign) (a : BitVec n) : Int :=
  match s with
  | .signed => a.toInt
  | .unsigned => a.toNat

/-- The least and the greatest number of `n` bits. -/
def Sign.range (s : Sign) (n : Nat) : Int × Int :=
  match s with
  | .signed => (-(1 <<< (n - 1) : Nat), (1 <<< (n - 1) : Nat) - 1)
  | .unsigned => (0, (1 <<< n : Nat) - 1)

/-- The number of `n` bits nearest to `i`. -/
def Sign.saturate (s : Sign) (n : Nat) (i : Int) : BitVec n :=
  let (low, high) := s.range n
  BitVec.ofInt n (max low (min i high))

/-- Widens or narrows an integer. -/
def Sign.resize (s : Sign) (a : BitVec n) (m : Nat) : BitVec m :=
  match s with
  | .signed => a.signExtend m
  | .unsigned => a.setWidth m

end MeteredWasm.Wasm
