import MeteredWasm.Float.Basic
import MeteredWasm.Wasm.Arithmetic.Integer
import MeteredWasm.Wasm.Value

/-!
# Numeric operators on values

What a numeric operator leaves on the operand stack. The stack is a list with its top in front, so
the last operand comes first.
-/

set_option autoImplicit false

namespace MeteredWasm.Wasm

open Ieee (Format)

def Width.format : Width → Format
  | .w32 => .single
  | .w64 => .double

def FloatUnary.eval (op : FloatUnary) (f : Format) (x : Nat) : Nat :=
  match op with
  | .abs => f.abs x
  | .neg => f.neg x
  | .ceil => f.integral .up x
  | .floor => f.integral .down x
  | .trunc => f.integral .towardZero x
  | .nearest => f.integral .nearest x
  | .sqrt => f.sqrt x

def FloatBinary.eval (op : FloatBinary) (f : Format) (x y : Nat) : Nat :=
  match op with
  | .add => f.add x y
  | .sub => f.sub x y
  | .mul => f.mul x y
  | .div => f.div x y
  | .min => f.minimum x y
  | .max => f.maximum x y
  | .copysign => f.copysign x y

/-- Every relation but `ne` fails on a NaN. -/
def FloatRelation.eval (op : FloatRelation) (f : Format) (x y : Nat) : Bool :=
  match op, f.compare? x y with
  | .eq, order => order = some .eq
  | .ne, order => order ≠ some .eq
  | .lt, order => order = some .lt
  | .gt, order => order = some .gt
  | .le, order => order = some .lt || order = some .eq
  | .ge, order => order = some .gt || order = some .eq

/-- The integer toward zero, if there is one in the range. -/
def truncate (source target : Width) (sign : Sign) (x : Nat) : Except Trap (BitVec target.bits) :=
  match source.format.toInt? x with
  | none => .error .invalidConversion
  | some i =>
    let (low, high) := sign.range target.bits
    if low ≤ i ∧ i ≤ high then .ok (BitVec.ofInt _ i) else .error .integerOverflow

/-- The integer toward zero, or the end of the range next to it; zero for a NaN. -/
def truncateSat (source : Width) (n : Nat) (sign : Sign) (x : Nat) : BitVec n :=
  match source.format.toInt? x with
  | none => 0
  | some i => sign.saturate n i

/-- The lower `m` bits as a signed number of the full width. -/
def extendLow {n : Nat} (m : Nat) (a : BitVec n) : BitVec n := (a.setWidth m).signExtend n

def Conversion.eval (op : Conversion) (v : Value) : Except Trap Value :=
  match op with
  | .wrap => do return .i32 ((← v.int .w64).setWidth 32)
  | .trunc target source sign => do
    return .ofInt target (← truncate source target sign (← v.float source))
  | .truncSat target source sign => do
    return .ofInt target (truncateSat source target.bits sign (← v.float source))
  | .extend sign => do return .i64 (sign.resize (← v.int .w32) 64)
  | .convert target source sign => do
    return .ofFloat target (target.format.ofInt (sign.value (← v.int source)))
  | .demote => do return .ofFloat .w32 (Format.single.convert .double (← v.float .w64))
  | .promote => do return .ofFloat .w64 (Format.double.convert .single (← v.float .w32))
  | .reinterpretFloat width => do return .ofInt width (BitVec.ofNat _ (← v.float width))
  | .reinterpretInt width => do return .ofFloat width (← v.int width).toNat
  | .extend8 width => do return .ofInt width (extendLow 8 (← v.int width))
  | .extend16 width => do return .ofInt width (extendLow 16 (← v.int width))
  | .extend32 => do return .i64 (extendLow 32 (← v.int .w64))

/-- Takes the operands off the stack and puts the result on it. -/
def Numeric.eval : Numeric → List Value → Except Trap (List Value)
  | .eqz w, a :: vs => do return .ofBool ((← a.int w) = 0) :: vs
  | .intRelation w op, b :: a :: vs => do
    return .ofBool (op.eval (← a.int w) (← b.int w)) :: vs
  | .floatRelation w op, b :: a :: vs => do
    return .ofBool (op.eval w.format (← a.float w) (← b.float w)) :: vs
  | .intUnary w op, a :: vs => do return .ofInt w (op.eval (← a.int w)) :: vs
  | .intBinary w op, b :: a :: vs => do
    return .ofInt w (← op.eval (← a.int w) (← b.int w)) :: vs
  | .floatUnary w op, a :: vs => do return .ofFloat w (op.eval w.format (← a.float w)) :: vs
  | .floatBinary w op, b :: a :: vs => do
    return .ofFloat w (op.eval w.format (← a.float w) (← b.float w)) :: vs
  | .convert op, a :: vs => do return (← op.eval a) :: vs
  | _, _ => .error .unreachable

end MeteredWasm.Wasm
