import MeteredWasm.Error
import MeteredWasm.Wasm.Operator.Numeric

/-!
# Values

What code computes with. Integers and vectors are bit vectors, floating-point numbers are kept as
bits, and a reference is null or a function of the instance. A value that is not of the type asked
for makes code stop with `unreachable`; validated code never gets there.
-/

set_option autoImplicit false

namespace MeteredWasm.Wasm

inductive Value
  | i32 (bits : BitVec 32)
  | i64 (bits : BitVec 64)
  | f32 (bits : BitVec 32)
  | f64 (bits : BitVec 64)
  | v128 (bits : BitVec 128)
  /-- A function, or null. -/
  | ref (target : Option UInt32)
  deriving Repr, DecidableEq

namespace Value

instance : Inhabited Value := ⟨.i32 0⟩

/-- What a local of this type holds at first. -/
def zero : ValType → Value
  | .i32 => .i32 0
  | .i64 => .i64 0
  | .f32 => .f32 0
  | .f64 => .f64 0
  | .v128 => .v128 0
  | .ref _ => .ref none

/-- Whether a value is of a type. References are to functions, or null. -/
def hasType : Value → ValType → Bool
  | .i32 _, .i32 | .i64 _, .i64 | .f32 _, .f32 | .f64 _, .f64 | .v128 _, .v128 => true
  | .ref none, .ref type => type.nullable
  | .ref (some _), .ref type => type.heap = .abstract false .func
  | _, _ => false

def isNull : Value → Bool
  | .ref none => true
  | _ => false

/-! ## Integers -/

def ofInt : (w : Width) → BitVec w.bits → Value
  | .w32, v => .i32 v
  | .w64, v => .i64 v

def ofBool (b : Bool) : Value := .i32 (if b then 1 else 0)

def ofWord (n : UInt32) : Value := .i32 n.toBitVec

/-- The lower 32 bits of `n`. -/
def ofNat (n : Nat) : Value := .i32 (BitVec.ofNat 32 n)

def int : (w : Width) → Value → Except Trap (BitVec w.bits)
  | .w32, .i32 v => .ok v
  | .w64, .i64 v => .ok v
  | _, _ => .error .unreachable

/-! ## Addresses and sizes

A memory or a table counts in 32 bits or in 64 bits.
-/

/-- The lower bits of `n`. -/
def ofIndex (is64 : Bool) (n : Nat) : Value :=
  if is64 then .i64 (BitVec.ofNat 64 n) else .ofNat n

/-- What stands for no size at all. -/
def noIndex (is64 : Bool) : Value :=
  if is64 then .i64 (BitVec.allOnes 64) else .i32 (BitVec.allOnes 32)

def index : Value → Except Trap Nat
  | .i32 v => .ok v.toNat
  | .i64 v => .ok v.toNat
  | _ => .error .unreachable

/-! ## Floating-point numbers -/

/-- The float with the lower bits of a number. -/
def ofFloat : Width → Nat → Value
  | .w32, bits => .f32 (BitVec.ofNat 32 bits)
  | .w64, bits => .f64 (BitVec.ofNat 64 bits)

/-- The bits of a float. -/
def float : Width → Value → Except Trap Nat
  | .w32, .f32 v => .ok v.toNat
  | .w64, .f64 v => .ok v.toNat
  | _, _ => .error .unreachable

/-! ## Vectors and references -/

def vector : Value → Except Trap (BitVec 128)
  | .v128 v => .ok v
  | _ => .error .unreachable

def reference : Value → Except Trap (Option UInt32)
  | .ref target => .ok target
  | _ => .error .unreachable

theorem hasType_zero (type : ValType) (h : ∀ r, type = .ref r → r.nullable = true) :
    (zero type).hasType type = true := by
  cases type <;> simp_all [zero, hasType]

end Value

end MeteredWasm.Wasm
