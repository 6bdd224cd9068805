import MeteredWasm.Wasm.Arithmetic.Numeric
import MeteredWasm.Wasm.Operator.Basic

/-!
# Vector operators on values

A vector is taken apart into lanes, lowest first, and put together again. Operators work lane by
lane, on pairs of neighbours, or on one half of the lanes at twice the width.
-/

set_option autoImplicit false

namespace MeteredWasm.Wasm

/-! ## Lanes -/

/-- The `count` lanes of `n` bits from lane `first` on. -/
def lanesFrom (n first count : Nat) (v : BitVec 128) : List (BitVec n) :=
  (List.range count).map fun i => v.extractLsb' ((first + i) * n) n

def lanes (n : Nat) (v : BitVec 128) : List (BitVec n) := lanesFrom n 0 (128 / n) v

/-- The vector with these lanes; lanes that are missing are zero. -/
def ofLanes {n : Nat} : List (BitVec n) → BitVec 128
  | [] => 0
  | a :: rest => (ofLanes rest <<< n) ||| a.setWidth 128

def mapLanes (n : Nat) (f : BitVec n → BitVec n) (v : BitVec 128) : BitVec 128 :=
  ofLanes ((lanes n v).map f)

def zipLanes (n : Nat) (f : BitVec n → BitVec n → BitVec n) (u v : BitVec 128) : BitVec 128 :=
  ofLanes (List.zipWith f (lanes n u) (lanes n v))

/-- A lane of all ones or all zeros. -/
def mask (n : Nat) (b : Bool) : BitVec n := if b then BitVec.allOnes n else 0

/-- The lanes of `n` bits in one half. -/
def halfLanes (half : Half) (n : Nat) (v : BitVec 128) : List (BitVec n) :=
  match half with
  | .low => lanesFrom n 0 (64 / n) v
  | .high => lanesFrom n (64 / n) (64 / n) v

/-- Sums of neighbours. -/
def pairSums {n : Nat} : List (BitVec n) → List (BitVec n)
  | a :: b :: rest => (a + b) :: pairSums rest
  | _ => []

/-- The lane with this number; zero if there is none. -/
def laneAt (n index : Nat) (v : BitVec 128) : BitVec n := v.extractLsb' (index * n) n

def replaceLaneAt {n : Nat} (index : Nat) (a : BitVec n) (v : BitVec 128) : BitVec 128 :=
  ofLanes ((lanes n v).set index a)

/-- The bytes of `table` that `indices` say; zero where an index is too large. -/
def lookUpBytes (table : List (BitVec 8)) (indices : BitVec 128) : BitVec 128 :=
  ofLanes ((lanes 8 indices).map fun i => (table[i.toNat]?).getD 0)

/-! ## Operators on one lane -/

def LaneUnary.eval {n : Nat} (op : LaneUnary) (a : BitVec n) : BitVec n :=
  match op with
  | .abs => if a.slt 0 then -a else a
  | .neg => -a
  | .popcnt => BitVec.ofNat n (countOnes a n)

def LaneBinary.eval {n : Nat} (op : LaneBinary) (a b : BitVec n) : BitVec n :=
  match op with
  | .add => a + b
  | .sub => a - b
  | .mul => a * b
  | .addSat s => s.saturate n (s.value a + s.value b)
  | .subSat s => s.saturate n (s.value a - s.value b)
  | .min s => if s.value a ≤ s.value b then a else b
  | .max s => if s.value a ≤ s.value b then b else a
  | .average => BitVec.ofNat n ((a.toNat + b.toNat + 1) / 2)
  | .q15Mul => Sign.signed.saturate n ((a.toInt * b.toInt + 0x4000) / 0x8000)

def LaneShift.eval {n : Nat} (op : LaneShift) (amount : Nat) (a : BitVec n) : BitVec n :=
  match op with
  | .left => a <<< (amount % n)
  | .right .signed => a.sshiftRight (amount % n)
  | .right .unsigned => a >>> (amount % n)

def LaneFloatBinary.eval (op : LaneFloatBinary) (f : Ieee.Format) (x y : Nat) : Nat :=
  match op with
  | .arith op => op.eval f x y
  | .pmin => if f.compare? y x = some .lt then y else x
  | .pmax => if f.compare? x y = some .lt then y else x

/-! ## Operators on vectors -/

def VectorOp.evalUnary (op : VectorOp) (v : BitVec 128) : BitVec 128 :=
  match op with
  | .not => ~~~v
  | .intUnary w op => mapLanes w.bits op.eval v
  | .addPairs w s => ofLanes (pairSums ((lanes w.bits v).map fun a => s.resize a (2 * w.bits)))
  | .extend half w s => ofLanes ((halfLanes half w.bits v).map fun a => s.resize a (2 * w.bits))
  | .floatUnary w op =>
    mapLanes w.bits (fun a => BitVec.ofNat _ (op.eval w.format a.toNat)) v
  | .truncSat source s =>
    ofLanes ((lanes source.bits v).map fun a => truncateSat source 32 s a.toNat)
  | .convert .w32 s =>
    mapLanes 32 (fun a => BitVec.ofNat _ (Ieee.Format.single.ofInt (s.value a))) v
  | .convert .w64 s =>
    ofLanes ((halfLanes .low 32 v).map fun a =>
      BitVec.ofNat 64 (Ieee.Format.double.ofInt (s.value a)))
  | .demoteZero =>
    ofLanes ((lanes 64 v).map fun a =>
      BitVec.ofNat 32 (Ieee.Format.single.convert .double a.toNat))
  | .promoteLow =>
    ofLanes ((halfLanes .low 32 v).map fun a =>
      BitVec.ofNat 64 (Ieee.Format.double.convert .single a.toNat))
  | _ => v

def VectorOp.evalBinary (op : VectorOp) (u v : BitVec 128) : BitVec 128 :=
  match op with
  | .swizzle => lookUpBytes (lanes 8 u) v
  | .intRelation w op => zipLanes w.bits (fun a b => mask _ (op.eval a b)) u v
  | .floatRelation w op =>
    zipLanes w.bits (fun a b => mask _ (op.eval w.format a.toNat b.toNat)) u v
  | .and => u &&& v
  | .andNot => u &&& ~~~v
  | .or => u ||| v
  | .xor => u ^^^ v
  | .intBinary w op => zipLanes w.bits op.eval u v
  | .narrow w s =>
    ofLanes ((lanes w.bits u ++ lanes w.bits v).map fun a => s.saturate (w.bits / 2) a.toInt)
  | .extMul half w s =>
    ofLanes (List.zipWith (fun a b => s.resize a (2 * w.bits) * s.resize b (2 * w.bits))
      (halfLanes half w.bits u) (halfLanes half w.bits v))
  | .dot =>
    ofLanes (pairSums (List.zipWith (fun a b => a.signExtend 32 * b.signExtend 32)
      (lanes 16 u) (lanes 16 v)))
  | .floatBinary w op =>
    zipLanes w.bits (fun a b => BitVec.ofNat _ (op.eval w.format a.toNat b.toNat)) u v
  | _ => v

/-- The tests that leave a number. -/
def VectorOp.evalTest (op : VectorOp) (v : BitVec 128) : BitVec 32 :=
  match op with
  | .anyTrue => if v = 0 then 0 else 1
  | .allTrue w => if (lanes w.bits v).all (· ≠ 0) then 1 else 0
  | .bitmask w =>
    BitVec.ofNat 32 ((lanes w.bits v).foldr (fun a rest => a.msb.toNat + 2 * rest) 0)
  | _ => 0

/-- All lanes the same. -/
def LaneShape.splat (shape : LaneShape) (v : Value) : Except Trap (BitVec 128) :=
  match shape with
  | .int .w64 => do return ofLanes (List.replicate 2 (← v.int .w64))
  | .int w => do
    return ofLanes (List.replicate w.count ((← v.int .w32).setWidth w.bits))
  | .float w => do
    return ofLanes (List.replicate w.lane.count (BitVec.ofNat w.lane.bits (← v.float w)))

/-- Takes the operands off the stack and puts the result on it. -/
def VectorOp.eval : VectorOp → List Value → Except Trap (List Value)
  | .splat shape, a :: vs => do return .v128 (← shape.splat a) :: vs
  | .bitSelect, c :: b :: a :: vs => do
    let (a, b, c) := (← a.vector, ← b.vector, ← c.vector)
    return .v128 ((a &&& c) ||| (b &&& ~~~c)) :: vs
  | .shift w op, b :: a :: vs => do
    let amount ← b.int .w32
    return .v128 (mapLanes w.bits (op.eval amount.toNat) (← a.vector)) :: vs
  | op, a :: vs =>
    match op.signature with
    | ([_], .i32) => do return .i32 (op.evalTest (← a.vector)) :: vs
    | ([_], _) => do return .v128 (op.evalUnary (← a.vector)) :: vs
    | _ =>
      match vs with
      | b :: vs => do return .v128 (op.evalBinary (← b.vector) (← a.vector)) :: vs
      | [] => .error .unreachable
  | _, [] => .error .unreachable

/-! ## Lane operators -/

def LaneExtract.eval (op : LaneExtract) (lane : Nat) (v : BitVec 128) : Value :=
  match op with
  | .i8 s => .i32 (s.resize (laneAt 8 lane v) 32)
  | .i16 s => .i32 (s.resize (laneAt 16 lane v) 32)
  | .i32 => .i32 (laneAt 32 lane v)
  | .i64 => .i64 (laneAt 64 lane v)
  | .f32 => .f32 (laneAt 32 lane v)
  | .f64 => .f64 (laneAt 64 lane v)

/-- The vector with one lane replaced by a scalar. -/
def replaceLaneBy (shape : LaneShape) (lane : Nat) (a : Value) (v : BitVec 128) :
    Except Trap (BitVec 128) :=
  match shape with
  | .int .w64 => do return replaceLaneAt lane (← a.int .w64) v
  | .int w => do return replaceLaneAt lane ((← a.int .w32).setWidth w.bits) v
  | .float w => do return replaceLaneAt lane (BitVec.ofNat w.bits (← a.float w)) v

end MeteredWasm.Wasm
