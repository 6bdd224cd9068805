import MeteredWasm.Machine.Instance
import MeteredWasm.Wasm.Arithmetic.Lanes

/-!
# Relaxed vector operators

Results that the hardware may choose: those of the operators that are not relaxed, as far as there
are such. Multiplication and addition are rounded one after the other.
-/

set_option autoImplicit false

namespace MeteredWasm.Machine

open Wasm

def multiplyAdd (width : Width) (a b c : BitVec 128) : BitVec 128 :=
  (VectorOp.floatBinary width (.arith .add)).evalBinary
    ((VectorOp.floatBinary width (.arith .mul)).evalBinary a b) c

/-- Sums of neighbouring products of signed bytes, in 16 bits. -/
def byteDot (a b : BitVec 128) : BitVec 128 :=
  ofLanes (pairSums (List.zipWith (fun x y => BitVec.signExtend 16 x * BitVec.signExtend 16 y)
    (lanes 8 a) (lanes 8 b)))

def selectBits (a b mask : BitVec 128) : BitVec 128 := (a &&& mask) ||| (b &&& ~~~mask)

def strictResults : RelaxedResults := fun code vectors =>
  match code, vectors with
  | 0x100, [a, b] => VectorOp.swizzle.evalBinary a b
  | 0x101, [a] => (VectorOp.truncSat .w32 .signed).evalUnary a
  | 0x102, [a] => (VectorOp.truncSat .w32 .unsigned).evalUnary a
  | 0x103, [a] => (VectorOp.truncSat .w64 .signed).evalUnary a
  | 0x104, [a] => (VectorOp.truncSat .w64 .unsigned).evalUnary a
  | 0x105, [a, b, c] => multiplyAdd .w32 a b c
  | 0x106, [a, b, c] => multiplyAdd .w32 ((VectorOp.floatUnary .w32 .neg).evalUnary a) b c
  | 0x107, [a, b, c] => multiplyAdd .w64 a b c
  | 0x108, [a, b, c] => multiplyAdd .w64 ((VectorOp.floatUnary .w64 .neg).evalUnary a) b c
  | 0x109, [a, b, c] | 0x10A, [a, b, c] | 0x10B, [a, b, c] | 0x10C, [a, b, c] => selectBits a b c
  | 0x10D, [a, b] => (VectorOp.floatBinary .w32 (.arith .min)).evalBinary a b
  | 0x10E, [a, b] => (VectorOp.floatBinary .w32 (.arith .max)).evalBinary a b
  | 0x10F, [a, b] => (VectorOp.floatBinary .w64 (.arith .min)).evalBinary a b
  | 0x110, [a, b] => (VectorOp.floatBinary .w64 (.arith .max)).evalBinary a b
  | 0x111, [a, b] => (VectorOp.intBinary .w16 .q15Mul).evalBinary a b
  | 0x112, [a, b] => byteDot a b
  | 0x113, [a, b, c] =>
    (VectorOp.intBinary .w32 .add).evalBinary
      ((VectorOp.addPairs .w16 .signed).evalUnary (byteDot a b)) c
  | _, _ => 0

end MeteredWasm.Machine
