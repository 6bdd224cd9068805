import MeteredWasm.Wasm.Arithmetic.Lanes
import MeteredWasm.Wasm.Operator.Access

/-!
# Values in memory

How many bytes an access touches and how a value is made of them. Bytes are taken as one
little-endian number.
-/

set_option autoImplicit false

namespace MeteredWasm.Wasm

/-! ## Loads -/

def Load.bytes (op : Load) : Nat := 1 <<< op.align

/-- The value of loaded bytes. -/
def Load.value (op : Load) (n : Nat) : Value :=
  match op with
  | .i32 => .i32 (BitVec.ofNat 32 n)
  | .i64 => .i64 (BitVec.ofNat 64 n)
  | .f32 => .f32 (BitVec.ofNat 32 n)
  | .f64 => .f64 (BitVec.ofNat 64 n)
  | .i32From8 s => .i32 (s.resize (BitVec.ofNat 8 n) 32)
  | .i32From16 s => .i32 (s.resize (BitVec.ofNat 16 n) 32)
  | .i64From8 s => .i64 (s.resize (BitVec.ofNat 8 n) 64)
  | .i64From16 s => .i64 (s.resize (BitVec.ofNat 16 n) 64)
  | .i64From32 s => .i64 (s.resize (BitVec.ofNat 32 n) 64)

def VectorLoad.bytes (op : VectorLoad) : Nat := 1 <<< op.align

def VectorLoad.value (op : VectorLoad) (n : Nat) : BitVec 128 :=
  match op with
  | .full => BitVec.ofNat 128 n
  | .widen w s =>
    let bits := w.lane.bits
    ofLanes ((halfLanes .low bits (BitVec.ofNat 128 n)).map fun a => s.resize a (2 * bits))
  | .splat w => ofLanes (List.replicate w.count (BitVec.ofNat w.bits n))
  | .zeroExtend _ => BitVec.ofNat 128 n

/-! ## Stores -/

def Store.bytes (op : Store) : Nat := 1 <<< op.align

/-- The number to store; its lower bytes are written. -/
def Store.number (op : Store) (v : Value) : Except Trap Nat :=
  match op with
  | .i32 | .i32To8 | .i32To16 => do return (← v.int .w32).toNat
  | .i64 | .i64To8 | .i64To16 | .i64To32 => do return (← v.int .w64).toNat
  | .f32 => v.float .w32
  | .f64 => v.float .w64

/-! ## Atomic accesses -/

def AtomicWidth.bytes (width : AtomicWidth) : Nat := 1 <<< width.align

/-- The number that takes the place of `old`, which stands in `n` bits. -/
def AtomicAction.combine (action : AtomicAction) (n : Nat) (old operand : Nat) : Nat :=
  let a := BitVec.ofNat n old
  let b := BitVec.ofNat n operand
  match action with
  | .add => (a + b).toNat
  | .sub => (a - b).toNat
  | .and => (a &&& b).toNat
  | .or => (a ||| b).toNat
  | .xor => (a ^^^ b).toNat
  | .exchange | .store => b.toNat
  | .load | .compareExchange => old

end MeteredWasm.Wasm
