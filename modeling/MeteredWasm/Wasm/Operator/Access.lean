import MeteredWasm.Wasm.Operator.Basic

/-!
# Widths and types of memory accesses

How many bytes an access touches, which bounds its alignment, and the type of the value it loads or
stores.
-/

set_option autoImplicit false

namespace MeteredWasm.Wasm

/-- The bytes that an access touches, as a binary logarithm. -/
def Load.align : Load → Nat
  | .i32 | .f32 | .i64From32 _ => 2
  | .i64 | .f64 => 3
  | .i32From8 _ | .i64From8 _ => 0
  | .i32From16 _ | .i64From16 _ => 1

def Load.type : Load → ValType
  | .i32 | .i32From8 _ | .i32From16 _ => .i32
  | .i64 | .i64From8 _ | .i64From16 _ | .i64From32 _ => .i64
  | .f32 => .f32
  | .f64 => .f64

def Store.align : Store → Nat
  | .i32 | .f32 | .i64To32 => 2
  | .i64 | .f64 => 3
  | .i32To8 | .i64To8 => 0
  | .i32To16 | .i64To16 => 1

def Store.type : Store → ValType
  | .i32 | .i32To8 | .i32To16 => .i32
  | .i64 | .i64To8 | .i64To16 | .i64To32 => .i64
  | .f32 => .f32
  | .f64 => .f64

def LaneWidth.align : LaneWidth → Nat
  | .w8 => 0
  | .w16 => 1
  | .w32 => 2
  | .w64 => 3

def VectorLoad.align : VectorLoad → Nat
  | .full => 4
  | .widen _ _ => 3
  | .splat width => width.align
  | .zeroExtend width => width.lane.align

def AtomicWidth.align : AtomicWidth → Nat
  | .i32 | .i64Low32 => 2
  | .i64 => 3
  | .i32Low8 | .i64Low8 => 0
  | .i32Low16 | .i64Low16 => 1

/-- The integers that an atomic access takes and leaves. -/
def AtomicWidth.word : AtomicWidth → Width
  | .i32 | .i32Low8 | .i32Low16 => .w32
  | .i64 | .i64Low8 | .i64Low16 | .i64Low32 => .w64

def AtomicWidth.type (width : AtomicWidth) : ValType := width.word.int

def LaneExtract.type : LaneExtract → ValType
  | .i8 _ | .i16 _ | .i32 => .i32
  | .i64 => .i64
  | .f32 => .f32
  | .f64 => .f64

end MeteredWasm.Wasm
