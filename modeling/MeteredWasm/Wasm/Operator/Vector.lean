import MeteredWasm.Wasm.Operator.Numeric

/-!
# Vector operators

Operators on 128-bit vectors, seen as lanes of integers or floats. An operator is its opcode (the
number after the byte `0xFD`) together with what the table says the opcode means, so no operator
exists that cannot be written down. Operators that touch memory or carry a lane index are not in
this table: they have immediates.
-/

set_option autoImplicit false

namespace MeteredWasm.Wasm

/-- Integer lanes, by the width of a lane. -/
inductive LaneWidth
  | w8 | w16 | w32 | w64
  deriving Repr, DecidableEq, Inhabited

def LaneWidth.bits : LaneWidth → Nat
  | .w8 => 8
  | .w16 => 16
  | .w32 => 32
  | .w64 => 64

/-- How many lanes a vector has. -/
def LaneWidth.count (w : LaneWidth) : Nat := 128 / w.bits

def LaneWidth.bytes (w : LaneWidth) : Nat := w.bits / 8

def Width.lane : Width → LaneWidth
  | .w32 => .w32
  | .w64 => .w64

/-- The width of lanes that there is a double of. -/
inductive NarrowWidth
  | w8 | w16 | w32
  deriving Repr, DecidableEq

def NarrowWidth.lane : NarrowWidth → LaneWidth
  | .w8 => .w8
  | .w16 => .w16
  | .w32 => .w32

/-- What a lane holds outside the vector: small integers travel as `i32`. -/
inductive LaneShape
  | int (width : LaneWidth)
  | float (width : Width)
  deriving Repr, DecidableEq

def LaneShape.scalar : LaneShape → ValType
  | .int .w64 => .i64
  | .int _ => .i32
  | .float width => width.float

def LaneShape.width : LaneShape → LaneWidth
  | .int width => width
  | .float width => width.lane

inductive LaneBinary
  | add | sub | mul
  | addSat (sign : Sign)
  | subSat (sign : Sign)
  | min (sign : Sign)
  | max (sign : Sign)
  /-- The mean of two unsigned numbers, halves rounded up. -/
  | average
  /-- Product of two signed fractions of 15 bits, rounded and saturated. -/
  | q15Mul
  deriving Repr, DecidableEq

inductive LaneUnary
  | abs | neg | popcnt
  deriving Repr, DecidableEq

inductive LaneShift
  | left
  | right (sign : Sign)
  deriving Repr, DecidableEq

inductive Half
  | low | high
  deriving Repr, DecidableEq

inductive LaneFloatBinary
  | arith (op : FloatBinary)
  /-- `b < a ? b : a` -/
  | pmin
  /-- `a < b ? b : a` -/
  | pmax
  deriving Repr, DecidableEq

inductive VectorOp
  | swizzle
  | splat (shape : LaneShape)
  | intRelation (width : LaneWidth) (op : IntRelation)
  | floatRelation (width : Width) (op : FloatRelation)
  | not | and | andNot | or | xor | bitSelect | anyTrue
  | allTrue (width : LaneWidth)
  | bitmask (width : LaneWidth)
  | intUnary (width : LaneWidth) (op : LaneUnary)
  | intBinary (width : LaneWidth) (op : LaneBinary)
  | shift (width : LaneWidth) (op : LaneShift)
  /-- Two vectors of lanes of `source`, saturated to half the width. -/
  | narrow (source : LaneWidth) (sign : Sign)
  /-- Sums of neighbours, at twice the width of `source`. -/
  | addPairs (source : LaneWidth) (sign : Sign)
  /-- One half of the lanes of `source`, at twice their width. -/
  | extend (half : Half) (source : LaneWidth) (sign : Sign)
  /-- Products of one half of the lanes of `source`, at twice their width. -/
  | extMul (half : Half) (source : LaneWidth) (sign : Sign)
  /-- Sums of neighbouring products of signed 16-bit lanes. -/
  | dot
  | floatUnary (width : Width) (op : FloatUnary)
  | floatBinary (width : Width) (op : LaneFloatBinary)
  /-- Saturating conversion to 32-bit integers; two 64-bit floats leave the upper lanes zero. -/
  | truncSat (source : Width) (sign : Sign)
  /-- Conversion of 32-bit integers; to 64-bit floats of the lower two lanes. -/
  | convert (target : Width) (sign : Sign)
  | demoteZero
  | promoteLow
  deriving Repr, DecidableEq

/-! ## Opcodes -/

namespace VectorOp

def intRelations (width : LaneWidth) : List (Option VectorOp) :=
  IntRelation.all.map fun op => some (.intRelation width op)

def floatRelations (width : Width) : List (Option VectorOp) :=
  FloatRelation.all.map fun op => some (.floatRelation width op)

def signedPair (op : Sign → VectorOp) : List (Option VectorOp) :=
  [some (op .signed), some (op .unsigned)]

def extensions (source : LaneWidth) : List (Option VectorOp) :=
  [some (.extend .low source .signed), some (.extend .high source .signed),
    some (.extend .low source .unsigned), some (.extend .high source .unsigned)]

def extMuls (source : LaneWidth) : List (Option VectorOp) :=
  [some (.extMul .low source .signed), some (.extMul .high source .signed),
    some (.extMul .low source .unsigned), some (.extMul .high source .unsigned)]

def shifts (width : LaneWidth) : List (Option VectorOp) :=
  [some (.shift width .left), some (.shift width (.right .signed)),
    some (.shift width (.right .unsigned))]

/-- Addition and subtraction with their saturating forms. -/
def sums (width : LaneWidth) : List (Option VectorOp) :=
  List.flatten
    [[some (.intBinary width .add)], signedPair (fun s => .intBinary width (.addSat s)),
      [some (.intBinary width .sub)], signedPair (fun s => .intBinary width (.subSat s))]

def extrema (width : LaneWidth) : List (Option VectorOp) :=
  List.flatten
    [signedPair (fun s => .intBinary width (.min s)),
      signedPair (fun s => .intBinary width (.max s))]

def floatArith (width : Width) : List (Option VectorOp) :=
  [some (.floatUnary width .abs), some (.floatUnary width .neg), none,
    some (.floatUnary width .sqrt), some (.floatBinary width (.arith .add)),
    some (.floatBinary width (.arith .sub)), some (.floatBinary width (.arith .mul)),
    some (.floatBinary width (.arith .div)), some (.floatBinary width (.arith .min)),
    some (.floatBinary width (.arith .max)), some (.floatBinary width .pmin),
    some (.floatBinary width .pmax)]

/-- Codes without a meaning. -/
def unused (count : Nat) : List (Option VectorOp) := List.replicate count none

/-- Codes 14 to 20: swizzle and splats. -/
def tableSplat : List (Option VectorOp) :=
  [some .swizzle, some (.splat (.int .w8)), some (.splat (.int .w16)), some (.splat (.int .w32)),
    some (.splat (.int .w64)), some (.splat (.float .w32)), some (.splat (.float .w64))]

/-- Codes 35 to 83: comparisons and bitwise operators. -/
def tableRelation : List (Option VectorOp) :=
  List.flatten
    [intRelations .w8, intRelations .w16, intRelations .w32, floatRelations .w32,
      floatRelations .w64,
      [some .not, some .and, some .andNot, some .or, some .xor, some .bitSelect, some .anyTrue]]

/-- Codes 94 to 127. -/
def tableByte : List (Option VectorOp) :=
  List.flatten
    [[some .demoteZero, some .promoteLow, some (.intUnary .w8 .abs), some (.intUnary .w8 .neg),
        some (.intUnary .w8 .popcnt), some (.allTrue .w8), some (.bitmask .w8)],
      signedPair (.narrow .w16),
      [some (.floatUnary .w32 .ceil), some (.floatUnary .w32 .floor),
        some (.floatUnary .w32 .trunc), some (.floatUnary .w32 .nearest)],
      shifts .w8, sums .w8, [some (.floatUnary .w64 .ceil), some (.floatUnary .w64 .floor)],
      extrema .w8, [some (.floatUnary .w64 .trunc), some (.intBinary .w8 .average)],
      signedPair (.addPairs .w8), signedPair (.addPairs .w16)]

/-- Codes 128 to 159. -/
def tableShort : List (Option VectorOp) :=
  List.flatten
    [[some (.intUnary .w16 .abs), some (.intUnary .w16 .neg), some (.intBinary .w16 .q15Mul),
        some (.allTrue .w16), some (.bitmask .w16)],
      signedPair (.narrow .w32), extensions .w8, shifts .w16, sums .w16,
      [some (.floatUnary .w64 .nearest), some (.intBinary .w16 .mul)], extrema .w16,
      [none, some (.intBinary .w16 .average)], extMuls .w8]

/-- Codes 160 to 191. -/
def tableWord : List (Option VectorOp) :=
  List.flatten
    [[some (.intUnary .w32 .abs), some (.intUnary .w32 .neg), none, some (.allTrue .w32),
        some (.bitmask .w32), none, none],
      extensions .w16, shifts .w32,
      [some (.intBinary .w32 .add), none, none, some (.intBinary .w32 .sub), none, none, none,
        some (.intBinary .w32 .mul)],
      extrema .w32, [some .dot, none], extMuls .w16]

/-- Codes 192 to 223. -/
def tableDouble : List (Option VectorOp) :=
  List.flatten
    [[some (.intUnary .w64 .abs), some (.intUnary .w64 .neg), none, some (.allTrue .w64),
        some (.bitmask .w64), none, none],
      extensions .w32, shifts .w64,
      [some (.intBinary .w64 .add), none, none, some (.intBinary .w64 .sub), none, none, none,
        some (.intBinary .w64 .mul), some (.intRelation .w64 .eq), some (.intRelation .w64 .ne),
        some (.intRelation .w64 .ltS), some (.intRelation .w64 .gtS),
        some (.intRelation .w64 .leS), some (.intRelation .w64 .geS)],
      extMuls .w32]

/-- Codes 224 to 255: floating-point arithmetic and conversions. -/
def tableFloat : List (Option VectorOp) :=
  List.flatten
    [floatArith .w32, floatArith .w64, signedPair (.truncSat .w32), signedPair (.convert .w32),
      signedPair (.truncSat .w64), signedPair (.convert .w64)]

/-- What each code means, from code 14 on. -/
def table : List (Option VectorOp) :=
  List.flatten
    [tableSplat, unused 14, tableRelation, unused 10, tableByte, tableShort, tableWord, tableDouble,
      tableFloat]

def firstCode : Nat := 14

def ofCode? (code : Nat) : Option VectorOp :=
  if firstCode ≤ code then (table[code - firstCode]?).join else none

/-! ## Types -/

/-- Operand types, last operand last, and the result type. -/
def signature : VectorOp → List ValType × ValType
  | .splat shape => ([shape.scalar], .v128)
  | .not | .intUnary .. | .addPairs .. | .extend .. | .floatUnary .. | .truncSat .. | .convert ..
  | .demoteZero | .promoteLow => ([.v128], .v128)
  | .anyTrue | .allTrue _ | .bitmask _ => ([.v128], .i32)
  | .shift .. => ([.v128, .i32], .v128)
  | .bitSelect => ([.v128, .v128, .v128], .v128)
  | .swizzle | .intRelation .. | .floatRelation .. | .and | .andNot | .or | .xor | .intBinary ..
  | .narrow .. | .extMul .. | .dot | .floatBinary .. => ([.v128, .v128], .v128)

end VectorOp

/-- A vector operator without immediates. -/
structure VectorInstr where
  code : Nat
  op : VectorOp
  listed : VectorOp.ofCode? code = some op

namespace VectorInstr

/-- The operator with this code. -/
def ofCode? (code : Nat) : Option VectorInstr :=
  match h : VectorOp.ofCode? code with
  | some op => some ⟨code, op, h⟩
  | none => none

theorem eq_of_code {i j : VectorInstr} (h : i.code = j.code) : i = j := by
  obtain ⟨ci, oi, hi⟩ := i
  obtain ⟨cj, oj, hj⟩ := j
  obtain rfl : ci = cj := h
  obtain rfl : oi = oj := by rw [hi] at hj; exact Option.some.inj hj
  rfl

instance : DecidableEq VectorInstr := fun i j =>
  if h : i.code = j.code then isTrue (eq_of_code h) else isFalse fun e => h (by rw [e])

theorem ofCode?_code (i : VectorInstr) : ofCode? i.code = some i := by
  unfold ofCode?
  split
  · exact congrArg some (eq_of_code rfl)
  · rename_i h; rw [i.listed] at h; cases h

end VectorInstr

end MeteredWasm.Wasm
