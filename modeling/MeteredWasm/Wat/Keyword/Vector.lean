import MeteredWasm.Wat.Keyword.Core

/-!
# Keywords of vector operators

The name of a vector operator starts with the shape of its result, or of its operands if it is a
test; where the lanes of the operands are of another shape, that follows the name of the operation.
-/

set_option autoImplicit false

namespace MeteredWasm.Wat.Keyword

open Wasm

/-! ## Shapes -/

/-- The shape of a vector of integers. -/
def intShape : LaneWidth → String
  | .w8 => "i8x16"
  | .w16 => "i16x8"
  | .w32 => "i32x4"
  | .w64 => "i64x2"

/-- The shape of a vector of floats. -/
def floatShape : Width → String
  | .w32 => "f32x4"
  | .w64 => "f64x2"

def shape : LaneShape → String
  | .int width => intShape width
  | .float width => floatShape width

/-- Lanes of twice the width; the widest ones stay. -/
def doubled : LaneWidth → LaneWidth
  | .w8 => .w16
  | .w16 => .w32
  | .w32 | .w64 => .w64

/-- Lanes of half the width; the narrowest ones stay. -/
def halved : LaneWidth → LaneWidth
  | .w8 | .w16 => .w8
  | .w32 => .w16
  | .w64 => .w32

/-! ## Operations -/

def intRelationName : IntRelation → String
  | .eq => "eq"
  | .ne => "ne"
  | .ltS => "lt_s"
  | .ltU => "lt_u"
  | .gtS => "gt_s"
  | .gtU => "gt_u"
  | .leS => "le_s"
  | .leU => "le_u"
  | .geS => "ge_s"
  | .geU => "ge_u"

def floatRelationName : FloatRelation → String
  | .eq => "eq"
  | .ne => "ne"
  | .lt => "lt"
  | .gt => "gt"
  | .le => "le"
  | .ge => "ge"

def floatUnaryName : FloatUnary → String
  | .abs => "abs"
  | .neg => "neg"
  | .ceil => "ceil"
  | .floor => "floor"
  | .trunc => "trunc"
  | .nearest => "nearest"
  | .sqrt => "sqrt"

def floatBinaryName : LaneFloatBinary → String
  | .arith .add => "add"
  | .arith .sub => "sub"
  | .arith .mul => "mul"
  | .arith .div => "div"
  | .arith .min => "min"
  | .arith .max => "max"
  | .arith .copysign => "copysign"
  | .pmin => "pmin"
  | .pmax => "pmax"

def laneUnaryName : LaneUnary → String
  | .abs => "abs"
  | .neg => "neg"
  | .popcnt => "popcnt"

def laneBinaryName : LaneBinary → String
  | .add => "add"
  | .sub => "sub"
  | .mul => "mul"
  | .addSat sign => "add_sat" ++ signEnding sign
  | .subSat sign => "sub_sat" ++ signEnding sign
  | .min sign => "min" ++ signEnding sign
  | .max sign => "max" ++ signEnding sign
  | .average => "avgr_u"
  | .q15Mul => "q15mulr_sat_s"

def laneShiftName : LaneShift → String
  | .left => "shl"
  | .right sign => "shr" ++ signEnding sign

def halfName : Half → String
  | .low => "low_"
  | .high => "high_"

/-- The keyword of a vector operator without immediates. -/
def vectorName : VectorOp → String
  | .swizzle => "i8x16.swizzle"
  | .splat s => shape s ++ ".splat"
  | .intRelation width op => intShape width ++ "." ++ intRelationName op
  | .floatRelation width op => floatShape width ++ "." ++ floatRelationName op
  | .not => "v128.not"
  | .and => "v128.and"
  | .andNot => "v128.andnot"
  | .or => "v128.or"
  | .xor => "v128.xor"
  | .bitSelect => "v128.bitselect"
  | .anyTrue => "v128.any_true"
  | .allTrue width => intShape width ++ ".all_true"
  | .bitmask width => intShape width ++ ".bitmask"
  | .intUnary width op => intShape width ++ "." ++ laneUnaryName op
  | .intBinary width op => intShape width ++ "." ++ laneBinaryName op
  | .shift width op => intShape width ++ "." ++ laneShiftName op
  | .narrow source sign =>
    intShape (halved source) ++ ".narrow_" ++ intShape source ++ signEnding sign
  | .addPairs source sign =>
    intShape (doubled source) ++ ".extadd_pairwise_" ++ intShape source ++ signEnding sign
  | .extend half source sign =>
    intShape (doubled source) ++ ".extend_" ++ halfName half ++ intShape source ++ signEnding sign
  | .extMul half source sign =>
    intShape (doubled source) ++ ".extmul_" ++ halfName half ++ intShape source ++ signEnding sign
  | .dot => "i32x4.dot_i16x8_s"
  | .floatUnary width op => floatShape width ++ "." ++ floatUnaryName op
  | .floatBinary width op => floatShape width ++ "." ++ floatBinaryName op
  | .truncSat .w32 sign => "i32x4.trunc_sat_f32x4" ++ signEnding sign
  | .truncSat .w64 sign => "i32x4.trunc_sat_f64x2" ++ signEnding sign ++ "_zero"
  | .convert .w32 sign => "f32x4.convert_i32x4" ++ signEnding sign
  | .convert .w64 sign => "f64x2.convert_low_i32x4" ++ signEnding sign
  | .demoteZero => "f32x4.demote_f64x2_zero"
  | .promoteLow => "f64x2.promote_low_f32x4"

/-- The vector operators without immediates, in opcode order. -/
def vectorInstrs : List VectorInstr := (List.range 256).filterMap VectorInstr.ofCode?

/-! ## Lanes and memory -/

def laneExtracts : List (String × Form) :=
  [LaneExtract.i8 .signed, .i8 .unsigned, .i16 .signed, .i16 .unsigned, .i32, .i64, .f32, .f64].map
    fun op => (extractName op, .lane (.extractLane op))
where
  extractName : LaneExtract → String
    | .i8 sign => "i8x16.extract_lane" ++ signEnding sign
    | .i16 sign => "i16x8.extract_lane" ++ signEnding sign
    | .i32 => "i32x4.extract_lane"
    | .i64 => "i64x2.extract_lane"
    | .f32 => "f32x4.extract_lane"
    | .f64 => "f64x2.extract_lane"

def laneReplaces : List (String × Form) :=
  [LaneShape.int .w8, .int .w16, .int .w32, .int .w64, .float .w32, .float .w64].map fun s =>
    (shape s ++ ".replace_lane", .lane (.replaceLane s))

def vectorLoadName : VectorLoad → String
  | .full => "v128.load"
  | .widen .w8 sign => "v128.load8x8" ++ signEnding sign
  | .widen .w16 sign => "v128.load16x4" ++ signEnding sign
  | .widen .w32 sign => "v128.load32x2" ++ signEnding sign
  | .splat width => "v128.load" ++ toString width.bits ++ "_splat"
  | .zeroExtend width => "v128.load" ++ toString width.bits ++ "_zero"

def vectorLoads : List VectorLoad :=
  [.full, .widen .w8 .signed, .widen .w8 .unsigned, .widen .w16 .signed, .widen .w16 .unsigned,
    .widen .w32 .signed, .widen .w32 .unsigned, .splat .w8, .splat .w16, .splat .w32, .splat .w64,
    .zeroExtend .w32, .zeroExtend .w64]

def laneWidths : List LaneWidth := [.w8, .w16, .w32, .w64]

def vectorAccesses : List (String × Form) :=
  List.flatten
    [vectorLoads.map fun op => (vectorLoadName op, .access op.align (.vectorLoad op)),
      [("v128.store", .access 4 .vectorStore)],
      laneWidths.map fun width =>
        ("v128.load" ++ toString width.bits ++ "_lane", .laneAccess width.align (.loadLane width)),
      laneWidths.map fun width =>
        ("v128.store" ++ toString width.bits ++ "_lane",
          .laneAccess width.align (.storeLane width))]

/-- The keywords of operators on vectors. -/
def vector : List (String × Form) :=
  List.flatten
    [vectorInstrs.map fun op => (vectorName op.op, .plain (.vector op)), laneExtracts, laneReplaces,
      vectorAccesses]

end MeteredWasm.Wat.Keyword
