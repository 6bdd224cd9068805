import MeteredWasm.Wasm.Type.Basic

/-!
# Numeric operators

Arithmetic, comparison and conversion on the four number types. Operators come in families: the
same operation at each width. Opcodes follow the families, so the code of an operator is the start
of its family plus a place in it.
-/

set_option autoImplicit false

namespace MeteredWasm.Wasm

/-- The width of an integer or floating-point type. -/
inductive Width
  | w32 | w64
  deriving Repr, DecidableEq, Inhabited

def Width.bits : Width → Nat
  | .w32 => 32
  | .w64 => 64

def Width.int : Width → ValType
  | .w32 => .i32
  | .w64 => .i64

def Width.float : Width → ValType
  | .w32 => .f32
  | .w64 => .f64

inductive Sign
  | signed | unsigned
  deriving Repr, DecidableEq, Inhabited

inductive IntUnary
  | clz | ctz | popcnt
  deriving Repr, DecidableEq

inductive IntBinary
  | add | sub | mul | divS | divU | remS | remU | and | or | xor | shl | shrS | shrU | rotl | rotr
  deriving Repr, DecidableEq

inductive IntRelation
  | eq | ne | ltS | ltU | gtS | gtU | leS | leU | geS | geU
  deriving Repr, DecidableEq

inductive FloatUnary
  | abs | neg | ceil | floor | trunc | nearest | sqrt
  deriving Repr, DecidableEq

inductive FloatBinary
  | add | sub | mul | div | min | max | copysign
  deriving Repr, DecidableEq

inductive FloatRelation
  | eq | ne | lt | gt | le | ge
  deriving Repr, DecidableEq

/-- Operators that turn one number into a number of another type or width. -/
inductive Conversion
  | wrap
  | trunc (target : Width) (source : Width) (sign : Sign)
  | truncSat (target : Width) (source : Width) (sign : Sign)
  | extend (sign : Sign)
  | convert (target : Width) (source : Width) (sign : Sign)
  | demote
  | promote
  | reinterpretFloat (width : Width)
  | reinterpretInt (width : Width)
  | extend8 (width : Width)
  | extend16 (width : Width)
  | extend32
  deriving Repr, DecidableEq

inductive Numeric
  | eqz (width : Width)
  | intRelation (width : Width) (op : IntRelation)
  | floatRelation (width : Width) (op : FloatRelation)
  | intUnary (width : Width) (op : IntUnary)
  | intBinary (width : Width) (op : IntBinary)
  | floatUnary (width : Width) (op : FloatUnary)
  | floatBinary (width : Width) (op : FloatBinary)
  | convert (op : Conversion)
  deriving Repr, DecidableEq

/-! ## Families in opcode order -/

def IntUnary.all : List IntUnary := [.clz, .ctz, .popcnt]

def IntBinary.all : List IntBinary :=
  [.add, .sub, .mul, .divS, .divU, .remS, .remU, .and, .or, .xor, .shl, .shrS, .shrU, .rotl, .rotr]

def IntRelation.all : List IntRelation :=
  [.eq, .ne, .ltS, .ltU, .gtS, .gtU, .leS, .leU, .geS, .geU]

def FloatUnary.all : List FloatUnary := [.abs, .neg, .ceil, .floor, .trunc, .nearest, .sqrt]

def FloatBinary.all : List FloatBinary := [.add, .sub, .mul, .div, .min, .max, .copysign]

def FloatRelation.all : List FloatRelation := [.eq, .ne, .lt, .gt, .le, .ge]

/-- Comparisons of integers, the test for zero first. -/
def Numeric.intTests (width : Width) : List Numeric :=
  .eqz width :: IntRelation.all.map (.intRelation width)

def Numeric.intArithmetic (width : Width) : List Numeric :=
  List.append (IntUnary.all.map (.intUnary width)) (IntBinary.all.map (.intBinary width))

def Numeric.floatTests (width : Width) : List Numeric :=
  FloatRelation.all.map (.floatRelation width)

def Numeric.floatArithmetic (width : Width) : List Numeric :=
  List.append (FloatUnary.all.map (.floatUnary width)) (FloatBinary.all.map (.floatBinary width))

def Conversion.table : List Conversion :=
  [.wrap, .trunc .w32 .w32 .signed, .trunc .w32 .w32 .unsigned, .trunc .w32 .w64 .signed,
    .trunc .w32 .w64 .unsigned, .extend .signed, .extend .unsigned, .trunc .w64 .w32 .signed,
    .trunc .w64 .w32 .unsigned, .trunc .w64 .w64 .signed, .trunc .w64 .w64 .unsigned,
    .convert .w32 .w32 .signed, .convert .w32 .w32 .unsigned, .convert .w32 .w64 .signed,
    .convert .w32 .w64 .unsigned, .demote, .convert .w64 .w32 .signed,
    .convert .w64 .w32 .unsigned, .convert .w64 .w64 .signed, .convert .w64 .w64 .unsigned,
    .promote, .reinterpretFloat .w32, .reinterpretFloat .w64, .reinterpretInt .w32,
    .reinterpretInt .w64, .extend8 .w32, .extend16 .w32, .extend8 .w64, .extend16 .w64, .extend32]

/-- The operators of one byte, from opcode `0x45` on. -/
def Numeric.table : List Numeric :=
  List.flatten
    [intTests .w32, intTests .w64, floatTests .w32, floatTests .w64, intArithmetic .w32,
      intArithmetic .w64, floatArithmetic .w32, floatArithmetic .w64,
      Conversion.table.map .convert]

/-- The saturating conversions, whose code follows the byte `0xFC`. -/
def Numeric.saturatingTable : List Numeric :=
  [ .truncSat .w32 .w32 .signed, .truncSat .w32 .w32 .unsigned, .truncSat .w32 .w64 .signed,
    .truncSat .w32 .w64 .unsigned, .truncSat .w64 .w32 .signed, .truncSat .w64 .w32 .unsigned,
    .truncSat .w64 .w64 .signed, .truncSat .w64 .w64 .unsigned ].map .convert

def Numeric.firstCode : Nat := 0x45

/-- The operator with a one-byte opcode. -/
def Numeric.ofCode? (code : Nat) : Option Numeric :=
  if firstCode ≤ code then table[code - firstCode]? else none

def Numeric.ofSaturatingCode? (code : Nat) : Option Numeric := saturatingTable[code]?

/-- Whether the opcode of an operator follows the byte `0xFC`. -/
def Numeric.isSaturating : Numeric → Bool
  | .convert (.truncSat ..) => true
  | _ => false

/-- The opcode, in the table that `isSaturating` says. -/
def Numeric.code (op : Numeric) : Nat :=
  if op.isSaturating then saturatingTable.idxOf op else firstCode + table.idxOf op

/-! ## Types -/

/-- Operand types, last operand last, and the result type. -/
def Conversion.signature : Conversion → ValType × ValType
  | .wrap => (.i64, .i32)
  | .trunc target source _ | .truncSat target source _ => (source.float, target.int)
  | .extend _ => (.i32, .i64)
  | .convert target source _ => (source.int, target.float)
  | .demote => (.f64, .f32)
  | .promote => (.f32, .f64)
  | .reinterpretFloat width => (width.float, width.int)
  | .reinterpretInt width => (width.int, width.float)
  | .extend8 width | .extend16 width => (width.int, width.int)
  | .extend32 => (.i64, .i64)

def Numeric.signature : Numeric → List ValType × ValType
  | .eqz width => ([width.int], .i32)
  | .intRelation width _ => ([width.int, width.int], .i32)
  | .floatRelation width _ => ([width.float, width.float], .i32)
  | .intUnary width _ => ([width.int], width.int)
  | .intBinary width _ => ([width.int, width.int], width.int)
  | .floatUnary width _ => ([width.float], width.float)
  | .floatBinary width _ => ([width.float, width.float], width.float)
  | .convert op => ([op.signature.1], op.signature.2)

end MeteredWasm.Wasm
