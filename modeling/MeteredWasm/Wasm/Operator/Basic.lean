import MeteredWasm.Wasm.Operator.Proposal
import MeteredWasm.Wasm.Operator.Vector

/-!
# Operators

Code is a flat sequence of operators: `block`, `loop`, `ifThen` open a frame, `elseMark` and
`endMark` turn and close it. Operators that only compute (`numeric`, `vector`) are gathered in
families; what a module may not use but a reader must understand is a `proposal`.
-/

set_option autoImplicit false

namespace MeteredWasm.Wasm

/-! ## Memory accesses -/

inductive Load
  | i32 | i64 | f32 | f64
  | i32From8 (sign : Sign)
  | i32From16 (sign : Sign)
  | i64From8 (sign : Sign)
  | i64From16 (sign : Sign)
  | i64From32 (sign : Sign)
  deriving Repr, DecidableEq

inductive Store
  | i32 | i64 | f32 | f64 | i32To8 | i32To16 | i64To8 | i64To16 | i64To32
  deriving Repr, DecidableEq

inductive VectorLoad
  | full
  /-- Half a vector, its lanes doubled in width. -/
  | widen (source : NarrowWidth) (sign : Sign)
  | splat (width : LaneWidth)
  /-- One lane of 32 or 64 bits, the rest zero. -/
  | zeroExtend (width : Width)
  deriving Repr, DecidableEq

/-- The type and width of an atomic access: a whole word, or its low part. -/
inductive AtomicWidth
  | i32 | i64 | i32Low8 | i32Low16 | i64Low8 | i64Low16 | i64Low32
  deriving Repr, DecidableEq

inductive AtomicAction
  | load | store | add | sub | and | or | xor | exchange | compareExchange
  deriving Repr, DecidableEq

inductive LaneExtract
  | i8 (sign : Sign)
  | i16 (sign : Sign)
  | i32 | i64 | f32 | f64
  deriving Repr, DecidableEq

/-! ## Operators -/

inductive Operator
  | unreachable | nop
  | block (type : BlockType)
  | loop (type : BlockType)
  | ifThen (type : BlockType)
  | elseMark | endMark
  | br (label : UInt32)
  | brIf (label : UInt32)
  | brTable (labels : List UInt32) (fallback : UInt32)
  | ret
  | call (func : UInt32)
  | callIndirect (type table : UInt32)
  | returnCall (func : UInt32)
  | returnCallIndirect (type table : UInt32)
  | drop | select
  | selectTyped (types : List ValType)
  | localGet (index : UInt32)
  | localSet (index : UInt32)
  | localTee (index : UInt32)
  | globalGet (index : UInt32)
  | globalSet (index : UInt32)
  | tableGet (table : UInt32)
  | tableSet (table : UInt32)
  | tableInit (segment table : UInt32)
  | elemDrop (segment : UInt32)
  | tableCopy (target source : UInt32)
  | tableGrow (table : UInt32)
  | tableSize (table : UInt32)
  | tableFill (table : UInt32)
  | load (op : Load) (arg : MemArg)
  | store (op : Store) (arg : MemArg)
  | memorySize (memory : UInt32)
  | memoryGrow (memory : UInt32)
  | memoryInit (segment memory : UInt32)
  | dataDrop (segment : UInt32)
  | memoryCopy (target source : UInt32)
  | memoryFill (memory : UInt32)
  | i32Const (value : UInt32)
  | i64Const (value : UInt64)
  | f32Const (bits : UInt32)
  | f64Const (bits : UInt64)
  | refNull (heap : HeapType)
  | refIsNull
  | refFunc (func : UInt32)
  | numeric (op : Numeric)
  | v128Const (value : BitVec 128)
  /-- The lane numbers of the result, one in each byte. -/
  | shuffle (lanes : BitVec 128)
  | vectorLoad (op : VectorLoad) (arg : MemArg)
  | vectorStore (arg : MemArg)
  | loadLane (width : LaneWidth) (arg : MemArg) (lane : UInt8)
  | storeLane (width : LaneWidth) (arg : MemArg) (lane : UInt8)
  | extractLane (op : LaneExtract) (lane : UInt8)
  | replaceLane (shape : LaneShape) (lane : UInt8)
  | vector (op : VectorInstr)
  | atomicNotify (arg : MemArg)
  | atomicWait (width : Width) (arg : MemArg)
  | atomicFence
  | atomic (action : AtomicAction) (width : AtomicWidth) (arg : MemArg)
  | proposal (op : Proposal)
  deriving DecidableEq

namespace Operator

/-! ## Frames -/

/-- The frames that code nests, by the operator that opened or last turned them. -/
inductive Frame
  | plain | ifThen | elseMark | tryLegacy | catchLegacy | catchAllLegacy
  deriving Repr, DecidableEq

/-- The frames left open by `op` under the open frames `frames`, innermost first; `none` if `op`
cannot stand there. Code starts in one open frame and nothing may follow its end. -/
def nest? (op : Operator) (frames : List Frame) : Option (List Frame) :=
  match op, frames with
  | _, [] => none
  | .block _, fs | .loop _, fs => some (.plain :: fs)
  | .ifThen _, fs => some (.ifThen :: fs)
  | .elseMark, .ifThen :: fs => some (.elseMark :: fs)
  | .elseMark, _ => none
  | .endMark, _ :: fs => some fs
  | .proposal p, f :: fs =>
    if p.isSingle 0x06 then some (.tryLegacy :: f :: fs)
    else if p.isSingle 0x1F then some (.plain :: f :: fs)
    else if p.isSingle 0x07 then
      if f = .tryLegacy ∨ f = .catchLegacy then some (.catchLegacy :: fs) else none
    else if p.isSingle 0x19 then
      if f = .tryLegacy ∨ f = .catchLegacy then some (.catchAllLegacy :: fs) else none
    else if p.isSingle 0x18 then if f = .tryLegacy then some fs else none
    else some (f :: fs)
  | _, fs => some fs

/-! ## Function references -/

/-- Replaces every function index of the operator. -/
def mapFunc (f : UInt32 → UInt32) : Operator → Operator
  | .call func => .call (f func)
  | .returnCall func => .returnCall (f func)
  | .refFunc func => .refFunc (f func)
  | op => op

/-- The function that the operator refers to. -/
def func? : Operator → Option UInt32
  | .call func | .returnCall func | .refFunc func => some func
  | _ => none

theorem func?_mapFunc (f : UInt32 → UInt32) (op : Operator) :
    (op.mapFunc f).func? = op.func?.map f := by
  cases op <;> rfl

theorem mapFunc_mapFunc (f g : UInt32 → UInt32) (op : Operator) :
    (op.mapFunc f).mapFunc g = op.mapFunc (g ∘ f) := by
  cases op <;> rfl

theorem mapFunc_id (op : Operator) : op.mapFunc id = op := by
  cases op <;> rfl

end Operator

end MeteredWasm.Wasm
