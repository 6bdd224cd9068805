import MeteredWasm.Suspension.Code

/-!
# Functions that unwind and rewind

A function that may be suspended is rewritten such that its operand stack is empty wherever it may
be: what stands on the stack there is kept in slots, locals of their own. The code in between runs
only while the instance runs normally. While it unwinds, each function leaves right behind the
call, and writes down in the stack region which call that was and the locals that matter; while it
rewinds, each function reads these, and goes to the call without running anything on the way.

The state of the instance and the address of the control block are in two globals. Blocks that
take operands are not rewritten, nor are functions that would have to write references down.
-/

set_option autoImplicit false

namespace MeteredWasm.Suspension

open Wasm

/-! ## States -/

/-- What the global of the state says. -/
inductive Phase
  | normal | unwinding | rewinding
  deriving Repr, DecidableEq

def Phase.code : Phase → UInt32
  | .normal => 0
  | .unwinding => 1
  | .rewinding => 2

/-- The two globals: the state, and the address of the control block. -/
structure Globals where
  state : UInt32
  data : UInt32

namespace Globals

variable (g : Globals)

/-- Leaves whether the instance is in a state. -/
def isIn : Phase → List Operator
  | .normal => [.globalGet g.state, .numeric (.eqz .w32)]
  | p => [.globalGet g.state, .i32Const p.code, .numeric (.intRelation .w32 .eq)]

/-- Runs code in a state only. -/
def only (p : Phase) (code : List Operator) : List Operator :=
  g.isIn p ++ .ifThen .empty :: code ++ [.endMark]

/-- Leaves how far the stack region is in use. -/
def position : List Operator := [.globalGet g.data, .load .i32 ⟨2, 0, 0⟩]

/-- Leaves where the stack region ends. -/
def limit : List Operator := [.globalGet g.data, .load .i32 ⟨2, 4, 0⟩]

/-- Moves the position by a number of bytes. -/
def move (op : IntBinary) (bytes : Nat) : List Operator :=
  .globalGet g.data :: g.position ++
    [.i32Const bytes.toUInt32, .numeric (.intBinary .w32 op), .store .i32 ⟨2, 0, 0⟩]

/-- Stops where the region ends before the position. -/
def check : List Operator :=
  g.position ++ g.limit ++
    [.numeric (.intRelation .w32 .gtU), .ifThen .empty, .unreachable, .endMark]

/-- The code of a control function that is told where the control block is. -/
def start (p : Phase) : List Operator :=
  [.i32Const p.code, .globalSet g.state, .localGet 0, .globalSet g.data] ++ g.check ++ [.endMark]

/-- The code of a control function that goes back to normal. -/
def stop : List Operator :=
  [.i32Const Phase.normal.code, .globalSet g.state] ++ g.check ++ [.endMark]

end Globals

/-! ## Slots -/

/-- How the functions of a module are rewritten, and where this function keeps its operands. -/
structure Layout where
  context : Validation.Context
  suspending : List UInt32
  globals : Globals
  /-- The local that says which call it is that is suspended. -/
  site : UInt32
  /-- The slots, by height on the stack and type; their locals follow that of the call. -/
  slots : List (Nat × ValType)

/-- How many operands are on the stack. -/
def height (frames : List Validation.Frame) : Nat :=
  frames.foldl (fun count f => count + f.operands.length) 0

/-- The types of the operands of a frame, the first one in front. -/
def operandTypes (f : Validation.Frame) : List ValType :=
  f.operands.reverse.map fun type => type.getD .i32

/-- The operands that are on the stack, by height and type. -/
def standing : List Validation.Frame → List (Nat × ValType)
  | [] => []
  | f :: outer =>
    standing outer ++ (operandTypes f).mapIdx fun k type => (height outer + k, type)

namespace Layout

variable (y : Layout)

def slot (height : Nat) (type : ValType) : UInt32 :=
  y.site + 1 + (y.slots.idxOf (height, type)).toUInt32

/-- Takes operands out of their slots. -/
def load (base : Nat) (types : List ValType) : List Operator :=
  types.mapIdx fun k type => .localGet (y.slot (base + k) type)

/-- Puts operands into their slots. -/
def store (base : Nat) (types : List ValType) : List Operator :=
  (types.mapIdx fun k type => Operator.localSet (y.slot (base + k) type)).reverse

/-! ## Branches -/

/-- Where a branch goes: its label counted from here, and the slots that take what it carries. -/
structure Target where
  label : UInt32
  base : Nat
  types : List ValType

/-- `labels` are the rewritten labels, and `inner` the blocks that are open and not rewritten. The
block that runs the code only while the instance runs normally lies in between. -/
def target (labels : List Nat) (inner : Nat) (s : Spot) (label : UInt32) : Target :=
  let k := label.toNat
  if k < inner then ⟨label, 0, []⟩
  else
    let depth := (labels.getD (k - inner) 0 + inner + 1).toUInt32
    match s.frames[k]? with
    | none => ⟨depth, 0, []⟩
    | some f =>
      if f.opener = .body then ⟨depth, 0, []⟩
      else ⟨depth, height (s.frames.drop (k + 1)), f.labelTypes⟩

/-- Takes a branch from inside of `extra` more blocks. -/
def leap (extra : UInt32) (t : Target) : List Operator :=
  y.store t.base t.types ++ [.br (t.label + extra)]

/-- The types of the operands that a label takes. -/
def carried (s : Spot) (label : UInt32) : List ValType :=
  ((s.frames[label.toNat]?).map Validation.Frame.labelTypes).getD []

/-- A branch that may not be taken puts nothing into slots unless it is. What it carries and its
condition wait in their own slots. -/
def branchIf (s : Spot) (label : UInt32) (t : Target) : List Operator :=
  if t.types.isEmpty then [.brIf t.label]
  else
    let types := carried s label
    let top := height s.frames - 1
    let base := top - types.length
    y.store top [.i32] ++ y.store base types ++
      y.load top [.i32] ++ .ifThen .empty :: y.load base types ++ y.leap 1 t ++
        .endMark :: y.load base types

/-- A table of branches. -/
def branchTable (s : Spot) (fallback : UInt32) (targets : List Target) (last : Target) :
    List Operator :=
  if (last :: targets).all (·.types.isEmpty) then [.brTable (targets.map (·.label)) last.label]
  else
    let types := carried s fallback
    let top := height s.frames - 1
    let base := top - types.length
    let choices := targets.mapIdx fun k t =>
      y.load top [.i32] ++ [.i32Const k.toUInt32, .numeric (.intRelation .w32 .eq), .ifThen .empty]
        ++ y.load base types ++ y.leap 1 t ++ [.endMark]
    y.store top [.i32] ++ y.store base types ++ choices.flatten ++ y.load base types ++ y.leap 0 last

/-- An operator in code that is not suspended. -/
def plain (labels : List Nat) (inner : Nat) (s : Spot) : List Operator :=
  match s.op with
  | .br label => y.leap 0 (target labels inner s label)
  | .brIf label => y.branchIf s label (target labels inner s label)
  | .brTable more fallback =>
    y.branchTable s fallback (more.map (target labels inner s)) (target labels inner s fallback)
  | op => [op]

/-- Code that is not suspended. -/
def flat (labels : List Nat) (inner : Nat) : Code → List Operator
  | .done _ => []
  | .op s rest => y.plain labels inner s ++ flat labels inner rest
  | .nest s body rest =>
    s.op :: flat labels (inner + 1) body ++ .endMark :: flat labels inner rest
  | .choice s yes no rest =>
    s.op :: flat labels (inner + 1) yes ++ .elseMark :: flat labels (inner + 1) no ++
      .endMark :: flat labels inner rest

/-! ## Calls -/

/-- The type of the function that an operator calls. -/
def calleeType (op : Operator) : FuncType :=
  match op with
  | .call func => (y.context.func? func).getD ⟨[], []⟩
  | .callIndirect type _ =>
    match y.context.type? type with
    | some type => ⟨type.params ++ [.i32], type.results⟩
    | none => ⟨[], []⟩
  | _ => ⟨[], []⟩

/-- The operands that a suspended call leaves alone. -/
def below (s : Spot) : List (Nat × ValType) :=
  let all := standing s.frames
  let kept := all.take (all.length - (y.calleeType s.op).params.length)
  match s.op with
  -- To rewind, the call has to find the same function again.
  | .callIndirect _ _ => kept ++ all.drop (all.length - 1)
  | _ => kept

/-- A call that may be suspended. It is made when the instance runs normally, and when it rewinds
to just this call; if the instance unwinds behind it, the function is left. -/
def call (labels : List Nat) (s : Spot) (arguments : List Operator) (base : Nat) :
    List Operator :=
  let leave := (labels.getLastD 1 + 1).toUInt32
  let here := [Operator.i32Const s.position.toUInt32]
  y.globals.isIn .normal ++ .ifThen (.value .i32) :: .i32Const 1 :: .elseMark ::
    .localGet y.site :: here ++ .numeric (.intRelation .w32 .eq) :: .endMark :: .ifThen .empty ::
      arguments ++ s.op :: y.store base (y.calleeType s.op).results ++
        y.globals.only .unwinding (here ++ [.localSet y.site, .br leave]) ++ [.endMark]

/-! ## Code -/

/-- Code that waits to be written, with the frames that are open in front of it. -/
structure Pending where
  frames : List Validation.Frame
  code : List Operator

/-- What of a frame is on the stack, and how high it starts. -/
def top (frames : List Validation.Frame) : Nat × List ValType :=
  match frames with
  | f :: outer => (height outer, operandTypes f)
  | [] => (0, [])

/-- Writes the code that waits, up to where these frames are open; nowhere if its end is not
reached. -/
def flush (waiting : Option Pending) (frames : Option (List Validation.Frame)) : List Operator :=
  match waiting with
  | none => []
  | some p =>
    let before := top p.frames
    let after := (frames.map top).getD (0, [])
    y.globals.only .normal (y.load before.1 before.2 ++ p.code ++ y.store after.1 after.2)

def wait (waiting : Option Pending) (s : Spot) (code : List Operator) : Option Pending :=
  match waiting with
  | none => some ⟨s.frames, code⟩
  | some p => some { p with code := p.code ++ code }

/-- The labels inside of `depth` more blocks. -/
def deeper (depth : Nat) (labels : List Nat) : List Nat := labels.map (· + depth)

/-- Rewrites code. -/
def rewrite (labels : List Nat) (waiting : Option Pending) : Code → List Operator
  | .done frames => y.flush waiting frames
  | .op s rest =>
    if s.suspends y.suspending then
      let params := (y.calleeType s.op).params
      let base := height s.frames - params.length
      y.flush waiting (some s.frames) ++ y.call labels s (y.load base params) base ++
        rewrite labels none rest
    else rewrite labels (wait waiting s (y.plain labels 0 s)) rest
  | .nest s body rest =>
    if body.suspends y.suspending then
      let opening :=
        match s.op with
        | .loop _ => .loop .empty
        | _ => .block .empty
      y.flush waiting (some s.frames) ++ opening :: rewrite (0 :: deeper 1 labels) none body ++
        .endMark :: rewrite labels none rest
    else rewrite labels (wait waiting s (s.op :: y.flat labels 1 body ++ [.endMark])) rest
  | .choice s yes no rest =>
    if yes.suspends y.suspending || no.suspends y.suspending then
      let condition := y.load (height s.frames - 1) [.i32]
      -- While the instance rewinds the call may be in either branch, so both are gone through.
      y.flush waiting (some s.frames) ++ .block .empty :: y.globals.isIn .normal ++
        .ifThen (.value .i32) :: condition ++ .elseMark :: .i32Const 1 :: .endMark ::
          .ifThen .empty :: rewrite (1 :: deeper 2 labels) none yes ++ y.globals.isIn .normal ++
            .brIf 1 :: .endMark :: rewrite (0 :: deeper 1 labels) none no ++
              .endMark :: rewrite labels none rest
    else
      rewrite labels (wait waiting s (s.op :: y.flat labels 1 yes ++ .elseMark ::
        y.flat labels 1 no ++ [.endMark])) rest

/-! ## Functions -/

/-- The operators that write a local down and read it; none for a reference. -/
def access? : ValType → Option (Nat × (MemArg → Operator) × (MemArg → Operator))
  | .i32 => some (4, .store .i32, .load .i32)
  | .i64 => some (8, .store .i64, .load .i64)
  | .f32 => some (4, .store .f32, .load .f32)
  | .f64 => some (8, .store .f64, .load .f64)
  | .v128 => some (16, .vectorStore, .vectorLoad .full)
  | .ref _ => none

/-- How the function writes its locals down behind the position, how it reads them, and how many
bytes they take. -/
def record? (g : Globals) (offset : Nat) : List (UInt32 × ValType) →
    Option (List Operator × List Operator × Nat)
  | [] => some ([], [], offset)
  | (index, type) :: rest => do
    let (bytes, write, read) ← access? type
    let (writes, reads, total) ← record? g (offset + bytes) rest
    let arg : MemArg := ⟨0, offset.toUInt64, 0⟩
    return (g.position ++ .localGet index :: write arg :: writes,
      g.position ++ read arg :: .localSet index :: reads, total)

/-- Puts a value of each type on the stack. -/
def dummies (types : List ValType) : List Operator :=
  types.map fun
    | .i32 => .i32Const 0
    | .i64 => .i64Const 0
    | .f32 => .f32Const 0
    | .f64 => .f64Const 0
    | .v128 => .v128Const 0
    | .ref type => .refNull type.heap

end Layout

/-- Whether the end of code is reached. -/
def Code.ends : Code → Bool
  | .done frames => frames.isSome
  | .op _ rest | .nest _ _ rest | .choice _ _ _ rest => rest.ends

/-- The calls of code that may be suspended. -/
def Code.sites (suspending : List UInt32) : Code → List Spot
  | .done _ => []
  | .op s rest =>
    if s.suspends suspending then s :: rest.sites suspending else rest.sites suspending
  | .nest _ body rest => body.sites suspending ++ rest.sites suspending
  | .choice _ yes no rest =>
    yes.sites suspending ++ no.sites suspending ++ rest.sites suspending

/-- Whether no block takes operands. -/
def blocksOk (c : Validation.Context) (code : List Operator) : Bool :=
  code.all fun op =>
    match op with
    | .block type | .loop type | .ifThen type => (c.blockType? type).any (·.params.isEmpty)
    | _ => true

/-- A function that unwinds and rewinds. -/
def rewriteBody? (c : Validation.Context) (suspending : List UInt32) (g : Globals)
    (type : FuncType) (body : Body) : Option Body := do
  let locals := Validation.localTypes type.params body.locals
  if !blocksOk c body.code then none
  let all ← spots? c locals.toArray type.results 0 [.enter .body [] type.results] body.code
  let code := (parse body.code.length all).1
  let y : Layout := ⟨c, suspending, g, locals.length.toUInt32,
    (all.flatMap fun s => standing s.frames).eraseDups⟩
  let live := (code.live suspending [0] 0).2
  let sites := code.sites suspending
  let kept := (locals.zipIdx.filter fun (_, k) => live.testBit k).map (fun (t, k) => (k.toUInt32, t))
    ++ ((sites.flatMap y.below).eraseDups.map fun (h, t) => (y.slot h t, t))
  let (writes, reads, size) ← Layout.record? g 0 (kept ++ [(y.site, .i32)])
  let finish := if code.ends then y.load 0 type.results ++ [.ret] else [.unreachable]
  return {
    locals := body.locals ++ (1, .i32) :: y.slots.map fun slot => (1, slot.2)
    code :=
      g.only .rewinding (g.move .sub size ++ reads) ++ .block .empty ::
        y.rewrite [1] none code ++ finish ++ .endMark :: writes ++ g.move .add size ++
          Layout.dummies type.results ++ [.endMark] }

end MeteredWasm.Suspension
