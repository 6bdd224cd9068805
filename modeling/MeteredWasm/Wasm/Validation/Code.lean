import MeteredWasm.Wasm.Validation.Signature

/-!
# Typing of code

Code is checked operator by operator against a stack of frames, each with the types of the
operands that were pushed in it. Behind an unconditional branch a frame is unreachable: there,
operands that were never pushed may be taken, and are of any type.
-/

set_option autoImplicit false

namespace MeteredWasm.Wasm.Validation

/-- The type of an operand; `none` for one that may be of any type. -/
abbrev OperandType := Option ValType

/-- What opened a frame. -/
inductive Opener
  | body | block | loop | ifThen | elseMark
  deriving Repr, DecidableEq

structure Frame where
  opener : Opener
  params : List ValType
  results : List ValType
  /-- Types of the operands pushed in this frame, last one first. -/
  operands : List OperandType
  unreachable : Bool

/-- The operands that a branch to the frame takes. -/
def Frame.labelTypes (f : Frame) : List ValType :=
  match f.opener with
  | .loop => f.params
  | _ => f.results

/-- A frame as it is entered: its parameters are its first operands. -/
def Frame.enter (opener : Opener) (params results : List ValType) : Frame :=
  ⟨opener, params, results, (params.map some).reverse, false⟩

namespace Frame

def push (f : Frame) (types : List ValType) : Frame :=
  { f with operands := (types.map some).reverse ++ f.operands }

/-- Takes one operand of any type. -/
def popAny? (f : Frame) : Option (OperandType × Frame) :=
  match f.operands with
  | type :: rest => some (type, { f with operands := rest })
  | [] => if f.unreachable then some (none, f) else none

/-- Takes one operand of this type. -/
def pop? (f : Frame) (type : ValType) : Option Frame :=
  match f.popAny? with
  | some (some found, f) => if found = type then some f else none
  | some (none, f) => some f
  | none => none

/-- Takes operands of these types, the last operand first. -/
def popAll? (f : Frame) (types : List ValType) : Option Frame :=
  types.reverse.foldlM pop? f

/-- Takes and pushes what a signature says. -/
def consume? (f : Frame) (s : Signature) : Option Frame :=
  (f.popAll? s.1).map (·.push s.2)

/-- The frame behind an unconditional branch. -/
def leave (f : Frame) : Frame := { f with operands := [], unreachable := true }

/-- Whether the frame ends with just its results. -/
def closes (f : Frame) : Bool :=
  match f.popAll? f.results with
  | some f => f.operands.isEmpty
  | none => false

end Frame

/-- Takes operands of the label's types and puts them back. -/
def branch? (f : Frame) (types : List ValType) : Option Frame :=
  f.consume? (types, types)

/-- `select` without a type chooses between numbers or between vectors. -/
def select? (f : Frame) : Option Frame := do
  let f ← f.pop? .i32
  let (a, f) ← f.popAny?
  let (b, f) ← f.popAny?
  let chosen : OperandType := a.or b
  match a, b with
  | some s, some t => if s = t ∧ s.isNumeric then some () else none
  | some s, none | none, some s => if s.isNumeric then some () else none
  | none, none => some ()
  return { f with operands := chosen :: f.operands }

/-- Checks that the labels of a table take as many operands as the last one, and that the
operands at hand fit each. -/
def branchTable? (frames : List Frame) (f : Frame) (arity : Nat) : List UInt32 → Option Unit
  | [] => some ()
  | label :: labels => do
    let target ← frames[label.toNat]?
    if target.labelTypes.length ≠ arity then none
    let _ ← f.popAll? target.labelTypes
    branchTable? frames f arity labels

/-- Goes past one operator. `frames` holds the open frames, innermost first. -/
def step? (c : Context) (locals : Array ValType) (results : List ValType) (op : Operator)
    (frames : List Frame) : Option (List Frame) :=
  match frames with
  | [] => none
  | f :: outer =>
    match op with
    | .unreachable => some (f.leave :: outer)
    | .elseMark =>
      if f.opener = .ifThen ∧ f.closes then
        some (.enter .elseMark f.params f.results :: outer)
      else none
    | .endMark =>
      if f.closes ∧ (f.opener = .ifThen → f.params = f.results) then
        match outer with
        | [] => some []
        | g :: rest => some (g.push f.results :: rest)
      else none
    | .ret => do
      let f ← f.popAll? results
      return f.leave :: outer
    | .drop => do
      let (_, f) ← f.popAny?
      return f :: outer
    | .select => do
      let f ← select? f
      return f :: outer
    | .refIsNull => do
      let (type, f) ← f.popAny?
      if type.any ValType.isNumeric then none
      return f.push [.i32] :: outer
    | .block type => do
      let type ← c.blockType? type
      let f ← f.popAll? type.params
      return .enter .block type.params type.results :: f :: outer
    | .loop type => do
      let type ← c.blockType? type
      let f ← f.popAll? type.params
      return .enter .loop type.params type.results :: f :: outer
    | .ifThen type => do
      let type ← c.blockType? type
      let f ← f.pop? .i32
      let f ← f.popAll? type.params
      return .enter .ifThen type.params type.results :: f :: outer
    | .br label => do
      let target ← frames[label.toNat]?
      let f ← f.popAll? target.labelTypes
      return f.leave :: outer
    | .brIf label => do
      let target ← frames[label.toNat]?
      let f ← f.pop? .i32
      let f ← branch? f target.labelTypes
      return f :: outer
    | .brTable labels fallback => do
      let target ← frames[fallback.toNat]?
      let f ← f.pop? .i32
      branchTable? frames f target.labelTypes.length labels
      let f ← f.popAll? target.labelTypes
      return f.leave :: outer
    | .returnCall func => do
      let type ← c.func? func
      if !c.features.tailCalls || type.results ≠ results then none
      let f ← f.popAll? type.params
      return f.leave :: outer
    | .returnCallIndirect type table => do
      let type ← c.type? type
      let table ← c.table? table
      if !c.features.tailCalls || type.results ≠ results || table.element ≠ .funcref then none
      let f ← f.popAll? (type.params ++ [indexType table.is64])
      return f.leave :: outer
    | .selectTyped types =>
      match types with
      | [type] => do
        if !valTypeOk type then none
        let f ← f.consume? ([type, type, .i32], [type])
        return f :: outer
      | _ => none
    | op => do
      let s ← signature? c locals op
      let f ← f.consume? s
      return f :: outer

/-- Checks the rest of a body: it closes its last frame and ends there. -/
def codeOk (c : Context) (locals : Array ValType) (results : List ValType) :
    List Operator → List Frame → Bool
  | [], frames => frames.isEmpty
  | op :: ops, frames =>
    match step? c locals results op frames with
    | some frames => codeOk c locals results ops frames
    | none => false

/-- A function has at most this many locals, parameters among them. -/
def maxLocals : Nat := 50000

/-- The types of all locals of a function. -/
def localTypes (params : List ValType) (groups : List (UInt32 × ValType)) : List ValType :=
  params ++ groups.flatMap fun (count, type) => List.replicate count.toNat type

def bodyOk (c : Context) (type : FuncType) (body : Body) : Bool :=
  type.params.length + localCount body.locals ≤ maxLocals &&
    body.locals.all (fun (_, type) => valTypeOk type) &&
    codeOk c (localTypes type.params body.locals).toArray type.results body.code
      [.enter .body [] type.results]

/-! ## Constant expressions -/

/-- Whether an operator may stand in a constant expression. -/
def constOperator (c : Context) : Operator → Bool
  | .i32Const _ | .i64Const _ | .f32Const _ | .f64Const _ | .v128Const _ | .refNull _ => true
  | .refFunc func => (c.func? func).isSome
  | .globalGet index =>
    index.toNat < c.importedGlobals && (c.global? index).any (!·.isMutable)
  | .numeric (.intBinary _ op) =>
    c.features.extendedConst && (op = .add || op = .sub || op = .mul)
  | _ => false

/-- Whether an expression is constant and of this type. Taking a reference to a function is what
makes it referenced, so every function may be. -/
def constOk (c : Context) (type : ValType) (e : ConstExpr) : Bool :=
  let refs := e.filterMap fun | .refFunc func => some func | _ => none
  e.all (constOperator c) &&
    codeOk { c with references := refs } #[] [type] (e ++ [.endMark]) [.enter .body [] [type]]

end MeteredWasm.Wasm.Validation
