import MeteredWasm.Bytes.LittleEndian
import MeteredWasm.Wat.Keyword.Lookup
import MeteredWasm.Wat.Type

/-!
# Code in the text format

Operators are written in a row, or folded: a list that starts with an operator holds the code of
its operands, which runs first. A block is closed by `end`, or is a list that holds its code. Code
is first brought into a row; only then is it clear what labels stand for. Whether every block is
closed is not asked here: code where that is not so is not valid.
-/

set_option autoImplicit false

namespace MeteredWasm.Wat

open Wasm

/-! ## Immediates -/

def takeLabel : Items (Meaning UInt32) := do
  let t ← Items.next
  Items.require (isIndex t)
  return Meaning.label t

/-- What is behind the equals sign, if a tree is this option. -/
def optionOf? (name : String) : Tree → Option (List Char)
  | .word cs =>
    let lead := name.toList ++ ['=']
    if lead.isPrefixOf cs then some (cs.drop lead.length) else none
  | _ => none

/-- Takes the number of an option off, if that stands here. -/
def takeOption (name : String) (bound : Nat) : Items (Option Nat) := do
  match ← Items.optional (optionOf? name) with
  | some cs => return some (← Items.ofOption (Literal.option? bound cs))
  | none => return none

/-- Takes the immediates of a memory access off. Alignments are written in bytes. -/
def takeAccess (s : Scope) (align : Nat) : Items MemArg := do
  let memory ← takeOptionalIndex (s.names .memories)
  let offset ← takeOption "offset" UInt64.size
  let bytes := (← takeOption "align" UInt32.size).getD (1 <<< align)
  Items.require (bytes = 1 <<< bytes.log2)
  return ⟨bytes.log2.toUInt32, (offset.getD 0).toUInt64, memory.getD 0⟩

def takeLane : Items UInt8 :=
  Items.one fun | .word cs => Literal.unsignedByte? cs | _ => none

/-- Whether a memory access stands in front of the number of a lane: a lone number is that of the
lane. -/
def startsAccess : List Tree → Bool
  | t :: u :: _ =>
    !isNumber t || isNumber u || (optionOf? "offset" u).isSome || (optionOf? "align" u).isSome
  | [t] => !isNumber t
  | [] => true

def takeLaneAccess (s : Scope) (align : Nat) : Items (MemArg × UInt8) := do
  let arg ← if startsAccess (← get) then takeAccess s align else pure ⟨align.toUInt32, 0, 0⟩
  return (arg, ← takeLane)

/-- A number, as `read` has it. -/
def takeNumber {α : Type} (read : List Char → Option α) : Items α :=
  Items.one fun | .word cs => read cs | _ => none

/-- The vector with these lanes of `bits` bits, lowest first. -/
def vectorOf (bits : Nat) (lanes : List Nat) : BitVec 128 :=
  BitVec.ofNat 128 (lanes.foldr (fun lane rest => lane + rest <<< bits) 0)

/-- Takes the shape of a vector and its lanes off. -/
def takeVector : Items (BitVec 128) := do
  let lanes (bits : Nat) (read : List Char → Option Nat) : Items (BitVec 128) := do
    return vectorOf bits (← Items.times (128 / bits) (takeNumber read))
  match ← takeNumber (some ∘ String.ofList) with
  | "i8x16" => lanes 8 (Literal.integer? 8)
  | "i16x8" => lanes 16 (Literal.integer? 16)
  | "i32x4" => lanes 32 (Literal.integer? 32)
  | "i64x2" => lanes 64 (Literal.integer? 64)
  | "f32x4" => lanes 32 (Literal.float? .single)
  | "f64x2" => lanes 64 (Literal.float? .double)
  | _ => Items.malformed

/-- Takes two indices off, the first of which may be left out. -/
def takePair (first second : Names) : Items (UInt32 × UInt32) := do
  match ← get with
  | _ :: b :: _ =>
    if isIndex b then return (← takeIndex first, ← takeIndex second)
    else return (0, ← takeIndex second)
  | _ => return (0, ← takeIndex second)

/-- Takes two indices of one space off, or none. -/
def takeBoth (names : Names) : Items (UInt32 × UInt32) := do
  match ← takeOptionalIndex names with
  | some a => return (a, ← takeIndex names)
  | none => return (0, 0)

/-- Takes a table and a type off. The table may be left out, or stand behind the type. -/
def takeIndirect (s : Scope) (op : UInt32 → UInt32 → Operator) : Items (Meaning Operator) := do
  let before ← takeOptionalIndex (s.names .tables)
  let use ← takeTypeUse s false
  let table ← match before with
    | some table => pure (some table)
    | none => takeOptionalIndex (s.names .tables)
  return do return op (← use.resolve) (table.getD 0)

/-! ## Operators of proposals -/

/-- The operator with this opcode and these immediates. -/
def proposalOf (opcode : Opcode) (immediates : List Immediate) : Meaning Operator := do
  return .proposal (← Meaning.ofOption (Proposal.of? opcode immediates))

def takeHandler (s : Scope) : Items (Meaning Handler) := do
  let tag ← takeIndex (s.names .tags)
  if ← Items.word "switch" then return pure (.onSwitch tag)
  let label ← takeLabel
  return do return .onLabel tag (← label)

/-- Takes a memory ordering off, which is the stronger one if left out. -/
def takeOrdering : Items UInt32 := do
  if ← Items.word "acq_rel" then return 1
  let _ ← Items.word "seq_cst"
  return 0

def takePart (s : Scope) : Part → Items (Meaning Immediate)
  | .item space => do return pure (.index (← takeIndex (s.names space)))
  | .memory => do return pure (.index ((← takeOptionalIndex (s.names .memories)).getD 0))
  | .number => do return pure (.index (← takeNumber Literal.u32?))
  | .ordering => do return pure (.ordering (← takeOrdering))
  | .label => do
    let label ← takeLabel
    return do return .index (← label)
  | .handlers => do
    let clauses ← Items.lists "on" (takeHandler s)
    return do return .handlers (← clauses.mapM id)

/-- A cast between references: where it leads to, and what it is from and to. -/
def takeBranchCast (s : Scope) (code : Nat) : Items (Meaning Operator) := do
  let label ← takeLabel
  let source ← Items.one (refType? (s.names .types))
  let target ← Items.one (refType? (s.names .types))
  let nullability := flagByte [(source.nullable, 1), (target.nullable, 2)]
  return do
    proposalOf ⟨some 0xFB, code⟩
      [.nullability nullability, .index (← label), .target source.heap, .target target.heap]

/-- A test or cast of a reference, whose opcode says whether null passes. -/
def takeCast (s : Scope) (code : Nat) : Items (Meaning Operator) := do
  let type ← Items.one (refType? (s.names .types))
  return proposalOf ⟨some 0xFB, if type.nullable then code + 1 else code⟩ [.heapType type.heap]

/-- A clause of a block that catches exceptions. -/
def catchOf? (s : Scope) (t : Tree) : Option (Option (Meaning Catch)) :=
  let tagged (make : UInt32 → UInt32 → Catch) : Items (Meaning Catch) := do
    let tag ← takeIndex (s.names .tags)
    let label ← takeLabel
    return do return make tag (← label)
  let untagged (make : UInt32 → Catch) : Items (Meaning Catch) := do
    let label ← takeLabel
    return do return make (← label)
  let clause (head : String) (x : Items (Meaning Catch)) := (listOf? head t).map x.whole
  clause "catch" (tagged .one) <|> clause "catch_ref" (tagged .oneRef) <|>
    clause "catch_all" (untagged .all) <|> clause "catch_all_ref" (untagged .allRef)

/-! ## Blocks -/

/-- Takes the type of a block off. -/
def takeBlockType (s : Scope) : Items (Meaning BlockType) := do
  let use ← takeTypeUse s false
  match use.index, use.type with
  | none, ⟨[], []⟩ => return pure .empty
  | none, ⟨[], [type]⟩ => return pure (.value type)
  | _, _ => return do return .func (← use.resolve)

/-- An operator that opens a block. -/
def takeBlock (s : Scope) (op : BlockType → Meaning Operator) : Items (Meaning Operator) := do
  let label ← takeName
  let type ← takeBlockType s
  return do
    let op ← op (← type)
    Meaning.openBlock label
    return op

/-- A block with clauses that catch exceptions. Their labels are those outside the block. -/
def takeTryTable (s : Scope) : Items (Meaning Operator) := do
  let label ← takeName
  let type ← takeBlockType s
  let clauses ← Items.known (catchOf? s)
  return do
    let op ← proposalOf ⟨none, 0x1F⟩ [.blockType (← type), .catches (← clauses.mapM id)]
    Meaning.openBlock label
    return op

/-- The mark that closes a block. -/
def closing : Meaning Operator := do
  Meaning.closeBlock
  return .endMark

/-! ## Operators -/

/-- The operators whose immediates have a form of their own. -/
def takeIrregular (s : Scope) (name : String) : Items (Meaning Operator) :=
  match name with
  | "i32.const" => do
    return pure (.i32Const (← takeNumber (Literal.integer? 32)).toUInt32)
  | "i64.const" => do
    return pure (.i64Const (← takeNumber (Literal.integer? 64)).toUInt64)
  | "f32.const" => do
    return pure (.f32Const (← takeNumber (Literal.float? .single)).toUInt32)
  | "f64.const" => do
    return pure (.f64Const (← takeNumber (Literal.float? .double)).toUInt64)
  | "v128.const" => do return pure (.v128Const (← takeVector))
  | "i8x16.shuffle" => do
    let lanes ← Items.times 16 (takeNumber Literal.u8?)
    return pure (.shuffle (vectorOf 8 (lanes.map UInt8.toNat)))
  | "block" => takeBlock s fun type => pure (.block type)
  | "loop" => takeBlock s fun type => pure (.loop type)
  | "if" => takeBlock s fun type => pure (.ifThen type)
  | "try" => takeBlock s fun type => proposalOf ⟨none, 0x06⟩ [.blockType type]
  | "try_table" => takeTryTable s
  | "else" => do
    let name ← Items.optional name?
    return do
      Meaning.checkLabel name
      return .elseMark
  | "end" => do
    let name ← Items.optional name?
    return do
      Meaning.checkLabel name
      closing
  | "delegate" => do
    let label ← takeLabel
    return do
      Meaning.closeBlock
      proposalOf ⟨none, 0x18⟩ [.index (← label)]
  | "br_table" => do
    let labels ← Items.many fun t => if isIndex t then some (Meaning.label t) else none
    match labels.reverse with
    | fallback :: labels =>
      return do return .brTable (← labels.reverse.mapM id) (← fallback)
    | [] => Items.malformed
  | "call_indirect" => takeIndirect s .callIndirect
  | "return_call_indirect" => takeIndirect s .returnCallIndirect
  | "select" => do
    let types ← Items.lists "result" (Items.all (valType? (s.names .types)))
    return pure (if types.isEmpty then .select else .selectTyped types.flatten)
  | "ref.null" => do return pure (.refNull (← Items.one (heapType? (s.names .types))))
  | "ref.test" => takeCast s 0x14
  | "ref.cast" => takeCast s 0x16
  | "ref.cast_desc" => takeCast s 0x23
  | "br_on_cast" => takeBranchCast s 0x18
  | "br_on_cast_fail" => takeBranchCast s 0x19
  | "br_on_cast_desc" => takeBranchCast s 0x25
  | "br_on_cast_desc_fail" => takeBranchCast s 0x26
  | "memory.init" => do
    let (memory, segment) ← takePair (s.names .memories) (s.names .datas)
    return pure (.memoryInit segment memory)
  | "memory.copy" => do
    let (target, source) ← takeBoth (s.names .memories)
    return pure (.memoryCopy target source)
  | "table.init" => do
    let (table, segment) ← takePair (s.names .tables) (s.names .elements)
    return pure (.tableInit segment table)
  | "table.copy" => do
    let (target, source) ← takeBoth (s.names .tables)
    return pure (.tableCopy target source)
  | _ => Items.malformed

def takeForm (s : Scope) : Form → Items (Meaning Operator)
  | .plain op => return pure op
  | .index space op => do return pure (op (← takeIndex (s.names space)))
  | .optionalIndex space op => do
    return pure (op ((← takeOptionalIndex (s.names space)).getD 0))
  | .label op => do
    let label ← takeLabel
    return do return op (← label)
  | .access align op => do return pure (op (← takeAccess s align))
  | .lane op => do return pure (op (← takeLane))
  | .laneAccess align op => do
    let (arg, lane) ← takeLaneAccess s align
    return pure (op arg lane)
  | .proposal opcode parts => do
    let immediates ← parts.mapM (takePart s)
    return do proposalOf opcode (← immediates.mapM id)

/-- The operator of a keyword, with its immediates taken off. -/
def takeOperator (s : Scope) (name : String) : Items (Meaning Operator) :=
  match Keyword.form? name with
  | some form => takeForm s form
  | none => takeIrregular s name

/-! ## Code -/

/-- The keywords that open a block whose list holds its code. -/
def opensBlock (name : String) : Bool := ["block", "loop", "try_table"].contains name

/-- The parts of a folded `if`: its condition, and the code of its branches. -/
def branches? (items : List Tree) : Option (List Tree × List Tree × Option (List Tree)) :=
  match items with
  | [] => none
  | t :: rest =>
    match listOf? "then" t, rest with
    | some body, [] => some ([], body, none)
    | some body, [e] => (listOf? "else" e).map fun other => ([], body, some other)
    | some _, _ => none
    | none, rest =>
      if isList t then (branches? rest).map fun (condition, parts) => (t :: condition, parts)
      else none

/-- Says how likely a branch is; nothing else. -/
def branchHint : String := "@metadata.code.branch_hint"

mutual

/-- The operators of code, in a row. -/
def code (fuel : Nat) (s : Scope) (items : List Tree) : Option (List (Meaning Operator)) :=
  match fuel with
  | 0 => none
  | fuel + 1 =>
    match items with
    | [] => some []
    | .word cs :: rest => do
      let (op, rest) ← takeOperator s (String.ofList cs) rest
      return op :: (← code fuel s rest)
    | .list (.word cs :: inner) :: rest => do
      let first ← folded fuel s (String.ofList cs) inner
      return first ++ (← code fuel s rest)
    | _ => none

/-- The operators of a list that starts with a keyword. -/
def folded (fuel : Nat) (s : Scope) (name : String) (items : List Tree) :
    Option (List (Meaning Operator)) :=
  match fuel with
  | 0 => none
  | fuel + 1 =>
    if name = branchHint then
      match items with
      | .quoted [b] :: rest => if b ≤ 1 then code fuel s rest else none
      | _ => none
    else do
      let (op, items) ← takeOperator s name items
      if name = "if" then
        let (condition, body, other) ← branches? items
        let condition ← code fuel s condition
        let body ← code fuel s body
        let other ← match other with
          | none => some []
          | some items => do some (pure .elseMark :: (← code fuel s items))
        return condition ++ op :: body ++ other ++ [closing]
      else
        let inside ← code fuel s items
        return if opensBlock name then op :: inside ++ [closing] else inside ++ [op]

end

/-- What a row of operators means outside any block. -/
def codeMeaning (ops : List (Meaning Operator)) : Meaning (List Operator) := do
  modify fun known => { known with labels := [] }
  ops.mapM id

/-- All trees that are left, as code. -/
def takeCode (fuel : Nat) (s : Scope) : Items (Meaning (List Operator)) := do
  return codeMeaning (← Items.ofOption (code fuel s (← Items.rest)))

/-- One folded operator, as code. -/
def foldedCode? (fuel : Nat) (s : Scope) : Tree → Option (Meaning (List Operator))
  | .list (.word cs :: items) => (folded fuel s (String.ofList cs) items).map codeMeaning
  | _ => none

end MeteredWasm.Wat
