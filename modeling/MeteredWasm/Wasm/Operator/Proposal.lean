import MeteredWasm.Wasm.Operator.Immediate

/-!
# Operators of proposals

Exceptions, garbage collection, typed references, stack switching, shared-everything threads,
relaxed vectors and wide arithmetic. Relaxed vectors can be run; nothing else here may be used by a
module that is validated, but such operators are read, costed and written down again. An operator
is its opcode with immediates of the kinds that the opcode calls for.
-/

set_option autoImplicit false

namespace MeteredWasm.Wasm

open Leb128

/-- An opcode: one byte, or a number after one of the prefix bytes. -/
structure Opcode where
  page : Option UInt8
  code : Nat
  deriving Repr, DecidableEq

inductive ImmediateKind
  /-- An index, a label or a count. -/
  | index
  | memArg
  | blockType
  | heapType
  /-- What a reference type points to. -/
  | target
  | catches
  | handlers
  /-- The byte that says which of two reference types are nullable. -/
  | nullability
  /-- A memory ordering, of which there are two. -/
  | ordering
  deriving Repr, DecidableEq

inductive Immediate
  | index (n : UInt32)
  | memArg (arg : MemArg)
  | blockType (type : BlockType)
  | heapType (type : HeapType)
  | target (type : HeapType)
  | catches (clauses : List Catch)
  | handlers (clauses : List Handler)
  | nullability (flags : UInt8)
  | ordering (n : UInt32)
  deriving Repr, DecidableEq

namespace Immediate

def kind : Immediate → ImmediateKind
  | .index _ => .index
  | .memArg _ => .memArg
  | .blockType _ => .blockType
  | .heapType _ => .heapType
  | .target _ => .target
  | .catches _ => .catches
  | .handlers _ => .handlers
  | .nullability _ => .nullability
  | .ordering _ => .ordering

/-- Reads an immediate of the kind asked for. -/
def read (dialect : Dialect) (kind : ImmediateKind) : Reader { i : Immediate // i.kind = kind } :=
  match kind with
  | .index => do return ⟨.index (← readU32), rfl⟩
  | .memArg => do return ⟨.memArg (← MemArg.read dialect), rfl⟩
  | .blockType => do return ⟨.blockType (← BlockType.read), rfl⟩
  | .heapType => do return ⟨.heapType (← HeapType.read), rfl⟩
  | .target => do return ⟨.target (← HeapType.readReferable), rfl⟩
  | .catches => do return ⟨.catches (← readClauses Catch.read), rfl⟩
  | .handlers => do return ⟨.handlers (← readClauses Handler.read), rfl⟩
  | .nullability => do
    let flags ← Reader.byte
    Reader.require (flags < 4)
    return ⟨.nullability flags, rfl⟩
  | .ordering => do
    let n ← readU32
    Reader.require (n < 2)
    return ⟨.ordering n, rfl⟩

def write : Immediate → Bytes
  | .index n => writeU32 n
  | .memArg arg => arg.write
  | .blockType type => type.write
  | .heapType type | .target type => type.write
  | .catches clauses => writeVec Catch.write clauses
  | .handlers clauses => writeVec Handler.write clauses
  | .nullability flags => [flags]
  | .ordering n => writeU32 n

/-- Reads immediates of the kinds asked for, in order. -/
def readAll (dialect : Dialect) :
    (kinds : List ImmediateKind) → Reader { is : List Immediate // is.map Immediate.kind = kinds }
  | [] => pure ⟨[], rfl⟩
  | kind :: kinds => do
    let ⟨i, hi⟩ ← read dialect kind
    let ⟨is, his⟩ ← readAll dialect kinds
    return ⟨i :: is, by simp [hi, his]⟩

end Immediate

/-! ## Opcodes -/

/-- Operators of one byte. -/
def singleByteProposals : List (Nat × List ImmediateKind) :=
  [ (0x06, [.blockType]), (0x07, [.index]), (0x08, [.index]), (0x09, [.index]), (0x0A, []),
    (0x14, [.index]), (0x15, [.index]), (0x18, [.index]), (0x19, []),
    (0x1F, [.blockType, .catches]), (0xD3, []), (0xD4, []), (0xD5, [.index]), (0xD6, [.index]),
    (0xE0, [.index]), (0xE1, [.index, .index]), (0xE2, [.index]), (0xE3, [.index, .handlers]),
    (0xE4, [.index, .index, .handlers]), (0xE5, [.index, .index]) ]

/-- Structures, arrays, casts and small integers, after the byte `0xFB`. -/
def aggregateProposals : List (Nat × List ImmediateKind) :=
  [ (0x00, [.index]), (0x01, [.index]), (0x02, [.index, .index]), (0x03, [.index, .index]),
    (0x04, [.index, .index]), (0x05, [.index, .index]), (0x06, [.index]), (0x07, [.index]),
    (0x08, [.index, .index]), (0x09, [.index, .index]), (0x0A, [.index, .index]),
    (0x0B, [.index]), (0x0C, [.index]), (0x0D, [.index]), (0x0E, [.index]), (0x0F, []),
    (0x10, [.index]), (0x11, [.index, .index]), (0x12, [.index, .index]),
    (0x13, [.index, .index]), (0x14, [.heapType]), (0x15, [.heapType]), (0x16, [.heapType]),
    (0x17, [.heapType]), (0x18, [.nullability, .index, .target, .target]),
    (0x19, [.nullability, .index, .target, .target]), (0x1A, []), (0x1B, []), (0x1C, []),
    (0x1D, []), (0x1E, []), (0x20, [.index]), (0x21, [.index]), (0x22, [.index]),
    (0x23, [.heapType]), (0x24, [.heapType]),
    (0x25, [.nullability, .index, .target, .target]),
    (0x26, [.nullability, .index, .target, .target]) ]

/-- `memory.discard` and wide arithmetic, after the byte `0xFC`. -/
def miscProposals : List (Nat × List ImmediateKind) :=
  [(0x12, [.index]), (0x13, []), (0x14, []), (0x15, []), (0x16, [])]

/-- Relaxed vector operators, after the byte `0xFD`. -/
def relaxedProposals : List (Nat × List ImmediateKind) :=
  (List.range 20).map fun i => (0x100 + i, [])

/-- Atomic accesses to globals, tables, structures and arrays, after the byte `0xFE`. Each starts
with its memory ordering. -/
def atomicProposals : List (Nat × List ImmediateKind) :=
  ((List.range' 0x4F 13).map fun code => (code, [.ordering, .index])) ++
  ((List.range' 0x5C 11).map fun code => (code, [.ordering, .index, .index])) ++
  ((List.range' 0x67 11).map fun code => (code, [.ordering, .index])) ++ [(0x72, [])]

/-- The immediates of the proposal operator with this opcode. -/
def Opcode.proposal? (opcode : Opcode) : Option (List ImmediateKind) :=
  match opcode.page with
  | none => singleByteProposals.lookup opcode.code
  | some 0xFB => aggregateProposals.lookup opcode.code
  | some 0xFC => miscProposals.lookup opcode.code
  | some 0xFD => relaxedProposals.lookup opcode.code
  | some 0xFE => atomicProposals.lookup opcode.code
  | some _ => none

/-- An operator of a proposal. -/
structure Proposal where
  opcode : Opcode
  immediates : List Immediate
  listed : opcode.proposal? = some (immediates.map Immediate.kind)

namespace Proposal

theorem ext' {p q : Proposal} (ho : p.opcode = q.opcode) (hi : p.immediates = q.immediates) :
    p = q := by
  cases p; cases q; simp_all

instance : DecidableEq Proposal := fun p q =>
  if h : p.opcode = q.opcode ∧ p.immediates = q.immediates then isTrue (ext' h.1 h.2)
  else isFalse fun e => h ⟨by rw [e], by rw [e]⟩

/-- The operator with these immediates, if the opcode calls for such. -/
def of? (opcode : Opcode) (immediates : List Immediate) : Option Proposal :=
  if h : opcode.proposal? = some (immediates.map Immediate.kind) then some ⟨opcode, immediates, h⟩
  else none

/-- Reads the immediates of a proposal's opcode. -/
def readAfter (dialect : Dialect) (opcode : Opcode) : Reader Proposal :=
  match h : opcode.proposal? with
  | none => Reader.refuse
  | some kinds => do
    let ⟨immediates, hk⟩ ← Immediate.readAll dialect kinds
    return ⟨opcode, immediates, by rw [h, hk]⟩

def write (p : Proposal) : Bytes :=
  (match p.opcode.page with
    | none => [p.opcode.code.toUInt8]
    | some page => page :: writeUnsigned p.opcode.code) ++
    p.immediates.flatMap Immediate.write

/-- How many vectors a relaxed vector operator takes; none for any other operator. -/
def relaxedArity? (p : Proposal) : Option Nat :=
  if p.opcode.page ≠ some 0xFD then none
  else if p.opcode.code < 0x101 then some 2
  else if p.opcode.code < 0x105 then some 1
  else if p.opcode.code < 0x10D then some 3
  else if p.opcode.code < 0x113 then some 2
  else some 3

/-- Whether the operator is the one-byte operator `code`. -/
def isSingle (p : Proposal) (code : Nat) : Bool := p.opcode == ⟨none, code⟩

end Proposal

end MeteredWasm.Wasm
