import MeteredWasm.Wasm.Type.Codec

/-!
# The outline of a module

A binary module is a header and a row of sections, each a byte that says its kind and its contents
behind their length. The outline of a module is that row with the contents undecoded. It is
lenient about what the items of a section say, but strict about the row: known sections come in
the standard order and at most once each, a section holds at least its count, there are as many
bodies as functions, and a data count is the number of data segments.

The outline of a byte string that goes wrong is the row of sections in front of the fault.
-/

set_option autoImplicit false

namespace MeteredWasm.Wasm

open Leb128

/-! ## Kinds of sections -/

inductive SectionKind
  | types | imports | functions | tables | memories | tags | globals | exports | start | elements
  | dataCount | code | data
  deriving Repr, DecidableEq

namespace SectionKind

def id : SectionKind → UInt8
  | .types => 1
  | .imports => 2
  | .functions => 3
  | .tables => 4
  | .memories => 5
  | .globals => 6
  | .exports => 7
  | .start => 8
  | .elements => 9
  | .code => 10
  | .data => 11
  | .dataCount => 12
  | .tags => 13

def ofId? : UInt8 → Option SectionKind
  | 1 => some .types
  | 2 => some .imports
  | 3 => some .functions
  | 4 => some .tables
  | 5 => some .memories
  | 6 => some .globals
  | 7 => some .exports
  | 8 => some .start
  | 9 => some .elements
  | 10 => some .code
  | 11 => some .data
  | 12 => some .dataCount
  | 13 => some .tags
  | _ => none

/-- The place in the standard order. -/
def rank : SectionKind → Nat
  | .types => 1
  | .imports => 2
  | .functions => 3
  | .tables => 4
  | .memories => 5
  | .tags => 6
  | .globals => 7
  | .exports => 8
  | .start => 9
  | .elements => 10
  | .dataCount => 11
  | .code => 12
  | .data => 13

theorem ofId?_id (kind : SectionKind) : ofId? kind.id = some kind := by
  cases kind <;> rfl

end SectionKind

/-! ## Sections with their contents undecoded -/

inductive RawSection
  | custom (name : String) (contents : Bytes)
  | known (kind : SectionKind) (contents : Bytes)
  | unknown (id : UInt8)
  deriving DecidableEq

/-- What a binary starts with: a module's header, or that of a component. -/
inductive Header
  | module | component
  deriving Repr, DecidableEq

def Header.bytes : Header → Bytes
  | .module => [0x00, 0x61, 0x73, 0x6D, 0x01, 0x00, 0x00, 0x00]
  | .component => [0x00, 0x61, 0x73, 0x6D, 0x0D, 0x00, 0x01, 0x00]

def Header.read : Reader Header := do
  let bs ← Reader.take 8
  if bs = Header.module.bytes then return .module
  Reader.require (bs = Header.component.bytes)
  return .component

/-- The bodies of a code section, each behind its length. -/
def readBodies : Reader (List Bytes) := readVec readBlob

/-- The number a known section starts with, if its contents are well-formed as far as the outline
goes: its count of items, or its only value. -/
def SectionKind.count? (kind : SectionKind) (contents : Bytes) : Option Nat :=
  match kind with
  | .start | .dataCount => Reader.whole (readUnsigned 32) contents
  | .code => (Reader.whole readBodies contents).map List.length
  | _ => ((readUnsigned 32).run contents).map Prod.fst

/-- The id and contents of a section. -/
def readFrame : Reader (UInt8 × Bytes) := do
  let id ← Reader.byte
  Reader.require (id < 0x80)
  let contents ← readBlob
  return (id, contents)

/-! ## Sections of components

A component is only told from a module: its sections are of no known kind here. What they start with
has to be well-formed all the same.
-/

/-- Whether a section of a component holds a module or component of its own, which is left alone. -/
def nestsBinary (id : UInt8) : Bool := id = 1 || id = 4

/-- A module or component inside a component is at most this long. -/
def maxNestedLength : Nat := 0x40000000

/-- The start function of a component takes at most this many arguments. -/
def maxStartArity : Nat := 1000

/-- A list of indices that is not too long. -/
def readIndices (bound : Nat) : Reader (List UInt32) := do
  let n ← readUnsigned 32
  Reader.require (n ≤ bound)
  Reader.times n readU32

/-- The start section of a component: function, arguments and the number of results. -/
def readComponentStart : Reader Unit := do
  let _ ← readU32
  let _ ← readIndices maxStartArity
  let results ← readUnsigned 32
  Reader.require (results ≤ maxArity)

/-- Whether the contents of a section of a component are well-formed as far as the outline goes:
most start with a count. -/
def componentSectionOk (id : UInt8) (contents : Bytes) : Bool :=
  if id = 9 then (Reader.whole readComponentStart contents).isSome
  else if 1 ≤ id ∧ id ≤ 11 then ((readUnsigned 32).run contents).isSome
  else true

/-! ## Reading -/

/-- Makes a section of its id and contents. In a component every section but a custom one is
unknown. -/
def RawSection.ofFrame? (header : Header) (id : UInt8) (contents : Bytes) : Option RawSection :=
  if id = 0 then
    match readName contents with
    | some (name, contents) => some (.custom name contents)
    | none => none
  else
    match header, SectionKind.ofId? id with
    | .module, some kind => some (.known kind contents)
    | .module, none => some (.unknown id)
    | .component, _ => if componentSectionOk id contents then some (.unknown id) else none

/-- The next section. A binary inside a component is taken for its length alone. -/
def RawSection.read (header : Header) : Reader RawSection := do
  let id ← Reader.peek
  if header = .component ∧ nestsBinary id then
    let _ ← Reader.byte
    let length ← readUnsigned 32
    Reader.require (length ≤ maxNestedLength)
    return .unknown id
  else
    let (id, contents) ← readFrame
    Reader.ofOption (RawSection.ofFrame? header id contents)

/-- What the row of sections so far says about what may follow. -/
structure Progress where
  rank : Nat
  functions : Option Nat
  bodies : Option Nat
  dataCount : Option Nat
  segments : Option Nat

namespace Progress

def start : Progress := ⟨0, none, none, none, none⟩

/-- Goes past a section, if it may stand here. -/
def next? (p : Progress) : RawSection → Option Progress
  | .custom _ _ | .unknown _ => some p
  | .known kind contents =>
    if kind.rank ≤ p.rank then none
    else
      match kind.count? contents with
      | none => none
      | some n =>
        let p := { p with rank := kind.rank }
        match kind with
        | .functions => some { p with functions := some n }
        | .dataCount => some { p with dataCount := some n }
        | .code => if p.functions.getD 0 = n then some { p with bodies := some n } else none
        | .data =>
          if p.dataCount.getD n = n then some { p with segments := some n } else none
        | _ => some p

/-- Whether the module may end here. -/
def complete (p : Progress) : Bool :=
  (p.functions.getD 0 == 0 || p.bodies.isSome) && (p.dataCount.getD 0 == 0 || p.segments.isSome)

end Progress

/-- The sections of `input` from the progress `p` on, and whether they reach the end of a complete
module; at most `n` sections. -/
def outlineFrom (header : Header) : (n : Nat) → Progress → Bytes → List RawSection × Bool
  | _, p, [] => ([], p.complete)
  | 0, _, _ :: _ => ([], false)
  | n + 1, p, input@(_ :: _) =>
    match RawSection.read header input with
    | none => ([], false)
    | some (raw, rest) =>
      match p.next? raw with
      | none => ([], false)
      | some p =>
        let (sections, complete) := outlineFrom header n p rest
        (raw :: sections, complete)

/-- The header and sections of a binary up to its first fault, and whether it has none. -/
structure Outline where
  header : Header
  sections : List RawSection
  complete : Bool

/-- The outline of a binary; `none` if it does not start with a header. -/
def Outline.of? (input : Bytes) : Option Outline :=
  match Header.read input with
  | none => none
  | some (header, rest) =>
    let (sections, complete) := outlineFrom header rest.length .start rest
    some ⟨header, sections, complete⟩

end MeteredWasm.Wasm
