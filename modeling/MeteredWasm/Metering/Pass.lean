import MeteredWasm.Metering.Check
import MeteredWasm.Metering.Segment
import MeteredWasm.Wasm.Module.MapFunc

/-!
# The metering pass

Changes a module so that every segment charges its cost to a hook before it runs. The hook is a
function of one `i32`: its type is appended to the type section, and it is the last imported
function, so every defined function moves up by one. A defined memory that is kept private can be
exported on the way.

Sections keep their order. Where a module has no type or import section, one is put in front of
the first known section that has to come later, or at the end; the same holds for an export
section, when a memory is to be exported.
-/

set_option autoImplicit false

namespace MeteredWasm.Metering

open Wasm

/-- What the pass adds to a module: where the hook goes and what the memory is exported as. -/
structure Plan where
  rules : Rules
  /-- Index of the hook's type. -/
  hookType : UInt32
  /-- Index of the hook. -/
  hook : UInt32
  memoryExport : Option String

def Plan.of (s : Summary) (rules : Rules) (memoryExport : Option String) : Plan :=
  ⟨rules, s.types.length.toUInt32, s.hookIndex, memoryExport⟩

/-- Where a function index moves when one function is put in at `hook`. -/
def shift (hook func : UInt32) : UInt32 := if func ≥ hook then func + 1 else func

/-! ## Bodies -/

/-- The operators that charge for a segment; none if it is free. -/
def chargeOps (plan : Plan) (segment : List Operator) : List Operator :=
  let cost := charge plan.rules segment
  if cost = 0 then [] else [.i32Const cost.toUInt32, .call plan.hook]

/-- A segment behind its charge. -/
def meterSegment (plan : Plan) (segment : List Operator) : List Operator :=
  chargeOps plan segment ++ segment.map (Operator.mapFunc (shift plan.hook))

def meterCode (plan : Plan) (code : List Operator) : List Operator :=
  (split code).flatMap (meterSegment plan)

def meterBody (plan : Plan) (body : Body) : Body := { body with code := meterCode plan body.code }

/-! ## Items -/

def hookTypeEntry : TypeEntry := .plain ⟨[.i32], []⟩

def Plan.hookImport (plan : Plan) : Import := ⟨hookModule, hookName, .func plan.hookType⟩

/-- The exports that the pass adds. -/
def Plan.addedExports (plan : Plan) : List Export :=
  plan.memoryExport.toList.map (⟨·, .memory, 0⟩)

/-- Name of the custom section that gives names to functions. -/
def nameSection : String := "name"

/-- A name section with functions moved; `none` if it cannot be read. -/
def meterNames? (plan : Plan) (contents : Bytes) : Option Bytes := do
  let subsections ← NameSubsection.all? contents
  return (subsections.map (NameSubsection.mapFunc (shift plan.hook))).flatMap NameSubsection.write

/-- A section with what the pass does to it. Only a custom section can fail. -/
def meterSection? (plan : Plan) : Section → Option Section
  | .custom name contents =>
    if name = nameSection then (meterNames? plan contents).map (.custom name)
    else some (.custom name contents)
  | .types items => some (.types (items ++ [hookTypeEntry]))
  | .imports items => some (.imports (items ++ [plan.hookImport]))
  | .functions types => some (.functions types)
  | .tables items => some (.tables (items.map (Table.mapFunc (shift plan.hook))))
  | .memories items => some (.memories items)
  | .tags types => some (.tags types)
  | .globals items => some (.globals (items.map (Global.mapFunc (shift plan.hook))))
  | .exports items =>
    some (.exports (items.map (Export.mapFunc (shift plan.hook)) ++ plan.addedExports))
  | .start func => some (.start (shift plan.hook func))
  | .elements items => some (.elements (items.map (Element.mapFunc (shift plan.hook))))
  | .dataCount count => some (.dataCount count)
  | .code bodies => some (.code (bodies.map (meterBody plan)))
  | .data items => some (.data (items.map (Data.mapFunc (shift plan.hook))))

/-! ## Sections -/

/-- Which of the sections that the pass adds to are still owed. -/
structure Owed where
  types : Bool
  imports : Bool
  exports : Bool

/-- The sections to put in front of a section of this kind, or at the end. -/
def Owed.due (owed : Owed) (plan : Plan) (before : Option SectionKind) : List Section :=
  let rank := before.elim SectionKind.data.rank.succ SectionKind.rank
  (if owed.types && SectionKind.types.rank < rank then [Section.types [hookTypeEntry]] else []) ++
  (if owed.imports && SectionKind.imports.rank < rank then [.imports [plan.hookImport]] else []) ++
  (if owed.exports && SectionKind.exports.rank < rank then [.exports plan.addedExports] else [])

/-- What is still owed once a section of this kind has been reached. -/
def Owed.past (owed : Owed) (kind : SectionKind) : Owed where
  types := owed.types && kind.rank < SectionKind.types.rank
  imports := owed.imports && kind.rank < SectionKind.imports.rank
  exports := owed.exports && kind.rank < SectionKind.exports.rank

/-- Meters sections in order and puts in those that are owed. -/
def meterSections? (plan : Plan) : Owed → List Section → Option (List Section)
  | owed, [] => some (owed.due plan none)
  | owed, s :: rest => do
    let metered ← meterSection? plan s
    match s.kind? with
    | none => return metered :: (← meterSections? plan owed rest)
    | some kind =>
      return owed.due plan (some kind) ++ metered :: (← meterSections? plan (owed.past kind) rest)

/-- The metered module; `none` if its names cannot be read. -/
def meterModule? (plan : Plan) (m : Module) : Option Module := do
  let sections ← meterSections? plan ⟨true, true, plan.memoryExport.isSome⟩ m.sections
  return ⟨sections⟩

/-- The metered module of a binary whose summary is `s`; `none` if the binary cannot be decoded. -/
def meter? (s : Summary) (rules : Rules) (memoryExport : Option String) (binary : Bytes) :
    Option Module := do
  let m ← Module.decode? .full binary
  meterModule? (.of s rules memoryExport) m

/-- Why a module cannot be metered. -/
inductive MeterError
  | malformed
  /-- The length of a section does not fit into 32 bits, and nothing is written. -/
  | sectionTooLong
  deriving Repr, DecidableEq

/-- Whether the lengths of all sections can be written down. -/
def fitsLengths (m : Module) : Bool := m.sections.all fun s => s.contents.length < 0x100000000

/-- The metered binary. -/
def inject (s : Summary) (rules : Rules) (memoryExport : Option String) (binary : Bytes) :
    Except MeterError Bytes :=
  match meter? s rules memoryExport binary with
  | none => .error .malformed
  | some m => if fitsLengths m then .ok m.encode else .error .sectionTooLong

end MeteredWasm.Metering
