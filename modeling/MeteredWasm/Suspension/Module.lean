import MeteredWasm.Metering.Pass
import MeteredWasm.Suspension.Pass
import MeteredWasm.Suspension.Unwinding

/-!
# A stack-capture pass

Rewrites every function that the hook may be called from, and adds the functions that start and stop
unwinding and rewinding, with the two globals that they set. All that is added comes last in its
section, so no index changes.

A module is refused that exports one of the names of what is added, or has a function that cannot be
rewritten.
-/

set_option autoImplicit false

namespace MeteredWasm.Suspension

open Wasm

/-- Name of the function that tells the state. -/
def getState : String := "asyncify_get_state"

/-! ## Functions that may be suspended -/

/-- The imports of the hook, by their index among the functions. -/
def hooks (m : Module) : List UInt32 :=
  let functions := m.imports.filter fun i =>
    match i.type with
    | .func _ | .funcPrecisely _ => true
    | _ => false
  (functions.zipIdx.filter fun (i, _) =>
    i.module = Metering.hookModule ∧ i.name = Metering.hookName).map fun (_, k) => k.toUInt32

/-- Whether a body has a call that may be suspended. -/
def bodySuspends (suspending : List UInt32) (body : Body) : Bool :=
  body.code.any fun op => Spot.suspends suspending ⟨op, 0, []⟩

/-- The functions that may be suspended, if those already known may. There are `fuel` functions. -/
def suspendingFrom (imported : Nat) (bodies : List Body) :
    (fuel : Nat) → (known : List UInt32) → List UInt32
  | 0, known => known
  | fuel + 1, known =>
    let found := bodies.zipIdx.filterMap fun (body, k) =>
      let func := (imported + k).toUInt32
      if !known.contains func && bodySuspends known body then some func else none
    if found.isEmpty then known else suspendingFrom imported bodies fuel (found ++ known)

def suspending (m : Module) : List UInt32 :=
  suspendingFrom m.importedFuncs.length m.bodies m.bodies.length (hooks m)

/-! ## What is added -/

/-- A function that the pass adds: its name, type and code. -/
structure Added where
  name : String
  type : FuncType
  code : List Operator

/-- The functions that are added. -/
def added (g : Globals) : List Added :=
  [⟨startUnwind, ⟨[.i32], []⟩, g.start .unwinding⟩, ⟨stopUnwind, ⟨[], []⟩, g.stop⟩,
    ⟨startRewind, ⟨[.i32], []⟩, g.start .rewinding⟩, ⟨stopRewind, ⟨[], []⟩, g.stop⟩,
    ⟨getState, ⟨[], [.i32]⟩, [.globalGet g.state, .endMark]⟩]

/-- Indices from `base` on. -/
def indicesFrom (base count : Nat) : List UInt32 :=
  (List.range count).map fun k => (base + k).toUInt32

/-- The sections that hold what is added. -/
def addedSections (m : Module) (g : Globals) : List Section :=
  let functions := added g
  [.types (functions.map fun f => .plain f.type),
    .functions (indicesFrom m.types.length functions.length),
    .globals (List.replicate 2 ⟨⟨.i32, true, false⟩, [.i32Const 0]⟩),
    .exports (List.zipWith (fun f index => ⟨f.name, .func, index⟩) functions
      (indicesFrom m.funcTypes.length functions.length)),
    .code (functions.map fun f => ⟨[], f.code⟩)]

/-! ## Adding to sections -/

/-- A section with the items of another of its kind behind its own. -/
def append : Section → Section → Section
  | .types items, .types more => .types (items ++ more)
  | .functions items, .functions more => .functions (items ++ more)
  | .globals items, .globals more => .globals (items ++ more)
  | .exports items, .exports more => .exports (items ++ more)
  | .code items, .code more => .code (items ++ more)
  | s, _ => s

/-- Adds the items of `s` to the section of its kind; puts `s` where it belongs if there is no
such section. -/
def place (s : Section) (kind : SectionKind) : List Section → List Section
  | [] => [s]
  | t :: rest =>
    match t.kind? with
    | none => t :: place s kind rest
    | some k =>
      if k = kind then append t s :: rest
      else if kind.rank < k.rank then s :: t :: rest
      else t :: place s kind rest

def placeAll (more sections : List Section) : List Section :=
  more.foldl (fun sections s =>
    match s.kind? with
    | some kind => place s kind sections
    | none => sections) sections

/-! ## The pass -/

/-- Rewrites the bodies that may be suspended. -/
def rewriteBodies? (c : Validation.Context) (m : Module) (g : Globals) : Option (List Body) :=
  let suspending := suspending m
  ((c.definedFuncs m).zip m.bodies).mapM fun (type, body) =>
    if bodySuspends suspending body then rewriteBody? c suspending g type body else some body

/-- The module with everything rewritten and added. -/
def unwindModule (m : Module) : Except String Module := do
  let some c := Validation.Context.of? .sandbox m | throw "invalid module"
  let g : Globals := ⟨m.globalTypes.length.toUInt32, (m.globalTypes.length + 1).toUInt32⟩
  if m.exports.any fun e => (added g).any (·.name = e.name) then throw "duplicate export"
  let some bodies := rewriteBodies? c m g | throw "a function cannot be rewritten"
  let rewritten := m.sections.map fun
    | .code _ => .code bodies
    | s => s
  return ⟨placeAll (addedSections m g) rewritten⟩

/-- Has the hook's callers unwind and rewind; no level of optimization makes a difference. -/
def unwinding : Pass := fun _ binary => do
  let some m := Validation.validate? .sandbox binary | throw "invalid module"
  let unwound ← unwindModule m
  if Metering.fitsLengths unwound then return unwound.encode else throw "section too long"

end MeteredWasm.Suspension
