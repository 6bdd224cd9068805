import MeteredWasm.Artifact.Basic
import MeteredWasm.Machine.Run
import MeteredWasm.Metering.Check
import MeteredWasm.Sandbox.Imports
import MeteredWasm.Suspension.Pass
import MeteredWasm.Wasm.Validation.Module

/-!
# Linking

What stands between an artifact and an instance of it. The memory has to fit under the ceiling;
every import has to be the hook, `env.memory`, `env.print` or a function of the host with exactly
the type asked for; and what the module says about its memory has to agree with what it is given.
Then storage is laid out and the segments are copied into it.

The first import that nobody provides is reported by name. Whatever else does not fit is `link`.
-/

set_option autoImplicit false

namespace MeteredWasm.Linking

open Wasm Machine

/-- Module and name of the memory that the host provides. -/
def memoryImport : String × String := ("env", "memory")

/-- Module and name of the function that prints. -/
def printImport : String × String := ("env", "print")

def hookImport : String × String := (Metering.hookModule, Metering.hookName)

def key (i : Import) : String × String := (i.module, i.name)

/-! ## Memory limits -/

/-- The pages that a memory may grow to under a ceiling. -/
def ceilingPages (ceiling : UInt64) : Nat := min ceiling.toNat maxPages

def checkLimits (memory : MemoryInfo) (ceiling : UInt64) : Except InstantiationError Unit := do
  let maximum := memory.limits.capped ceiling
  if memory.limits.min > maximum then throw (.memoryLimit memory.limits.min maximum)
  let declared := memory.limits.max.getD maxPages.toUInt64
  if memory.isShared && !memory.isImported && declared > maximum then
    throw (.sharedMemoryLimit declared maximum)

/-! ## Imports -/

/-- The type of an imported function. -/
def funcType? (m : Module) (i : Import) : Option FuncType :=
  match i.type with
  | .func type | .funcPrecisely type => (m.types[type.toNat]?).map TypeEntry.type
  | _ => none

/-- Whether the host provides an import, and with the type asked for. -/
def checkImport (m : Module) (imports : Imports) (i : Import) : Except InstantiationError Unit :=
  match funcType? m i with
  | none => .error (.missingImport i.module i.name)
  | some type =>
    if key i = printImport then
      if !imports.print then .error (.missingImport i.module i.name)
      else if type.results ≠ [] then .error (.incompatibleImport i.module i.name)
      else .ok ()
    else
      match imports.function? i.module i.name with
      | none => .error (.missingImport i.module i.name)
      | some f =>
        if f.type = type then .ok () else .error (.incompatibleImport i.module i.name)

/-- Checks imports in order, each name once. The hook and the memory are always there. -/
def checkImports (m : Module) (imports : Imports) :
    (seen : List (String × String)) → List Import → Except InstantiationError Unit
  | _, [] => .ok ()
  | seen, i :: rest =>
    if key i = hookImport ∨ key i = memoryImport ∨ key i ∈ seen then
      checkImports m imports seen rest
    else do
      checkImport m imports i
      checkImports m imports (key i :: seen) rest

/-- Printing has no answer; the call itself is what is kept. -/
def printBehaviour : HostBehaviour := fun _ _ => .ok []

/-- The function that an import of this type stands for. -/
def hostFunction? (imports : Imports) (i : Import) (type : FuncType) : Option Function :=
  if key i = hookImport then if type = Function.hookType then some .hook else none
  else if key i = printImport then some (.host i.module i.name type printBehaviour)
  else
    match imports.function? i.module i.name with
    | some f => some (.host i.module i.name type f.behaviour)
    | none => none

/-- The type that a name is provided with: that of the first import of the name. -/
def providedType? (m : Module) (i : Import) : Option FuncType :=
  (m.imports.find? (key · = key i)).bind (funcType? m)

/-- Whether a memory fits what an import asks for. -/
def memoryFits (memory : Memory) (type : MemoryType) : Bool :=
  memory.shared = type.shared && memory.is64 = type.is64 && type.limits.min.toNat ≤ memory.pages &&
    type.limits.max.all fun max => memory.maxPages ≤ max.toNat

/-- Whether what is provided for an import is what it asks for. -/
def agrees (m : Module) (provided : Option Memory) (i : Import) : Bool :=
  match i.type with
  | .memory type => key i = memoryImport && provided.any (memoryFits · type)
  | .func _ | .funcPrecisely _ =>
    key i ≠ memoryImport &&
      if key i = hookImport then funcType? m i = some Function.hookType
      else funcType? m i = providedType? m i
  | _ => false

/-! ## Laying out storage -/

/-- The memory that the host provides. -/
def providedMemory (memory : MemoryInfo) (ceiling : UInt64) : Option Memory :=
  if memory.isImported then
    some (.ofPages memory.limits.min.toNat (memory.limits.capped ceiling).toNat memory.isShared
      false)
  else none

/-- A memory of its own; one that is shared may grow to what it declares. -/
def definedMemory? (ceiling : UInt64) (type : MemoryType) : Option Memory :=
  let declared := (type.limits.max.getD maxPages.toUInt64).toNat
  if type.limits.min.toNat ≤ ceilingPages ceiling then
    some (.ofPages type.limits.min.toNat
      (if type.shared then declared else min declared (ceilingPages ceiling)) type.shared
      type.is64)
  else none

def definedTable (t : Table) : RefTable where
  items := Array.replicate t.type.limits.min.toNat none
  maxSize := (t.type.limits.max.getD 0xFFFFFFFF).toNat
  is64 := t.type.is64

/-- The functions of a module, imported ones first. -/
def functions? (m : Module) (imports : Imports) : Option (Array Function) := do
  let imported ← (m.imports.filterMap fun i => (funcType? m i).map (i, ·)).mapM
    fun (i, type) => hostFunction? imports i type
  let defined ← (m.functions.zip m.bodies).mapM fun (index, body) => do
    let entry ← m.types[index.toNat]?
    return Function.code entry.type
      (body.locals.flatMap fun (n, type) => List.replicate n.toNat type) body.code
  return (imported ++ defined).toArray

/-- The value of a constant expression. -/
def constValue (e : ConstExpr) : Action Value := do
  match ← e.foldlM (fun vs op => compute op vs) [] with
  | v :: _ => return v
  | [] => Action.trap .unreachable

def elementRefs (e : Element) : Action (List (Option UInt32)) :=
  match e.items with
  | .functions indices => return indices.map some
  | .expressions _ items => items.mapM fun item => do (← constValue item).reference

/-- Adds a global. -/
def addGlobal (g : Global) : Action Unit := do
  let v ← constValue g.init
  modify fun st => { st with globals := st.globals ++ [v] }

/-- Copies an active segment into its table, and keeps a passive one for later. -/
def addElement (e : Element) : Action Unit := do
  let refs ← elementRefs e
  let kept ←
    match e.mode with
    | .active table offset => do
      Action.writeTable (table.getD 0).toNat (← (← constValue offset).index) refs
      pure []
    | .passive => pure refs
    | .declared => pure []
  modify fun st => { st with elements := st.elements ++ [kept] }

/-- Copies an active segment into its memory, and keeps a passive one for later. -/
def addData (d : Data) : Action Unit := do
  let kept ←
    match d.mode with
    | .active memory offset => do
      Action.writeMemory memory.toNat (← (← constValue offset).index) d.bytes
      pure []
    | .passive => pure d.bytes
  modify fun st => { st with datas := st.datas ++ [kept] }

/-- Puts globals and segments into storage. -/
def fill (m : Module) : Action Unit := do
  m.globals.forM addGlobal
  m.elements.forM addElement
  m.datas.forM addData

/-- Storage before anything is put into it. Where the module has no import for the host's memory,
that memory comes last. -/
def emptyStorage? (m : Module) (provided : Option Memory) (ceiling : UInt64) : Option Storage := do
  let defined ← m.memories.mapM (definedMemory? ceiling)
  let memories :=
    if m.importedMemories.isEmpty then defined ++ provided.toList else provided.toList ++ defined
  return ⟨memories, m.tables.map definedTable, [], [], []⟩

/-! ## Making an instance -/

/-- An instance before its start function has run. -/
structure Prepared where
  module : Module
  instance_ : Instance
  storage : Storage

/-- What the machine that runs instances decides. -/
structure Hardware where
  /-- The most frames that a call may stand on. -/
  maxDepth : Nat
  relaxed : RelaxedResults

/-- The machine's own part of linking, once all imports are known to be provided. -/
def instantiate? (a : Artifact) (imports : Imports) (ceiling : UInt64) (hardware : Hardware)
    (m : Module) : Option Prepared := do
  let provided := providedMemory a.memory ceiling
  if !m.imports.all (agrees m provided) then none
  let functions ← functions? m imports
  let storage ← emptyStorage? m provided ceiling
  match fill m storage with
  | .error _ _ => none
  | .ok _ storage =>
    return {
      module := m
      storage
      instance_ := {
        types := (m.types.map TypeEntry.type).toArray
        functions
        relaxed := hardware.relaxed
        controls := none
        controlBlock := a.controlBlock
        blockMemory := 0
        maxDepth := hardware.maxDepth } }

/-- Everything up to the start function. -/
def prepare (a : Artifact) (imports : Imports) (ceiling : UInt64) (hardware : Hardware) :
    Except InstantiationError Prepared := do
  checkLimits a.memory ceiling
  match Validation.validate? .engine a.wasm with
  | none => throw (.link "the binary is not valid")
  | some m =>
    checkImports m imports [] m.imports
    match instantiate? a imports ceiling hardware m with
    | none => throw (.link "an import or a segment does not fit")
    | some p => return p

/-! ## What is called from outside -/

/-- The function that is exported under this name. -/
def exportedFunc? (m : Module) (name : String) : Option UInt32 :=
  (m.exports.find? fun e => e.name = name && e.kind = .func).map Export.index

def requireFunc (m : Module) (name : String) : Except InstantiationError UInt32 :=
  match exportedFunc? m name with
  | some func => .ok func
  | none => .error (.missingExport name)

def requireType (i : Instance) (name : String) (func : UInt32) (type : FuncType) :
    Except InstantiationError Unit :=
  if (i.function? func).any (·.type = type) then .ok () else .error (.exportType name)

/-- The memory that holds the control block, by its index. -/
def findMemory (a : Artifact) (p : Prepared) : Except InstantiationError Nat :=
  if a.memory.isImported then
    .ok (if p.module.importedMemories.isEmpty then p.module.memories.length else 0)
  else
    match a.memoryExport with
    | none => .error (.missingExport "memory")
    | some name =>
      match p.module.exports.find? fun e => e.name = name && e.kind = .memory with
      | none => .error (.missingExport name)
      | some e =>
        if (p.storage.memories[e.index.toNat]?).any (·.shared = a.memory.isShared) then
          .ok e.index.toNat
        else .error (.missingExport name)

/-- The functions that unwind and rewind the instance. -/
def findControls (p : Prepared) : Except InstantiationError Controls := do
  let startUnwind ← requireFunc p.module Suspension.startUnwind
  let stopUnwind ← requireFunc p.module Suspension.stopUnwind
  let startRewind ← requireFunc p.module Suspension.startRewind
  let stopRewind ← requireFunc p.module Suspension.stopRewind
  requireType p.instance_ Suspension.startUnwind startUnwind ⟨[.i32], []⟩
  requireType p.instance_ Suspension.stopUnwind stopUnwind ⟨[], []⟩
  requireType p.instance_ Suspension.startRewind startRewind ⟨[.i32], []⟩
  requireType p.instance_ Suspension.stopRewind stopRewind ⟨[], []⟩
  return ⟨startUnwind, stopUnwind, startRewind, stopRewind⟩

def findEntry (a : Artifact) (p : Prepared) : Except InstantiationError UInt32 := do
  let entry ← requireFunc p.module a.entry
  requireType p.instance_ a.entry entry ⟨[], []⟩
  return entry

end MeteredWasm.Linking
