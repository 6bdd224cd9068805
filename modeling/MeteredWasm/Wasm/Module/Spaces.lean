import MeteredWasm.Wasm.Module.Basic

/-!
# Index spaces

What the indices of a module mean: imported items come first, defined ones behind them.
-/

set_option autoImplicit false

namespace MeteredWasm.Wasm.Module

variable (m : Module)

/-! ## Items of each kind, over all sections -/

def types : List TypeEntry :=
  m.sections.flatMap fun | .types items => items | _ => []

def imports : List Import :=
  m.sections.flatMap fun | .imports items => items | _ => []

/-- Type indices of the defined functions. -/
def functions : List UInt32 :=
  m.sections.flatMap fun | .functions items => items | _ => []

def tables : List Table :=
  m.sections.flatMap fun | .tables items => items | _ => []

def memories : List MemoryType :=
  m.sections.flatMap fun | .memories items => items | _ => []

def tags : List UInt32 :=
  m.sections.flatMap fun | .tags items => items | _ => []

def globals : List Global :=
  m.sections.flatMap fun | .globals items => items | _ => []

def exports : List Export :=
  m.sections.flatMap fun | .exports items => items | _ => []

def starts : List UInt32 :=
  m.sections.flatMap fun | .start func => [func] | _ => []

def elements : List Element :=
  m.sections.flatMap fun | .elements items => items | _ => []

def dataCounts : List UInt32 :=
  m.sections.flatMap fun | .dataCount count => [count] | _ => []

def bodies : List Body :=
  m.sections.flatMap fun | .code items => items | _ => []

def datas : List Data :=
  m.sections.flatMap fun | .data items => items | _ => []

def customs : List (String × Bytes) :=
  m.sections.flatMap fun | .custom name contents => [(name, contents)] | _ => []

/-! ## Index spaces -/

def importedFuncs : List UInt32 :=
  m.imports.filterMap fun i =>
    match i.type with
    | .func type | .funcPrecisely type => some type
    | _ => none

def importedTables : List TableType :=
  m.imports.filterMap fun i => match i.type with | .table type => some type | _ => none

def importedMemories : List MemoryType :=
  m.imports.filterMap fun i => match i.type with | .memory type => some type | _ => none

def importedGlobals : List GlobalType :=
  m.imports.filterMap fun i => match i.type with | .global type => some type | _ => none

/-- The type index of every function. -/
def funcTypes : List UInt32 := m.importedFuncs ++ m.functions

def tableTypes : List TableType := m.importedTables ++ m.tables.map Table.type

def memoryTypes : List MemoryType := m.importedMemories ++ m.memories

def globalTypes : List GlobalType := m.importedGlobals ++ m.globals.map Global.type

end MeteredWasm.Wasm.Module
