import MeteredWasm.Machine.Instance
import MeteredWasm.Text.Quoted

/-!
# What the host offers

A set of host functions, one of each name, and whether instances may print. A set need not have
all that a module imports, and a module need not import all that there is.
-/

set_option autoImplicit false

namespace MeteredWasm

open Wasm Machine

structure HostFunction where
  module : String
  name : String
  params : List ValType
  results : List ValType
  behaviour : HostBehaviour

def HostFunction.type (f : HostFunction) : FuncType := ⟨f.params, f.results⟩

def HostFunction.isNamed (f : HostFunction) (module name : String) : Bool :=
  f.module = module && f.name = name

structure Imports where
  /-- Whether `env.print` is there. -/
  print : Bool
  functions : List HostFunction

namespace Imports

def empty : Imports := ⟨false, []⟩

/-- Adds a function, in the place of the one of the same name. -/
def withFunction (imports : Imports) (f : HostFunction) : Imports :=
  { imports with
    functions := imports.functions.filter (!·.isNamed f.module f.name) ++ [f] }

def function? (imports : Imports) (module name : String) : Option HostFunction :=
  imports.functions.find? (·.isNamed module name)

theorem function?_withFunction (imports : Imports) (f : HostFunction) :
    (imports.withFunction f).function? f.module f.name = some f := by
  have hf : f.isNamed f.module f.name = true := by simp [HostFunction.isNamed]
  have hn : (imports.functions.filter (!·.isNamed f.module f.name)).find?
      (·.isNamed f.module f.name) = none := by
    simp [List.find?_eq_none]
  simp [withFunction, function?, List.find?_append, hn, hf]

/-- One pair of names, quoted. -/
def nameText (f : HostFunction) : String :=
  "(" ++ Text.Quoted.encode f.module ++ ", " ++ Text.Quoted.encode f.name ++ ")"

/-- What is there, as text. -/
def text (imports : Imports) : String :=
  "Imports \x7b print: " ++ (if imports.print then "true" else "false") ++ ", functions: [" ++
    String.intercalate ", " (imports.functions.map nameText) ++ "] \x7d"

end Imports

end MeteredWasm
