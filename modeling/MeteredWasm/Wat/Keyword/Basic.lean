import MeteredWasm.Wasm.Operator.Access

/-!
# What follows a keyword

The names of operators are kept with the form of what has to follow them in the text format, and
with the operator that this makes.
-/

set_option autoImplicit false

namespace MeteredWasm.Wat

open Wasm

/-- The index spaces of a module, and the locals of a function. -/
inductive Space
  | types | funcs | tables | memories | globals | tags | elements | datas | locals
  deriving Repr, DecidableEq

/-- What an immediate of a proposal's operator is written as. -/
inductive Part
  | item (space : Space)
  /-- The index of a memory, which may be left out. -/
  | memory
  | label
  | number
  /-- A memory ordering, which may be left out. -/
  | ordering
  | handlers
  deriving Repr, DecidableEq

/-- What follows a keyword. -/
inductive Form
  /-- Nothing. -/
  | plain (op : Operator)
  | index (space : Space) (op : UInt32 → Operator)
  /-- An index that may be left out, and is zero then. -/
  | optionalIndex (space : Space) (op : UInt32 → Operator)
  | label (op : UInt32 → Operator)
  /-- Memory, offset and alignment, which is this one if left out. -/
  | access (align : Nat) (op : MemArg → Operator)
  /-- The number of a lane. -/
  | lane (op : UInt8 → Operator)
  | laneAccess (align : Nat) (op : MemArg → UInt8 → Operator)
  | proposal (opcode : Opcode) (parts : List Part)

namespace Keyword

/-- Names behind the name of a type and a point. -/
def typed (type : String) (names : List String) : List String := names.map ((type ++ ".") ++ ·)

/-- What ends a name that comes in a signed and an unsigned form. -/
def signEnding : Sign → String
  | .signed => "_s"
  | .unsigned => "_u"

end Keyword

end MeteredWasm.Wat
