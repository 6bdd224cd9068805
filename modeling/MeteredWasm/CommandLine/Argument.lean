/-!
# Arguments of a command

A command is given operands, by their place, and switches, by their name. A switch is written as
its name behind two hyphens, or as its letter behind one; letters may share a hyphen. A switch
that takes a value has it behind an equals sign, right behind its letter, or as the next argument,
unless that starts with a hyphen. After an argument of two hyphens there are only operands.

Reading stops at the first argument that the command does not know, and at a switch that asks for
help or for the version. What is missing or given too often is only found afterwards.
-/

set_option autoImplicit false

namespace MeteredWasm.CommandLine

/-- What a switch is for. -/
inductive Role
  | flag | value | help | version
  deriving Repr, DecidableEq

/-- A switch that a command understands. -/
structure Switch where
  name : String
  letter : Option Char
  role : Role
  deriving Repr, DecidableEq

inductive Argument
  | operand (text : String)
  /-- A switch; one that takes a value may lack it. -/
  | switch (name : String) (value : Option String)
  deriving Repr, DecidableEq

/-- Why reading stops. -/
inductive Stop
  | help | version | misuse
  deriving Repr, DecidableEq

/-! ## Single arguments -/

/-- What an argument looks like. -/
inductive Shape
  | plain
  | separator
  | named (name : String) (value : Option String)
  | letters (cs : List Char)
  deriving Repr, DecidableEq

def Shape.of (text : String) : Shape :=
  match text.toList with
  | ['-', '-'] => .separator
  | '-' :: '-' :: rest =>
    match rest.span (· ≠ '=') with
    | (name, []) => .named (String.ofList name) none
    | (name, _ :: value) => .named (String.ofList name) (some (String.ofList value))
  | '-' :: c :: rest => .letters (c :: rest)
  | _ => .plain

/-- Arguments that have been read, and the switch that waits for its value, if one does. -/
abbrev Found := List Argument × Option String

/-- A switch written as its name. -/
def readName (switches : List Switch) (name : String) (value : Option String) :
    Except Stop Found :=
  match switches.find? (·.name = name) with
  | none => .error .misuse
  | some s =>
    match s.role, value with
    | .value, some _ => .ok ([.switch s.name value], none)
    | .value, none => .ok ([], some s.name)
    | _, some _ => .error .misuse
    | .flag, none => .ok ([.switch s.name none], none)
    | .help, none => .error .help
    | .version, none => .error .version

/-- The value right behind a letter. -/
def attached : List Char → Option String
  | [] => none
  | '=' :: value => some (String.ofList value)
  | value => some (String.ofList value)

/-- Switches written as letters. -/
def readLetters (switches : List Switch) : List Char → Except Stop Found
  | [] => .ok ([], none)
  | c :: rest =>
    match switches.find? (·.letter = some c) with
    | none => .error .misuse
    | some s =>
      match s.role with
      | .help => .error .help
      | .version => .error .version
      | .flag => do
        let (more, waiting) ← readLetters switches rest
        return (.switch s.name none :: more, waiting)
      | .value =>
        match attached rest with
        | none => .ok ([], some s.name)
        | value => .ok ([.switch s.name value], none)

/-! ## All arguments -/

/-- A switch that is left without its value. -/
def unanswered (waiting : Option String) : List Argument :=
  waiting.toList.map (.switch · none)

/-- The arguments of a command that takes at most so many operands; `waiting` is the switch that
the next argument may be the value of. -/
def readArguments (switches : List Switch) :
    (operands : Nat) → (waiting : Option String) → List String → Except Stop (List Argument)
  | _, waiting, [] => .ok (unanswered waiting)
  | operands, waiting, text :: rest =>
    match Shape.of text, waiting, operands with
    | .plain, some name, _ => do
      return .switch name (some text) :: (← readArguments switches operands none rest)
    | .plain, none, 0 => .error .misuse
    | .plain, none, operands + 1 => do
      return .operand text :: (← readArguments switches operands none rest)
    | .separator, _, _ =>
      if operands < rest.length then .error .misuse
      else .ok (unanswered waiting ++ rest.map .operand)
    | .named name value, _, _ => do
      let (found, next) ← readName switches name value
      return unanswered waiting ++ found ++ (← readArguments switches operands next rest)
    | .letters cs, _, _ => do
      let (found, next) ← readLetters switches cs
      return unanswered waiting ++ found ++ (← readArguments switches operands next rest)

/-! ## What was given -/

def operandsIn (arguments : List Argument) : List String :=
  arguments.filterMap fun
    | .operand text => some text
    | .switch _ _ => none

/-- The values that a switch was given, once for each time. -/
def given (arguments : List Argument) (name : String) : List (Option String) :=
  arguments.filterMap fun
    | .operand _ => none
    | .switch name' value => if name' = name then some value else none

/-- Whether a flag was given; `none` if more than once. -/
def flag? (arguments : List Argument) (name : String) : Option Bool :=
  match given arguments name with
  | [] => some false
  | [_] => some true
  | _ => none

/-- The value of a switch that need not be given; `none` if it was given without one or more than
once. -/
def value? (arguments : List Argument) (name : String) : Option (Option String) :=
  match given arguments name with
  | [] => some none
  | [some value] => some (some value)
  | _ => none

/-! ## Numbers -/

/-- The number that decimal digits write. -/
def digits? (cs : List Char) : Option Nat :=
  if cs.isEmpty || !cs.all Char.isDigit then none
  else some (cs.foldl (fun n c => 10 * n + (c.toNat - '0'.toNat)) 0)

/-- A number of 64 bits, with or without a plus sign. -/
def word? (text : String) : Option Nat := do
  let n ← match text.toList with
    | '+' :: cs => digits? cs
    | cs => digits? cs
  if n < UInt64.size then some n else none

/-- A number of 64 bits with or without a sign. -/
def signed? (text : String) : Option Int := do
  let i ← match text.toList with
    | '+' :: cs => (digits? cs).map Int.ofNat
    | '-' :: cs => (digits? cs).map fun n => -(n : Int)
    | cs => (digits? cs).map Int.ofNat
  if -0x8000000000000000 ≤ i ∧ i < 0x8000000000000000 then some i else none

/-- A switch with a value that has to be read, and what it is where the switch is not given. -/
def readValue? {α : Type} (arguments : List Argument) (name : String) (read : String → Option α)
    (standard : α) : Option α := do
  match ← value? arguments name with
  | none => return standard
  | some text => read text

end MeteredWasm.CommandLine
