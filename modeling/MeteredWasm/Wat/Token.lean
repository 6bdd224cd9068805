import MeteredWasm.Bytes.Utf8

/-!
# Tokens of the text format

Text is split into parentheses, words and quoted byte strings. Blanks and comments stand between
tokens; comments in parentheses nest. Words and byte strings that touch make up one token, which
means nothing unless it is an identifier in quotes. Neither a comment nor a byte string may hold a
character that changes how text is laid out, which could hide what it says.

An annotation is a list whose opening parenthesis is followed at once by an at sign and a name.
Those of a name that means nothing here are passed over, whatever tokens they hold.
-/

set_option autoImplicit false

namespace MeteredWasm.Wat

inductive Token
  | opening | closing
  /-- A keyword, number or identifier. -/
  | word (chars : List Char)
  | quoted (bytes : Bytes)
  /-- The opening parenthesis of an annotation and its name, if that is well-formed. -/
  | marked (name : Option (List Char))
  /-- A token that stands inside annotations only. -/
  | reserved
  deriving Repr, DecidableEq

namespace Token

/-- The characters that words are made of. -/
def isWordChar (c : Char) : Bool :=
  c.isAlphanum || "!#$%&'*+-./:<=>?@\\^_`|~".contains c

def isBlank (c : Char) : Bool := c = ' ' || c = '\t' || c = '\n' || c = '\r'

/-- Characters that are tokens of their own, and mean nothing. -/
def isSeparator (c : Char) : Bool := ",;[]\x7b\x7d".contains c

def endsLine (c : Char) : Bool := c = '\n' || c = '\r'

/-- Characters that change the direction of the text behind them. -/
def isDirection (c : Char) : Bool :=
  [0x202A, 0x202B, 0x202D, 0x202E, 0x2066, 0x2067, 0x2068, 0x2069, 0x206C].contains c.toNat

/-! ## Runs -/

/-- A part of a run of word characters and byte strings that touch. -/
inductive Piece
  | char (c : Char)
  | text (bytes : Bytes)

/-- A run that is being read; its pieces are last one first. -/
structure Run where
  /-- Whether the run is the name of an annotation. -/
  annotates : Bool
  pieces : List Piece

def Run.empty : Run := ⟨false, []⟩

def Run.add (r : Run) (p : Piece) : Run := { r with pieces := p :: r.pieces }

/-- The name that a byte string writes: text that is not empty. -/
def name? (bytes : Bytes) : Option (List Char) :=
  match Utf8.decode? bytes with
  | some s => if s.isEmpty then none else some s.toList
  | none => none

/-- The characters of a run without byte strings. -/
def chars? (pieces : List Piece) : Option (List Char) :=
  pieces.mapM fun | .char c => some c | .text _ => none

/-- The name of an annotation. One that mixes characters and byte strings is nobody's name. -/
def markName? (pieces : List Piece) : Option (List Char) :=
  match pieces with
  | [] => none
  | [.text bytes] => name? bytes
  | pieces => some ((chars? pieces).getD [])

def ofPieces (pieces : List Piece) : Token :=
  match pieces with
  | [.text bytes] => .quoted bytes
  | [.char '$'] => .reserved
  | [.char '$', .text bytes] => (name? bytes).elim .reserved fun name => .word ('$' :: name)
  | pieces => (chars? pieces).elim .reserved .word

/-- The token that a run is. -/
def Run.token (r : Run) : Token :=
  if r.annotates then .marked (markName? r.pieces.reverse) else ofPieces r.pieces.reverse

/-! ## Byte strings -/

def hexValue? (c : Char) : Option Nat :=
  if c.isDigit then some (c.toNat - '0'.toNat)
  else if 'a' ≤ c && c ≤ 'f' then some (c.toNat - 'a'.toNat + 10)
  else if 'A' ≤ c && c ≤ 'F' then some (c.toNat - 'A'.toNat + 10)
  else none

/-- The byte of an escape of one character. -/
def escaped? (c : Char) : Option UInt8 :=
  match c with
  | 't' => some 9
  | 'n' => some 10
  | 'r' => some 13
  | '"' => some 34
  | '\'' => some 39
  | '\\' => some 92
  | _ => none

/-- The character with this number in hexadecimal, digits last one first. Underscores stand between
digits. -/
def numbered? (digits : List Char) : Option Char := do
  if digits.head? = some '_' ∨ digits.getLast? = some '_' then none
  let values ← (digits.filter (· ≠ '_')).mapM hexValue?
  if values.isEmpty then none
  let n := values.foldr (fun d n => 16 * n + d) 0
  if n.isValidChar then return Char.ofNat n else none

def utf8 (c : Char) : Bytes := Utf8.encode (String.singleton c)

/-! ## Scanning -/

/-- What the reader is inside of; collected characters and bytes are last one first. -/
inductive Inside
  | nothing
  | run (r : Run)
  /-- A byte string behind the pieces of a run. -/
  | text (r : Run) (bytes : Bytes)
  /-- A character number in a byte string. -/
  | numbered (r : Run) (bytes : Bytes) (digits : List Char)
  | line
  | comment (depth : Nat)

/-- The run that a piece would be added to. -/
def Inside.current : Inside → Run
  | .run r => r
  | _ => .empty

/-- Puts a token in front of the others. -/
def emit (t : Token) (rest : Option (List Token)) : Option (List Token) := rest.map (t :: ·)

/-- Ends a run, if there is one. -/
def endRun (inside : Inside) (rest : Option (List Token)) : Option (List Token) :=
  match inside with
  | .run r => emit r.token rest
  | _ => rest

/-- The tokens of what is left. -/
def scan (inside : Inside) (cs : List Char) : Option (List Token) :=
  match inside, cs with
  | .nothing, [] | .line, [] => some []
  | .run r, [] => some [r.token]
  | .text _ _, [] | .numbered _ _ _, [] | .comment _, [] => none
  | .line, c :: rest =>
    if isDirection c then none else scan (if endsLine c then .nothing else .line) rest
  | .comment depth, '(' :: ';' :: rest => scan (.comment (depth + 1)) rest
  | .comment depth, ';' :: ')' :: rest =>
    scan (if depth = 0 then .nothing else .comment (depth - 1)) rest
  | .comment depth, c :: rest => if isDirection c then none else scan (.comment depth) rest
  | .text r bytes, '"' :: rest => scan (.run (r.add (.text bytes.reverse))) rest
  | .text r bytes, '\\' :: 'u' :: '\x7b' :: rest => scan (.numbered r bytes []) rest
  | .text r bytes, '\\' :: a :: rest =>
    match escaped? a, rest with
    | some b, rest => scan (.text r (b :: bytes)) rest
    | none, b :: rest =>
      match hexValue? a, hexValue? b with
      | some high, some low => scan (.text r ((16 * high + low).toUInt8 :: bytes)) rest
      | _, _ => none
    | none, [] => none
  | .text r bytes, c :: rest =>
    if c.toNat < 32 || c.toNat = 127 || c = '\\' || isDirection c then none
    else scan (.text r ((utf8 c).reverse ++ bytes)) rest
  | .numbered r bytes digits, c :: rest =>
    if c = '\x7d' then
      match numbered? digits with
      | some d => scan (.text r ((utf8 d).reverse ++ bytes)) rest
      | none => none
    else scan (.numbered r bytes (c :: digits)) rest
  | inside, ';' :: ';' :: rest => endRun inside (scan .line rest)
  | inside, '(' :: ';' :: rest => endRun inside (scan (.comment 0) rest)
  | inside, '(' :: '@' :: rest => endRun inside (scan (.run ⟨true, []⟩) rest)
  | inside, '(' :: rest => endRun inside (emit .opening (scan .nothing rest))
  | inside, ')' :: rest => endRun inside (emit .closing (scan .nothing rest))
  | inside, '"' :: rest => scan (.text inside.current []) rest
  | inside, c :: rest =>
    if isBlank c then endRun inside (scan .nothing rest)
    else if isSeparator c then endRun inside (emit .reserved (scan .nothing rest))
    else if isWordChar c then scan (.run (inside.current.add (.char c))) rest
    else none

end Token

/-! ## Trees -/

/-- Text with its parentheses matched. -/
inductive Tree
  | word (chars : List Char)
  | quoted (bytes : Bytes)
  | list (items : List Tree)

namespace Tree

/-- The names of the annotations that mean something. Such an annotation is a list that starts with
the word `@` and its name. -/
def knownAnnotations : List String :=
  ["custom", "producers", "name", "dylink.0", "metadata.code.branch_hint"]

/-- Matches parentheses. `open_` holds the items of the lists that are open, innermost first, each
with its last item first; `skipped` is how many lists are open inside an annotation that is passed
over, that one included. -/
def build : (open_ : List (List Tree)) → (skipped : Nat) → List Token → Option (List Tree)
  | [items], 0, [] => some items.reverse
  | _, _, [] => none
  | open_, skipped + 1, t :: rest =>
    match t with
    | .opening | .marked _ => build open_ (skipped + 2) rest
    | .closing => build open_ skipped rest
    | _ => build open_ (skipped + 1) rest
  | open_, 0, .opening :: rest => build ([] :: open_) 0 rest
  | open_, 0, .marked (some name) :: rest =>
    if knownAnnotations.contains (String.ofList name) then
      build ([.word ('@' :: name)] :: open_) 0 rest
    else build open_ 1 rest
  | items :: below :: open_, 0, .closing :: rest =>
    build ((.list items.reverse :: below) :: open_) 0 rest
  | items :: open_, 0, .word chars :: rest => build ((.word chars :: items) :: open_) 0 rest
  | items :: open_, 0, .quoted bytes :: rest => build ((.quoted bytes :: items) :: open_) 0 rest
  | _, 0, _ :: _ => none

/-- The trees that a text holds; none if it holds no token. -/
def ofText? (text : String) : Option (List Tree) := do
  let tokens ← Token.scan .nothing text.toList
  if tokens.isEmpty then none
  build [[]] 0 tokens

end Tree

end MeteredWasm.Wat
