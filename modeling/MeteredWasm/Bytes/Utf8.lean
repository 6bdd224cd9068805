import MeteredWasm.Bytes.Reader

/-!
# Text as UTF-8

Names are written as UTF-8. Reading refuses overlong forms, surrogates and numbers past the last
code point. A refused byte string is described by the length of the text in front of the first
fault and by the bytes at fault: the longest start of a valid sequence, or the whole rest of the
input where it ends too early.
-/

set_option autoImplicit false

namespace MeteredWasm.Utf8

def encode (s : String) : Bytes := s.toUTF8.toList

/-- The text that these bytes write, if they are valid. -/
def decode? (bs : Bytes) : Option String := String.fromUTF8? ⟨bs.toArray⟩

/-! ## Where a byte string stops being text -/

/-- Where text ends and why. -/
inductive Fault
  /-- `length` bytes that start no valid sequence. -/
  | invalid (length start : Nat)
  /-- The input ends inside a sequence. -/
  | incomplete (start : Nat)
  deriving Repr, DecidableEq

def isContinuation (b : UInt8) : Bool := 0x80 ≤ b && b ≤ 0xBF

/-- Whether `b` may follow `lead` as the second byte of a sequence of three or four bytes: this
keeps out overlong forms, surrogates and numbers past the last code point. -/
def isSecond (lead b : UInt8) : Bool :=
  let low : UInt8 := if lead == 0xE0 then 0xA0 else if lead == 0xF0 then 0x90 else 0x80
  let high : UInt8 := if lead == 0xED then 0x9F else if lead == 0xF4 then 0x8F else 0xBF
  low ≤ b && b ≤ high

/-- The first fault of `bs`, which starts at byte `start` of the input. -/
def firstFault (bs : Bytes) (start : Nat) : Option Fault :=
  match bs with
  | [] => none
  | a :: rest =>
    if a < 0x80 then firstFault rest (start + 1)
    else if 0xC2 ≤ a && a ≤ 0xDF then
      match rest with
      | [] => some (.incomplete start)
      | b :: rest =>
        if isContinuation b then firstFault rest (start + 2) else some (.invalid 1 start)
    else if 0xE0 ≤ a && a ≤ 0xEF then
      match rest with
      | [] => some (.incomplete start)
      | [b] => if isSecond a b then some (.incomplete start) else some (.invalid 1 start)
      | b :: c :: rest =>
        if !isSecond a b then some (.invalid 1 start)
        else if isContinuation c then firstFault rest (start + 3)
        else some (.invalid 2 start)
    else if 0xF0 ≤ a && a ≤ 0xF4 then
      match rest with
      | [] => some (.incomplete start)
      | [b] => if isSecond a b then some (.incomplete start) else some (.invalid 1 start)
      | [b, c] =>
        if !isSecond a b then some (.invalid 1 start)
        else if isContinuation c then some (.incomplete start)
        else some (.invalid 2 start)
      | b :: c :: d :: rest =>
        if !isSecond a b then some (.invalid 1 start)
        else if !isContinuation c then some (.invalid 2 start)
        else if isContinuation d then firstFault rest (start + 4)
        else some (.invalid 3 start)
    else some (.invalid 1 start)

def Fault.message : Fault → String
  | .invalid length start =>
    "invalid utf-8 sequence of " ++ toString length ++ " bytes from index " ++ toString start
  | .incomplete start => "incomplete utf-8 byte sequence from index " ++ toString start

end MeteredWasm.Utf8
