import MeteredWasm.Text.Unprintable

/-!
# Quoted text

Text between double quotes, with everything that would not show as itself escaped: quotes and
backslashes by a backslash, the common control characters by name, all else by number.
-/

set_option autoImplicit false

namespace MeteredWasm.Text.Quoted

/-- The number of a character, between braces and in hexadecimal. -/
def numbered (c : Char) : List Char :=
  ['\\', 'u', '\x7b'] ++ Nat.toDigits 16 c.toNat ++ ['\x7d']

def escape (c : Char) : List Char :=
  if c = '\x00' then ['\\', '0']
  else if c = '\t' then ['\\', 't']
  else if c = '\r' then ['\\', 'r']
  else if c = '\n' then ['\\', 'n']
  else if c = '"' then ['\\', '"']
  else if c = '\\' then ['\\', '\\']
  else if Unprintable.contains c then numbered c
  else [c]

def encode (s : String) : String :=
  String.ofList ('"' :: s.toList.flatMap escape ++ ['"'])

end MeteredWasm.Text.Quoted
