import LateIR.Text.Printable

/-!
String constants inside instruction texts: between double quotes, with the
characters that would end the constant or not show in it escaped.
-/

namespace LateIR.Quoted

/-- The digits of a number in base sixteen, the leading one first. -/
def hexDigits (n : Nat) : List Char := Nat.toDigits 16 n

/-- A few characters have escapes of their own; others that do not show are
written by their number. -/
def escape (c : Char) : List Char :=
  if c = '"' then ['\\', '"']
  else if c = '\\' then ['\\', '\\']
  else if c = '\n' then ['\\', 'n']
  else if c = '\r' then ['\\', 'r']
  else if c = '\t' then ['\\', 't']
  else if c.toNat = 0 then ['\\', '0']
  else if isShown c then [c]
  else ['\\', 'u', '\x7b'] ++ hexDigits c.toNat ++ ['\x7d']

/-- The quoted form of a string. -/
def encode (s : String) : String :=
  String.ofList ('"' :: s.toList.flatMap escape ++ ['"'])

end LateIR.Quoted
