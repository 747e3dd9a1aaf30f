import RamlDoc.Text.Printable

/-!
# Quoted text

A text between double quotes as messages show it: tab, line feed, carriage return and the null
character by their letter, the quote and the backslash behind a backslash, other characters that
are not shown as themselves by their number in hexadecimal digits.
-/

namespace RamlDoc.Text

/-- The hexadecimal digits of a number, in lower case. -/
def hexDigits (n : Nat) : List Char := Nat.toDigits 16 n

/-- How one character is written between double quotes. -/
def quotedChar (c : Char) : List Char :=
  if c = '\t' then ['\\', 't']
  else if c = '\n' then ['\\', 'n']
  else if c = '\r' then ['\\', 'r']
  else if c.toNat = 0 then ['\\', '0']
  else if c = '"' ∨ c = '\\' then ['\\', c]
  else if isShown c then [c]
  else ['\\', 'u', '\x7b'] ++ hexDigits c.toNat ++ ['\x7d']

/-- A text between double quotes. -/
def quoted (s : String) : String :=
  String.ofList ('"' :: s.toList.flatMap quotedChar ++ ['"'])

end RamlDoc.Text
