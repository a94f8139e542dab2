import QubitRouting.Text.Unprintable

/-!
# Quoted text

A text between double quotes, with the quote, the backslash, the common blanks and every character
without a visible form escaped.
-/

namespace QubitRouting.Text

/-- The lower-case hexadecimal digits of a character's number. -/
def hexDigits (c : Char) : List Char := Nat.toDigits 16 c.toNat

/-- A character as it stands inside quotes. -/
def escape (c : Char) : List Char :=
  if c = '"' then ['\\', '"']
  else if c = '\\' then ['\\', '\\']
  else if c = '\t' then ['\\', 't']
  else if c = '\n' then ['\\', 'n']
  else if c = '\r' then ['\\', 'r']
  else if c = '\x00' then ['\\', '0']
  else if isPrintable c then [c]
  else ['\\', 'u', '\x7b'] ++ hexDigits c ++ ['\x7d']

/-- A text in double quotes. -/
def quote (s : String) : String :=
  String.ofList (['"'] ++ s.toList.flatMap escape ++ ['"'])

end QubitRouting.Text
