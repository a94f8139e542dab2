import QubitRouting.Json.Value

/-!
# JSON tokens

A text is cut into tokens, with blanks between them left out, and a token is written as one text.
-/

namespace QubitRouting.Json

/-- A token. -/
inductive Token where
  | openBrace | closeBrace | openBracket | closeBracket | comma | colon
  | null
  | bool (value : Bool)
  | number (numeral : Numeral)
  | string (literal : Literal)
deriving DecidableEq

/-- Whether a character separates tokens. -/
def isBlank (c : Char) : Bool := c == ' ' || c == '\n' || c == '\r' || c == '\t'

/-! ## Numbers -/

/-- The digits at the front of a text, and the rest. -/
def spanDigits (text : List Char) : List Char × List Char := text.span Char.isDigit

/-- The digits after a point, of which there must be one at least; without a point there are none. -/
def lexFraction : List Char → Option (List Char × List Char)
  | '.' :: rest =>
    match spanDigits rest with
    | ([], _) => none
    | (digits, rest) => some (digits, rest)
  | rest => some ([], rest)

/-- The digits of an exponent after its sign. -/
def lexExponentDigits (negative : Bool) (text : List Char) : Option (Option Int × List Char) :=
  match spanDigits text with
  | ([], _) => none
  | (digits, rest) =>
    let value : Int := Numeral.valueOf digits
    some (some (if negative then -value else value), rest)

/-- The exponent, if there is one. -/
def lexExponent : List Char → Option (Option Int × List Char)
  | c :: rest =>
    if c = 'e' ∨ c = 'E' then
      match rest with
      | '+' :: rest => lexExponentDigits false rest
      | '-' :: rest => lexExponentDigits true rest
      | rest => lexExponentDigits false rest
    else some (none, c :: rest)
  | [] => some (none, [])

/-- The digits before the point: a zero on its own, or digits that do not start with one. -/
def lexWhole : List Char → Option (List Char × List Char)
  | '0' :: rest => some (['0'], rest)
  | chars =>
    match spanDigits chars with
    | ([], _) => none
    | (digits, rest) => some (digits, rest)

/-- A number without its sign. -/
def lexMagnitude (negative : Bool) (text : List Char) : Option (Numeral × List Char) := do
  let (whole, rest) ← lexWhole text
  let (fraction, rest) ← lexFraction rest
  let (exponent, rest) ← lexExponent rest
  return ({ negative, whole, fraction, exponent }, rest)

/-- A number. -/
def lexNumeral : List Char → Option (Numeral × List Char)
  | '-' :: rest => lexMagnitude true rest
  | chars => lexMagnitude false chars

/-! ## Tokens -/

/-- The token at the front of a text that starts with no blank. -/
def lexToken : List Char → Option (Token × List Char)
  | '\x7b' :: rest => some (.openBrace, rest)
  | '\x7d' :: rest => some (.closeBrace, rest)
  | '[' :: rest => some (.openBracket, rest)
  | ']' :: rest => some (.closeBracket, rest)
  | ',' :: rest => some (.comma, rest)
  | ':' :: rest => some (.colon, rest)
  | 'n' :: 'u' :: 'l' :: 'l' :: rest => some (.null, rest)
  | 't' :: 'r' :: 'u' :: 'e' :: rest => some (.bool true, rest)
  | 'f' :: 'a' :: 'l' :: 's' :: 'e' :: rest => some (.bool false, rest)
  | '"' :: rest => do
    let (spelling, rest) ← spanLiteral rest
    return (.string ⟨spelling⟩, rest)
  | chars => do
    let (numeral, rest) ← lexNumeral chars
    return (.number numeral, rest)

/-- The tokens of a text. Every token takes a character at least, so the length of the text bounds
their number. -/
def lexTokens : Nat → List Char → Option (List Token)
  | _, [] => some []
  | 0, _ :: _ => none
  | fuel + 1, c :: rest =>
    if isBlank c then lexTokens fuel rest
    else do
      let (token, rest) ← lexToken (c :: rest)
      let tokens ← lexTokens fuel rest
      return token :: tokens

/-- The tokens of a text. -/
def tokens? (text : List Char) : Option (List Token) := lexTokens text.length text

/-- The text of a token. -/
def Token.write : Token → List Char
  | openBrace => ['\x7b']
  | closeBrace => ['\x7d']
  | openBracket => ['[']
  | closeBracket => [']']
  | comma => [',']
  | colon => [':']
  | null => ['n', 'u', 'l', 'l']
  | bool true => ['t', 'r', 'u', 'e']
  | bool false => ['f', 'a', 'l', 's', 'e']
  | number numeral => numeral.write .always
  | string literal => '"' :: literal.spelling ++ ['"']

end QubitRouting.Json
