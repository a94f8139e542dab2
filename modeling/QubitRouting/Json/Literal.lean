import QubitRouting.Text.Hex

/-!
# JSON strings

A string is kept as it is written between its quotes, escapes and all, because a reader may depend on
the spelling: numeric keys must be written plainly, and a string that no one reads may hold half a
surrogate pair, for which there is no text.
-/

namespace QubitRouting.Json

/-- A string as it is written between its quotes. -/
structure Literal where
  /-- The characters, escapes not undone. -/
  spelling : List Char
deriving DecidableEq

/-- The character that a letter after a backslash stands for. -/
def unescape? (c : Char) : Option Char :=
  match c with
  | '"' => some '"'
  | '\\' => some '\\'
  | '/' => some '/'
  | 'b' => some '\x08'
  | 'f' => some '\x0c'
  | 'n' => some '\n'
  | 'r' => some '\r'
  | 't' => some '\t'
  | _ => none

/-- The spelling up to the closing quote, and the text after it. -/
def spanLiteral : List Char → Option (List Char × List Char)
  | [] => none
  | '"' :: rest => some ([], rest)
  | '\\' :: 'u' :: a :: b :: c :: d :: rest => do
    let _ ← Text.numberIn? 16 [a, b, c, d]
    let (spelling, rest) ← spanLiteral rest
    return ('\\' :: 'u' :: a :: b :: c :: d :: spelling, rest)
  | '\\' :: c :: rest => do
    let _ ← unescape? c
    let (spelling, rest) ← spanLiteral rest
    return ('\\' :: c :: spelling, rest)
  | c :: rest =>
    if c < ' ' then none
    else do
      let (spelling, rest) ← spanLiteral rest
      return (c :: spelling, rest)

/-- The codes of the characters of a spelling. -/
def codes? : List Char → Option (List Nat)
  | [] => some []
  | '\\' :: 'u' :: a :: b :: c :: d :: rest => do
    return (← Text.numberIn? 16 [a, b, c, d]) :: (← codes? rest)
  | '\\' :: c :: rest => do return (← unescape? c).toNat :: (← codes? rest)
  | c :: rest => do return c.toNat :: (← codes? rest)

/-- Whether a code is the first half of a surrogate pair. -/
def isHighSurrogate (code : Nat) : Bool := 0xd800 ≤ code && code < 0xdc00

/-- Whether a code is the second half of a surrogate pair. -/
def isLowSurrogate (code : Nat) : Bool := 0xdc00 ≤ code && code < 0xe000

/-- The characters of a list of codes. A character outside the basic plane may be given as a pair of
surrogates; a surrogate on its own is refused. -/
def charsOfCodes? : List Nat → Option (List Char)
  | [] => some []
  | [code] => if isHighSurrogate code || isLowSurrogate code then none else some [Char.ofNat code]
  | code :: next :: rest =>
    if isHighSurrogate code then
      if isLowSurrogate next then
        (charsOfCodes? rest).map
          (Char.ofNat (0x10000 + (code - 0xd800) * 0x400 + (next - 0xdc00)) :: ·)
      else none
    else if isLowSurrogate code then none
    else (charsOfCodes? (next :: rest)).map (Char.ofNat code :: ·)

/-- A character as it stands inside quotes: only quotes, backslashes and control characters are
escaped. -/
def escape (c : Char) : List Char :=
  if c = '"' then ['\\', '"']
  else if c = '\\' then ['\\', '\\']
  else if c = '\x08' then ['\\', 'b']
  else if c = '\x0c' then ['\\', 'f']
  else if c = '\n' then ['\\', 'n']
  else if c = '\r' then ['\\', 'r']
  else if c = '\t' then ['\\', 't']
  else if c < ' ' then ['\\', 'u', '0', '0'] ++ Text.hexPair c.toNat
  else [c]

/-- The text of a string, unless it holds half a surrogate pair. -/
def Literal.text? (literal : Literal) : Option String := do
  return String.ofList (← charsOfCodes? (← codes? literal.spelling))

/-- A text as a string. -/
def Literal.ofText (text : String) : Literal := ⟨text.toList.flatMap escape⟩

end QubitRouting.Json
