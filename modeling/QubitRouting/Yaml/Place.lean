/-!
# Places in a YAML text

A reader stands at a place of a text: so many characters and lines from its start, and in some column.
Indentation is a matter of columns, and a key must end within a line and a number of characters.
-/

namespace QubitRouting.Yaml

/-- Whether a character is a blank inside a line. -/
def isBlank (c : Char) : Bool := c == ' ' || c == '\t'

/-- Whether a character ends a line. A carriage return and the line feed after it are one line break. -/
def isBreak (c : Char) : Bool :=
  c == '\n' || c == '\r' || c == '\x85' || c == '\u2028' || c == '\u2029'

/-- Whether a character may stand in the name of an anchor, a handle or a directive. -/
def isWordChar (c : Char) : Bool := c.isAlphanum || c == '_' || c == '-'

/-- Whether a character may appear in a document at all. -/
def isAllowed (c : Char) : Bool :=
  c == '\t' || c == '\n' || c == '\r' || c == '\x85'
    || ' ' ≤ c && c ≤ '~' || '\xa0' ≤ c && c != '\ufffe' && c != '\uffff'

/-- Whether the text is at its end, a blank or a line break: what has to follow most indicators. -/
def endsWord : List Char → Bool
  | [] => true
  | c :: _ => isBlank c || isBreak c

/-- Whether the text is at its end or at the end of a line. -/
def endsLine : List Char → Bool
  | [] => true
  | c :: _ => isBreak c

/-- A place in a text. -/
structure Place where
  /-- The number of characters before it. -/
  index : Nat := 0
  /-- A number that grows with every line. -/
  line : Nat := 0
  /-- The number of characters before it in its line. -/
  column : Nat := 0

/-- The place after a character. -/
def Place.after (place : Place) (c : Char) : Place :=
  if isBreak c then { index := place.index + 1, line := place.line + 1, column := 0 }
  else { place with index := place.index + 1, column := place.column + 1 }

/-- A place and the text from there on. -/
structure Cursor where
  place : Place := {}
  rest : List Char

namespace Cursor

/-- The characters at the front that satisfy a test, and the cursor after them. -/
def span (test : Char → Bool) (place : Place) : List Char → List Char × Cursor
  | [] => ([], ⟨place, []⟩)
  | c :: rest =>
    if test c then
      let (front, cursor) := span test (place.after c) rest
      (c :: front, cursor)
    else ([], ⟨place, c :: rest⟩)

/-- The characters at the cursor that satisfy a test, and the cursor after them. -/
def takeWhile (cursor : Cursor) (test : Char → Bool) : List Char × Cursor :=
  span test cursor.place cursor.rest

/-- The cursor after the characters that satisfy a test. -/
def skipWhile (cursor : Cursor) (test : Char → Bool) : Cursor := (cursor.takeWhile test).2

/-- The cursor one character on. -/
def skip (cursor : Cursor) : Cursor :=
  match cursor.rest with
  | [] => cursor
  | c :: rest => ⟨cursor.place.after c, rest⟩

/-- The cursor after a line break, if there is one. -/
def skipBreak (cursor : Cursor) : Cursor :=
  match cursor.rest with
  | '\r' :: '\n' :: _ => cursor.skip.skip
  | c :: _ => if isBreak c then cursor.skip else cursor
  | [] => cursor

/-- The cursor at the end of the line, if only blanks and a comment are left in it. -/
def skipComment? (cursor : Cursor) : Option Cursor :=
  let cursor := cursor.skipWhile isBlank
  let cursor :=
    match cursor.rest with
    | '#' :: _ => cursor.skipWhile (!isBreak ·)
    | _ => cursor
  if endsLine cursor.rest then some cursor else none

end Cursor

/-- Whether three equal characters stand at the start of a line, with the end of a word after them. -/
def isLineOf (mark : Char) (place : Place) : List Char → Bool
  | a :: b :: c :: rest => place.column == 0 && a == mark && b == mark && c == mark && endsWord rest
  | _ => false

/-- Whether a mark between documents stands here. -/
def isDocumentMark (place : Place) (text : List Char) : Bool :=
  isLineOf '-' place text || isLineOf '.' place text

end QubitRouting.Yaml
