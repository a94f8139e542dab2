import QubitRouting.Yaml.Folding

/-!
# Block scalars of YAML

A block scalar is a run of lines indented alike, written as they are or folded. Its header says which of
the line breaks at its end count, and may say how far it is indented.
-/

namespace QubitRouting.Yaml

/-- Which line breaks at the end of a block scalar count. -/
inductive Chomping where
  /-- The one after the last line. -/
  | clip
  /-- None. -/
  | strip
  /-- All. -/
  | keep
deriving DecidableEq

/-- The header of a block scalar. -/
structure BlockHeader where
  /-- Whether lines are joined. -/
  folded : Bool
  /-- Which line breaks at the end count. -/
  chomping : Chomping := .clip
  /-- How much further than its parent it is indented, if that is said. -/
  increment : Option Nat := none

/-- One more character of a header, if it is an indicator that is not given yet. -/
def BlockHeader.add? (header : BlockHeader) (c : Char) : Option BlockHeader :=
  if header.chomping = .clip ∧ c = '+' then some { header with chomping := .keep }
  else if header.chomping = .clip ∧ c = '-' then some { header with chomping := .strip }
  else if header.increment.isNone ∧ c.isDigit ∧ c ≠ '0' then
    some { header with increment := some (c.toNat - '0'.toNat) }
  else none

/-- The header of a block scalar and the cursor after its line. -/
def readBlockHeader (cursor : Cursor) : Option (BlockHeader × Cursor) := do
  let header ←
    match cursor.rest with
    | '|' :: _ => some { folded := false : BlockHeader }
    | '>' :: _ => some { folded := true : BlockHeader }
    | _ => none
  let cursor := cursor.skip
  let (header, cursor) :=
    match cursor.rest.head?.bind header.add? with
    | none => (header, cursor)
    | some header =>
      match cursor.skip.rest.head?.bind header.add? with
      | none => (header, cursor.skip)
      | some header => (header, cursor.skip.skip)
  return (header, (← cursor.skipComment?).skipBreak)

/-- What stands before the next line of a block scalar. -/
structure Indentation where
  /-- The breaks of empty lines. -/
  breaks : List Char
  /-- The column where the text starts, or where an empty line ended, whichever is largest. -/
  deepest : Nat
  /-- The cursor at the next line that is not empty, behind its indentation. -/
  cursor : Cursor

/-- Pass over indentation and empty lines. Without a column, all spaces are indentation; a tab may not
stand in it. -/
def readIndentation (column : Option Nat) (deepest : Nat) (place : Place) :
    List Char → Option Indentation
  | [] => some ⟨[], max deepest place.column, ⟨place, []⟩⟩
  | '\r' :: '\n' :: rest => do
    let next ← readIndentation column (max deepest place.column) ((place.after '\r').after '\n') rest
    return { next with breaks := '\n' :: next.breaks }
  | c :: rest =>
    let before := column.all (place.column < ·)
    if c == ' ' && before then readIndentation column deepest (place.after c) rest
    else if c == '\t' && before then none
    else if isBreak c then do
      let next ← readIndentation column (max deepest place.column) (place.after c) rest
      return { next with breaks := breakChar c :: next.breaks }
    else some ⟨[], max deepest place.column, ⟨place, c :: rest⟩⟩

/-- What the lines read so far leave behind: the break after the last one, those of the empty lines after
it, and whether the last one started with a blank. -/
structure LineEnd where
  /-- The break after the last line. -/
  first : List Char := []
  /-- The breaks of empty lines. -/
  others : List Char := []
  /-- Whether the last line started with a blank. -/
  startsBlank : Bool := false

/-- What the breaks before a further line count for. A break between two lines that start with no blank is
folded. -/
def LineEnd.join (lineEnd : LineEnd) (folded startsBlank : Bool) : List Char :=
  if folded && lineEnd.first == ['\n'] && !lineEnd.startsBlank && !startsBlank then
    if lineEnd.others.isEmpty then [' '] else lineEnd.others
  else lineEnd.first ++ lineEnd.others

/-- What the breaks after the last line count for. -/
def LineEnd.chomp (lineEnd : LineEnd) : Chomping → List Char
  | .clip => lineEnd.first
  | .strip => []
  | .keep => lineEnd.first ++ lineEnd.others

/-- The lines of a block scalar that start at a column. The first argument bounds their number. -/
def readLines (header : BlockHeader) (column : Nat) :
    Nat → LineEnd → Cursor → Option (List Char × Cursor)
  | 0, lineEnd, cursor => some (lineEnd.chomp header.chomping, cursor)
  | fuel + 1, lineEnd, cursor =>
    if cursor.place.column ≠ column ∨ cursor.rest.isEmpty then
      some (lineEnd.chomp header.chomping, cursor)
    else do
      let startsBlank := cursor.rest.head?.any isBlank
      let (line, cursor) := cursor.takeWhile (!isBreak ·)
      let first := (cursor.rest.head?.map breakChar).toList
      let cursor := cursor.skipBreak
      let next ← readIndentation (some column) 0 cursor.place cursor.rest
      let (chars, cursor) ←
        readLines header column fuel { first, others := next.breaks, startsBlank } next.cursor
      return (lineEnd.join header.folded startsBlank ++ line ++ chars, cursor)

/-- A block scalar at the cursor inside a collection at the given column, if there is one. Unless its
header says how far it is indented, its first line does. -/
def readBlock (parent : Option Nat) (cursor : Cursor) : Option (List Char × Cursor) := do
  let (header, cursor) ← readBlockHeader cursor
  let column := header.increment.map (parent.getD 0 + ·)
  let start ← readIndentation column 0 cursor.place cursor.rest
  let least := (parent.map (· + 1)).getD 1
  let column := column.getD (max start.deepest least)
  readLines header column cursor.rest.length { others := start.breaks } start.cursor

end QubitRouting.Yaml
