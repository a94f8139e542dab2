import QubitRouting.Yaml.Block
import QubitRouting.Yaml.Plain
import QubitRouting.Yaml.Quoted
import QubitRouting.Yaml.Tag

/-!
# Tokens of a YAML text

A text is read token by token. Outside brackets, the columns of open collections are kept, and tokens
say where a collection starts and ends. A key is known as one only when its colon is found, in the same
line and within 1024 characters; its token is then put in front of it.
-/

namespace QubitRouting.Yaml

/-- What may turn out to be a key. -/
structure PossibleKey where
  /-- Whether nothing but a key makes sense in its place. -/
  required : Bool
  /-- The number of tokens before it. -/
  position : Nat
  place : Place

/-- How far the colon may stand from the start of its key. -/
def maxKeyLength : Nat := 1024

/-- Whether the colon of a possible key may stand at a place. -/
def PossibleKey.reaches (key : PossibleKey) (place : Place) : Bool :=
  key.place.line == place.line && place.index ≤ key.place.index + maxKeyLength

/-- A text read up to some place. -/
structure Reading where
  cursor : Cursor
  tokens : Array Token := #[]
  /-- The columns of the open block collections, the innermost first. -/
  columns : List Nat := []
  /-- Whether a key may start here. -/
  keyAllowed : Bool := true
  /-- What may turn out to be a key, inside the innermost brackets. -/
  key : Option PossibleKey := none
  /-- What may turn out to be a key around each pair of open brackets, the innermost first. -/
  outerKeys : List (Option PossibleKey) := []

namespace Reading

/-- Whether the reader stands inside brackets. -/
def inFlow (reading : Reading) : Bool := !reading.outerKeys.isEmpty

/-- One more token. -/
def push (reading : Reading) (token : Token) : Reading :=
  { reading with tokens := reading.tokens.push token }

/-- One more token, which takes up some characters. -/
def pushAt (reading : Reading) (token : Token) (cursor : Cursor) : Reading :=
  { reading.push token with cursor }

/-- One more token of a single character. -/
def pushChar (reading : Reading) (token : Token) : Reading :=
  reading.pushAt token reading.cursor.skip

/-! ## Keys -/

/-- Give up a possible key whose colon cannot come any more. It may not be a required one. -/
def dropKey? (place : Place) (key : Option PossibleKey) : Option (Option PossibleKey) :=
  match key with
  | none => some none
  | some key => if key.reaches place then some (some key) else if key.required then none else some none

/-- Give up all possible keys whose colons cannot come any more. -/
def dropKeys? (reading : Reading) : Option Reading := do
  let place := reading.cursor.place
  return { reading with
    key := ← dropKey? place reading.key
    outerKeys := ← reading.outerKeys.mapM (dropKey? place) }

/-- Give up the possible key. It may not be a required one. -/
def forgetKey? (reading : Reading) : Option Reading :=
  if reading.key.any (·.required) then none else some { reading with key := none }

/-- What follows may turn out to be a key, if one is allowed here. It has to be one at the column of the
innermost collection. -/
def expectKey? (reading : Reading) : Option Reading :=
  if !reading.keyAllowed then some reading
  else do
    let place := reading.cursor.place
    let required := !reading.inFlow && reading.columns.head? == some place.column
    let reading ← reading.forgetKey?
    return { reading with key := some { required, position := reading.tokens.size, place } }

/-! ## Indentation -/

/-- Open a collection at a column, if it is deeper than the innermost one. Its token is put in front of
the tokens from a position on. -/
def openAt (reading : Reading) (column position : Nat) (token : Token) : Reading :=
  if reading.inFlow || reading.columns.head?.any (column ≤ ·) then reading
  else
    { reading with
      columns := column :: reading.columns
      tokens := reading.tokens.insertIdxIfInBounds position token }

/-- Open a collection at the cursor, if it is deeper than the innermost one. -/
def openHere (reading : Reading) (token : Token) : Reading :=
  reading.openAt reading.cursor.place.column reading.tokens.size token

/-- Close collections, the innermost first, up to one at a column to keep. -/
def closeAfter (keep : Nat → Bool) (reading : Reading) : Reading :=
  if reading.inFlow then reading
  else
    let closed := reading.columns.takeWhile (!keep ·)
    { reading with
      columns := reading.columns.dropWhile (!keep ·)
      tokens := reading.tokens ++ Array.replicate closed.length Token.blockEnd }

/-- Close the collections that are indented deeper than the cursor. -/
def closeDeeper (reading : Reading) : Reading :=
  reading.closeAfter (· ≤ reading.cursor.place.column)

/-- Close all collections. -/
def closeAll (reading : Reading) : Reading := reading.closeAfter fun _ => false

/-! ## Between tokens -/

/-- Pass over blanks, comments and line breaks. Tabs count as blanks only where no key may start. A line
may start with a byte order mark. The first argument bounds the number of lines. -/
def skipToToken : Nat → Reading → Reading
  | 0, reading => reading
  | fuel + 1, reading =>
    let cursor := reading.cursor
    let cursor :=
      if cursor.place.column == 0 && cursor.rest.head? == some '\ufeff' then cursor.skip else cursor
    let tabs := reading.inFlow || !reading.keyAllowed
    let cursor := cursor.skipWhile fun c => c == ' ' || tabs && c == '\t'
    let cursor :=
      match cursor.rest with
      | '#' :: _ => cursor.skipWhile (!isBreak ·)
      | _ => cursor
    if cursor.rest.head?.any isBreak then
      skipToToken fuel
        { reading with cursor := cursor.skipBreak, keyAllowed := !reading.inFlow || reading.keyAllowed }
    else { reading with cursor }

/-! ## Tokens -/

/-- A mark between documents, or a directive: all collections end. -/
def between? (reading : Reading) (token : Token) (cursor : Cursor) : Option Reading := do
  let reading ← reading.closeAll.forgetKey?
  return { reading.pushAt token cursor with keyAllowed := false }

/-- Opening brackets. -/
def openFlow? (reading : Reading) (token : Token) : Option Reading := do
  let reading ← reading.expectKey?
  return { reading.pushChar token with
    key := none, outerKeys := reading.key :: reading.outerKeys, keyAllowed := true }

/-- Closing brackets. -/
def closeFlow? (reading : Reading) (token : Token) : Option Reading := do
  let reading ← reading.forgetKey?
  let reading := { reading.pushChar token with keyAllowed := false }
  match reading.outerKeys with
  | key :: outerKeys => return { reading with key, outerKeys }
  | [] => return reading

/-- A comma in brackets. -/
def comma? (reading : Reading) : Option Reading := do
  return { (← reading.forgetKey?).pushChar .comma with keyAllowed := true }

/-- A dash that starts an item of a block collection. -/
def item? (reading : Reading) : Option Reading := do
  if !reading.inFlow && !reading.keyAllowed then none
  let reading ← (reading.openHere .blockSequence).forgetKey?
  return { reading.pushChar .item with keyAllowed := true }

/-- A question mark that starts a key. -/
def explicitKey? (reading : Reading) : Option Reading := do
  if !reading.inFlow && !reading.keyAllowed then none
  let reading ← (reading.openHere .blockMapping).forgetKey?
  return { reading.pushChar .key with keyAllowed := !reading.inFlow }

/-- The colon before a value. If there is a possible key, it is one; otherwise the key was explicit, or
there is none. -/
def value? (reading : Reading) : Option Reading :=
  match reading.key with
  | some key =>
    let tokens := reading.tokens.insertIdxIfInBounds key.position .key
    let reading :=
      { reading with tokens, key := none }.openAt key.place.column key.position .blockMapping
    some { reading.pushChar .value with keyAllowed := false }
  | none =>
    if !reading.inFlow && !reading.keyAllowed then none
    else
      let reading := reading.openHere .blockMapping
      some { reading.pushChar .value with keyAllowed := !reading.inFlow }

/-- An anchor, a reference, a tag or a scalar in a line, any of which may start a key. -/
def inKey? (reading : Reading) (token : Token) (cursor : Cursor) : Option Reading := do
  let reading ← reading.expectKey?
  return { reading.pushAt token cursor with keyAllowed := false }

/-- A plain scalar. After a line break, a key may start. -/
def plain? (reading : Reading) : Option Reading := do
  let column := (reading.columns.head?.map (· + 1)).getD 0
  let context : PlainContext := { flow := reading.inFlow, column }
  let plain ← context.read {} reading.cursor.place reading.cursor.rest
  let reading ← reading.inKey? (.scalar (String.ofList plain.chars) true) plain.cursor
  return { reading with keyAllowed := plain.gap.crossesLine }

/-- A block scalar. -/
def block? (reading : Reading) : Option Reading := do
  let reading ← reading.forgetKey?
  let (chars, cursor) ← readBlock reading.columns.head? reading.cursor
  return { reading.pushAt (.scalar (String.ofList chars) false) cursor with keyAllowed := true }

/-- A scalar in quotes. -/
def quoted? (reading : Reading) : Option Reading := do
  let (chars, cursor) ← readQuoted reading.cursor
  reading.inKey? (.scalar (String.ofList chars) false) cursor

/-- Whether a plain scalar may start with a character before the given text. -/
def startsPlain (flow : Bool) (c : Char) (rest : List Char) : Bool :=
  if c == '-' then !rest.head?.any isBlank
  else if c == '?' || c == ':' then !flow && !endsWord rest
  else !isBlank c && !isBreak c && !isFlowIndicator c && !"#&*!|>'\"%@".toList.contains c && c != '\x60'

/-- The next token, which starts with a character before the given text. -/
def token? (reading : Reading) (c : Char) (rest : List Char) : Option Reading :=
  let cursor := reading.cursor
  let place := cursor.place
  if place.column == 0 && c == '%' then do
    let (token, cursor) ← readDirective cursor
    reading.between? token cursor
  else if isLineOf '-' place (c :: rest) then
    reading.between? .documentStart cursor.skip.skip.skip
  else if isLineOf '.' place (c :: rest) then
    reading.between? .documentEnd cursor.skip.skip.skip
  else if c == '[' then reading.openFlow? .openBracket
  else if c == '\x7b' then reading.openFlow? .openBrace
  else if c == ']' then reading.closeFlow? .closeBracket
  else if c == '\x7d' then reading.closeFlow? .closeBrace
  else if c == ',' then reading.comma?
  else if c == '-' && endsWord rest then reading.item?
  else if c == '?' && (reading.inFlow || endsWord rest) then reading.explicitKey?
  else if c == ':' && (reading.inFlow || endsWord rest) then reading.value?
  else if c == '*' then do
    let (name, cursor) ← readName cursor
    reading.inKey? (.reference name) cursor
  else if c == '&' then do
    let (name, cursor) ← readName cursor
    reading.inKey? (.anchor name) cursor
  else if c == '!' then do
    let (token, cursor) ← readTag reading.inFlow cursor
    reading.inKey? token cursor
  else if (c == '|' || c == '>') && !reading.inFlow then reading.block?
  else if c == '\'' || c == '"' then reading.quoted?
  else if startsPlain reading.inFlow c rest then reading.plain?
  else none

/-- Read on to the end of the text. Every token takes a character at least, so the length of the text
bounds their number. -/
def finish? : Nat → Reading → Option (List Token)
  | 0, _ => none
  | fuel + 1, reading => do
    let reading ← (skipToToken (fuel + 1) reading).dropKeys?
    let reading := reading.closeDeeper
    match reading.cursor.rest with
    | [] => return (← reading.closeAll.forgetKey?).tokens.toList
    | c :: rest => finish? fuel (← reading.token? c rest)

end Reading

/-- The tokens of a text. -/
def tokens? (text : String) : Option (List Token) :=
  let chars := text.toList
  if chars.all isAllowed then
    Reading.finish? (chars.length + 1) { cursor := { rest := chars } }
  else none

end QubitRouting.Yaml
