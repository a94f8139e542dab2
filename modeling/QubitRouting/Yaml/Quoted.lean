import QubitRouting.Text.Hex
import QubitRouting.Yaml.Folding

/-!
# Quoted scalars of YAML

Scalars between single or double quotes. Lines are folded inside quotes, and no mark between documents
may stand there. Single quotes know one escape, the quote written twice; in double quotes a backslash
escapes characters, codes and line breaks.
-/

namespace QubitRouting.Yaml

/-- The characters up to the closing single quote after a gap, and the cursor behind the quote. -/
def readSingleQuoted (gap : Gap) (place : Place) : List Char → Option (List Char × Cursor)
  | [] => none
  | '\r' :: '\n' :: rest =>
    readSingleQuoted (gap.addBreak '\n') ((place.after '\r').after '\n') rest
  | '\'' :: '\'' :: rest => do
    let (chars, cursor) ← readSingleQuoted {} ((place.after '\'').after '\'') rest
    return (gap.text ++ '\'' :: chars, cursor)
  | c :: rest =>
    if isBreak c then readSingleQuoted (gap.addBreak c) (place.after c) rest
    else if isBlank c then readSingleQuoted (gap.addBlank c) (place.after c) rest
    else if c == '\'' then some (gap.text, ⟨place.after c, rest⟩)
    else if isDocumentMark place (c :: rest) then none
    else do
      let (chars, cursor) ← readSingleQuoted {} (place.after c) rest
      return (gap.text ++ c :: chars, cursor)

/-- The character that a letter after a backslash stands for. -/
def unescape? (c : Char) : Option Char :=
  match c with
  | '0' => some '\x00'
  | 'a' => some '\x07'
  | 'b' => some '\x08'
  | 't' => some '\t'
  | '\t' => some '\t'
  | 'n' => some '\n'
  | 'v' => some '\x0b'
  | 'f' => some '\x0c'
  | 'r' => some '\r'
  | 'e' => some '\x1b'
  | ' ' => some ' '
  | '"' => some '"'
  | '/' => some '/'
  | '\\' => some '\\'
  | 'N' => some '\x85'
  | '_' => some '\xa0'
  | 'L' => some '\u2028'
  | 'P' => some '\u2029'
  | _ => none

/-- How many hexadecimal digits follow a letter after a backslash. -/
def codeLength? (c : Char) : Option Nat :=
  match c with
  | 'x' => some 2
  | 'u' => some 4
  | 'U' => some 8
  | _ => none

/-- The character of a code. -/
def charOfCode? (code : Nat) : Option Char :=
  if code < 0x110000 ∧ ¬ (0xd800 ≤ code ∧ code < 0xe000) then some (Char.ofNat code) else none

/-- A code of which some digits have been read. -/
structure OpenCode where
  /-- How many digits follow the next one. -/
  left : Nat
  /-- The number of the digits read. -/
  code : Nat := 0

/-- The characters up to the closing double quote, after a gap or in the middle of a code, and the cursor
behind the quote. -/
def readDoubleQuoted (gap : Gap) (openCode : Option OpenCode) (place : Place) :
    List Char → Option (List Char × Cursor)
  | [] => none
  | c :: rest =>
    match openCode with
    | some ⟨left, code⟩ => do
      let code := 16 * code + (← Text.hexValue? c)
      match left with
      | left + 1 => readDoubleQuoted gap (some ⟨left, code⟩) (place.after c) rest
      | 0 =>
        let char ← charOfCode? code
        let (chars, cursor) ← readDoubleQuoted {} none (place.after c) rest
        return (char :: chars, cursor)
    | none =>
      match c, rest with
      | '\r', '\n' :: rest =>
        readDoubleQuoted (gap.addBreak '\n') none ((place.after '\r').after '\n') rest
      | '\\', '\r' :: '\n' :: rest => do
        let place := ((place.after '\\').after '\r').after '\n'
        let (chars, cursor) ← readDoubleQuoted .continued none place rest
        return (gap.text ++ chars, cursor)
      | '\\', letter :: rest => do
        let place := (place.after '\\').after letter
        if isBreak letter then
          let (chars, cursor) ← readDoubleQuoted .continued none place rest
          return (gap.text ++ chars, cursor)
        else
          match codeLength? letter with
          | some length =>
            let (chars, cursor) ← readDoubleQuoted {} (some ⟨length - 1, 0⟩) place rest
            return (gap.text ++ chars, cursor)
          | none =>
            let char ← unescape? letter
            let (chars, cursor) ← readDoubleQuoted {} none place rest
            return (gap.text ++ char :: chars, cursor)
      | c, rest =>
        if isBreak c then readDoubleQuoted (gap.addBreak c) none (place.after c) rest
        else if isBlank c then readDoubleQuoted (gap.addBlank c) none (place.after c) rest
        else if c == '"' then some (gap.text, ⟨place.after c, rest⟩)
        else if isDocumentMark place (c :: rest) then none
        else do
          let (chars, cursor) ← readDoubleQuoted {} none (place.after c) rest
          return (gap.text ++ c :: chars, cursor)

/-- A scalar in quotes at the cursor, and the cursor behind it. -/
def readQuoted (cursor : Cursor) : Option (List Char × Cursor) :=
  match cursor.rest with
  | '\'' :: rest => readSingleQuoted {} (cursor.place.after '\'') rest
  | '"' :: rest => readDoubleQuoted {} none (cursor.place.after '"') rest
  | _ => none

end QubitRouting.Yaml
