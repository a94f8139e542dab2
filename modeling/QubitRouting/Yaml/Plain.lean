import QubitRouting.Yaml.Folding

/-!
# Plain scalars of YAML

A scalar without quotes ends where an indicator could follow it. It may go on in the next line if that is
indented far enough.
-/

namespace QubitRouting.Yaml

/-- Where a plain scalar stands. -/
structure PlainContext where
  /-- Whether it stands in brackets. -/
  flow : Bool
  /-- The least column of its further lines. -/
  column : Nat

/-- A plain scalar that was read. -/
structure Plain where
  chars : List Char
  /-- The gap after them. -/
  gap : Gap
  /-- The cursor after the gap. -/
  cursor : Cursor

/-- Whether a character separates the items of brackets or encloses them. -/
def isFlowIndicator (c : Char) : Bool :=
  c == ',' || c == '[' || c == ']' || c == '\x7b' || c == '\x7d'

/-- Whether a part of a plain scalar may not start here, after a gap. -/
def PlainContext.endsAfterGap (context : PlainContext) (place : Place) (text : List Char) : Bool :=
  text.head? == some '#' || !context.flow && place.column < context.column
    || isDocumentMark place text

/-- Whether a plain scalar ends before the given text. -/
def PlainContext.endsBefore (context : PlainContext) : List Char → Bool
  | [] => true
  | c :: rest => c == ':' && endsWord rest || context.flow && isFlowIndicator c

/-- Whether a colon stands in brackets where it can be neither an indicator nor a character. -/
def PlainContext.isStrayColon (context : PlainContext) : List Char → Bool
  | ':' :: c :: _ => context.flow && (isFlowIndicator c || c == '?')
  | _ => false

/-- The rest of a plain scalar after a gap. A line may not be indented with tabs. -/
def PlainContext.read (context : PlainContext) (gap : Gap) (place : Place) :
    List Char → Option Plain
  | [] => some ⟨[], gap, ⟨place, []⟩⟩
  | '\r' :: '\n' :: rest =>
    context.read (gap.addBreak '\n') ((place.after '\r').after '\n') rest
  | c :: rest =>
    if isBreak c then context.read (gap.addBreak c) (place.after c) rest
    else if isBlank c then
      if c == '\t' && gap.crossesLine && place.column < context.column then none
      else context.read (gap.addBlank c) (place.after c) rest
    else if !gap.isEmpty && context.endsAfterGap place (c :: rest) then
      some ⟨[], gap, ⟨place, c :: rest⟩⟩
    else if context.isStrayColon (c :: rest) then none
    else if context.endsBefore (c :: rest) then some ⟨[], gap, ⟨place, c :: rest⟩⟩
    else do
      let plain ← context.read {} (place.after c) rest
      return { plain with chars := gap.text ++ c :: plain.chars }

end QubitRouting.Yaml
