import QubitRouting.Yaml.Place

/-!
# Line folding in YAML

What the blanks and line breaks between two parts of a scalar count for. Inside a line, blanks count as
they are. A single line break, with the blanks around it, counts as a space; of several ones all but the
first count.
-/

namespace QubitRouting.Yaml

/-- A line break as it counts in a scalar. -/
def breakChar (c : Char) : Char := if c == '\u2028' || c == '\u2029' then c else '\n'

/-- The blanks and line breaks between two parts of a scalar. -/
structure Gap where
  /-- The blanks before any line break. -/
  blanks : List Char := []
  /-- Whether there is a line break. -/
  crossesLine : Bool := false
  /-- The first line break, unless it was taken back by a backslash. -/
  first : Option Char := none
  /-- The line breaks after the first one. -/
  others : List Char := []

namespace Gap

/-- Whether there is nothing in the gap. -/
def isEmpty (gap : Gap) : Bool := gap.blanks.isEmpty && !gap.crossesLine

/-- One more blank. -/
def addBlank (gap : Gap) (c : Char) : Gap :=
  if gap.crossesLine then gap else { gap with blanks := gap.blanks ++ [c] }

/-- One more line break. -/
def addBreak (gap : Gap) (c : Char) : Gap :=
  if gap.crossesLine then { gap with others := gap.others ++ [breakChar c] }
  else { gap with crossesLine := true, first := some (breakChar c) }

/-- The gap that a backslash at the end of a line starts. -/
def continued : Gap := { crossesLine := true }

/-- What the gap counts for. -/
def text (gap : Gap) : List Char :=
  if !gap.crossesLine then gap.blanks
  else
    match gap.first with
    | some '\n' => if gap.others.isEmpty then [' '] else gap.others
    | some c => c :: gap.others
    | none => gap.others

end Gap

end QubitRouting.Yaml
