import QubitRouting.Text.Extending
import QubitRouting.Text.Unassigned

/-!
# Characters without a visible form

Control and format characters, separators other than the plain space, fillers, private-use characters,
unassigned code points and the marks that extend the character before them: the characters a quoted text
spells out by number. Each class is a table of ranges in ascending order.
-/

namespace QubitRouting.Text

/-- Control characters. -/
def controlRanges : List (Nat × Nat) :=
  [ (0x0, 0x1f), (0x7f, 0x9f) ]

/-- Spaces other than the plain one, and separators of lines and paragraphs. -/
def separatorRanges : List (Nat × Nat) :=
  [ (0xa0, 0xa0), (0x1680, 0x1680), (0x2000, 0x200a), (0x2028, 0x2029), (0x202f, 0x202f),
    (0x205f, 0x205f), (0x3000, 0x3000) ]

/-- Format characters. -/
def formatRanges : List (Nat × Nat) :=
  [ (0xad, 0xad), (0x600, 0x605), (0x61c, 0x61c), (0x6dd, 0x6dd), (0x70f, 0x70f), (0x890, 0x891),
    (0x8e2, 0x8e2), (0x180e, 0x180e), (0x200b, 0x200f), (0x202a, 0x202e), (0x2060, 0x2064),
    (0x2066, 0x206f), (0xfeff, 0xfeff), (0xfff9, 0xfffb), (0x110bd, 0x110bd), (0x110cd, 0x110cd),
    (0x13430, 0x1343f), (0x1bca0, 0x1bca3), (0x1d173, 0x1d17a), (0xe0001, 0xe0001),
    (0xe0020, 0xe007f) ]

/-- Letters that only fill the place of another one and are not shown. -/
def fillerRanges : List (Nat × Nat) :=
  [ (0x115f, 0x1160), (0x3164, 0x3164), (0xffa0, 0xffa0) ]

/-- Private-use characters. -/
def privateRanges : List (Nat × Nat) :=
  [ (0xe000, 0xf8ff), (0xf0000, 0xffffd), (0x100000, 0x10fffd) ]

/-- Whether a character lies in one of the ranges. -/
def inRanges (ranges : List (Nat × Nat)) (c : Char) : Bool :=
  ranges.any fun range => range.1 ≤ c.toNat && c.toNat ≤ range.2

/-- Whether a character has a visible form. -/
def isPrintable (c : Char) : Bool :=
  let tables :=
    [ controlRanges, separatorRanges, formatRanges, fillerRanges, privateRanges, extendingRanges,
      unassignedRanges, unassignedSupplementaryRanges ]
  !tables.any fun ranges => inRanges ranges c

end QubitRouting.Text
