import QubitRouting.Text.Hex
import QubitRouting.Yaml.Place
import QubitRouting.Yaml.Token

/-!
# Tags, anchors and directives of YAML

A tag is a handle and a suffix, or it stands in full between angle brackets. Percent signs escape octets,
which have to be grouped as in UTF-8. A tag ends before its first zero octet.
-/

namespace QubitRouting.Yaml

/-- Whether a character may stand in a tag. Commas and brackets may do so only where the tag has a
closing mark of its own. -/
def isTagChar (enclosed : Bool) (c : Char) : Bool :=
  isWordChar c || ";/?:@&=+$.!~*'()".toList.contains c || enclosed && ",[]".toList.contains c

/-- How many octets follow the first one of a character. -/
def followers? (octet : Nat) : Option Nat :=
  if octet < 0x80 then some 0
  else if octet / 0x20 = 6 then some 1
  else if octet / 0x10 = 14 then some 2
  else if octet / 0x08 = 30 then some 3
  else none

/-- The octets of a tag. `owed` octets of a character are still to come. -/
def tagOctets (enclosed : Bool) (owed : Nat) (place : Place) :
    List Char → Option (List UInt8 × Cursor)
  | '%' :: a :: b :: rest => do
    let octet ← Text.numberIn? 16 [a, b]
    let owed ←
      if owed = 0 then followers? octet
      else if octet / 0x40 = 2 then some (owed - 1)
      else none
    let (octets, cursor) ← tagOctets enclosed owed (((place.after '%').after a).after b) rest
    return (UInt8.ofNat octet :: octets, cursor)
  | c :: rest =>
    if owed ≠ 0 ∨ c = '%' then none
    else if isTagChar enclosed c then do
      let (octets, cursor) ← tagOctets enclosed 0 (place.after c) rest
      return (UInt8.ofNat c.toNat :: octets, cursor)
    else some ([], ⟨place, c :: rest⟩)
  | [] => if owed = 0 then some ([], ⟨place, []⟩) else none

/-- The octets of a tag at the cursor, one at least, up to the first zero. -/
def readOctets (enclosed : Bool) (cursor : Cursor) : Option (Tag × Cursor) := do
  let (octets, cursor) ← tagOctets enclosed 0 cursor.place cursor.rest
  if octets.isEmpty then none else some (octets.takeWhile (· != 0), cursor)

/-- A handle: an exclamation mark, a word, and a second mark if there is one. -/
def readHandle (cursor : Cursor) : Option (List Char × Cursor) :=
  match cursor.rest with
  | '!' :: _ =>
    let (word, cursor) := cursor.skip.takeWhile isWordChar
    match cursor.rest with
    | '!' :: _ => some ('!' :: word ++ ['!'], cursor.skip)
    | _ => some ('!' :: word, cursor)
  | _ => none

/-- Whether a handle has its second mark. -/
def isClosedHandle (handle : List Char) : Bool := handle.length > 1 && handle.getLast? == some '!'

/-- A tag without angle brackets. Without a closed handle, the word read is the start of the suffix; an
exclamation mark on its own is a tag in full. -/
def readShortTag (cursor : Cursor) : Option (Token × Cursor) := do
  let (handle, cursor) ← readHandle cursor
  if isClosedHandle handle then
    let (suffix, cursor) ← readOctets false cursor
    return (.tag (String.ofList handle) suffix, cursor)
  else
    let (octets, cursor) ← tagOctets false 0 cursor.place cursor.rest
    let word := handle.drop 1 |>.map fun c => UInt8.ofNat c.toNat
    match (word ++ octets).takeWhile (· != 0) with
    | [] => return (.tag "" "!".toUTF8.toList, cursor)
    | suffix => return (.tag "!" suffix, cursor)

/-- A tag. In brackets it may be followed by a comma at once. -/
def readTag (flow : Bool) (cursor : Cursor) : Option (Token × Cursor) := do
  let (token, cursor) ←
    match cursor.rest with
    | '!' :: '<' :: _ => do
      let (suffix, cursor) ← readOctets true cursor.skip.skip
      match cursor.rest with
      | '>' :: _ => some (Token.tag "" suffix, cursor.skip)
      | _ => none
    | _ => readShortTag cursor
  if endsWord cursor.rest || flow && cursor.rest.head? == some ',' then some (token, cursor) else none

/-- The name of an anchor, and what follows it. -/
def readName (cursor : Cursor) : Option (String × Cursor) :=
  let (name, cursor) := cursor.skip.takeWhile isWordChar
  let ends :=
    match cursor.rest with
    | c :: _ => "?:,]%@".toList.contains c || c == '\x7d' || c == '\x60'
    | [] => true
  if !name.isEmpty && (ends || endsWord cursor.rest) then some (String.ofList name, cursor) else none

/-- A number of a version, of nine digits at most. -/
def readVersionNumber (cursor : Cursor) : Option (Nat × Cursor) := do
  let (digits, cursor) := cursor.takeWhile Char.isDigit
  if digits.length ≤ 9 then return (← Text.numberIn? 10 digits, cursor) else none

/-- The version in a directive. -/
def readVersion (cursor : Cursor) : Option (Token × Cursor) := do
  let (major, cursor) ← readVersionNumber (cursor.skipWhile isBlank)
  match cursor.rest with
  | '.' :: _ =>
    let (minor, cursor) ← readVersionNumber cursor.skip
    return (.version major minor, cursor)
  | _ => none

/-- The handle in a directive and what it stands for. -/
def readMeaning (cursor : Cursor) : Option (Token × Cursor) := do
  let (handle, cursor) ← readHandle (cursor.skipWhile isBlank)
  if handle != ['!'] && !isClosedHandle handle then none
  if endsLine cursor.rest || !endsWord cursor.rest then none
  let (meaning, cursor) ← readOctets true (cursor.skipWhile isBlank)
  if endsWord cursor.rest then return (.handle (String.ofList handle) meaning, cursor) else none

/-- A directive with the line that it takes up. -/
def readDirective (cursor : Cursor) : Option (Token × Cursor) := do
  let (name, cursor) := cursor.skip.takeWhile isWordChar
  if !endsWord cursor.rest then none
  let (token, cursor) ←
    match String.ofList name with
    | "YAML" => readVersion cursor
    | "TAG" => readMeaning cursor
    | _ => none
  return (token, (← cursor.skipComment?).skipBreak)

end QubitRouting.Yaml
