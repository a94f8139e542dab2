import QubitRouting.Datum
import QubitRouting.Decimal.Range
import QubitRouting.Text.Hex
import QubitRouting.Yaml.Token

/-!
# What scalars of YAML stand for

A plain scalar stands for nothing, a truth value, a number, or else the text itself. A tag may ask for one
of these kinds whatever the quotes; a tag of the document's own makes the scalar a variant, which is no
plain data.
-/

namespace QubitRouting.Yaml

/-- A zero followed by more digits is a text, not a number. -/
def isPadded (digits : List Char) : Bool :=
  digits.length > 1 && digits.head? == some '0' && digits.all Char.isDigit

/-- The magnitude of an integer: decimal, or in the base its first two characters announce. -/
def magnitude? (digits : List Char) : Option Nat :=
  let announced :=
    match digits with
    | '0' :: 'x' :: rest => Text.numberIn? 16 rest
    | '0' :: 'o' :: rest => Text.numberIn? 8 rest
    | '0' :: 'b' :: rest => Text.numberIn? 2 rest
    | _ => none
  match announced with
  | some n => some n
  | none => if isPadded digits then none else Text.numberIn? 10 digits

/-- The exponent at the end of a number, which may be left out. -/
def exponent? : List Char → Option Int
  | [] => some 0
  | c :: rest =>
    if c == 'e' || c == 'E' then
      match rest with
      | '-' :: digits => (Text.numberIn? 10 digits).map fun n => -(n : Int)
      | '+' :: digits => (Text.numberIn? 10 digits).map fun n => (n : Int)
      | digits => (Text.numberIn? 10 digits).map fun n => (n : Int)
    else none

/-- The decimal of a number with or without a point and an exponent, its sign taken off. -/
def decimal? (text : List Char) : Option Decimal := do
  let (whole, rest) := text.span Char.isDigit
  let (fraction, rest) :=
    match rest with
    | '.' :: rest => rest.span Char.isDigit
    | rest => ([], rest)
  let digits ← Text.numberIn? 10 (whole ++ fraction)
  return { digits, exponent := (← exponent? rest) - fraction.length }

/-- The sign in front of a number. -/
inductive Sign where
  | absent | plus | minus
deriving DecidableEq

/-- The sign in front of a text, and the rest. -/
def splitSign : List Char → Sign × List Char
  | '+' :: rest => (.plus, rest)
  | '-' :: rest => (.minus, rest)
  | rest => (.absent, rest)

/-- Whether a text is a real number: one that binary64 can hold, infinity, or what is no number. -/
def isReal (text : List Char) : Bool :=
  let (sign, magnitude) := splitSign text
  (decimal? magnitude).any Decimal.isFinite
    || [".inf", ".Inf", ".INF"].contains (String.ofList magnitude)
    || sign == .absent && [".nan", ".NaN", ".NAN"].contains (String.ofList magnitude)

/-- What a text is as an integer. -/
inductive Integer where
  /-- It is none, or has more than 128 bits. -/
  | absent
  /-- It has more than 64 bits, which is refused. -/
  | wide
  /-- It has up to 64 bits. -/
  | word (datum : Datum)

/-- The integer of a text, sign included. -/
def Integer.ofText (text : List Char) : Integer :=
  let (sign, digits) := splitSign text
  match sign, magnitude? digits with
  | _, none => .absent
  | .minus, some n =>
    if n ≤ Nat.pow 2 63 then .word (.negated n) else if n ≤ Nat.pow 2 127 then .wide else .absent
  | _, some n =>
    if n < UInt64.size then .word (.natural n) else if n < Nat.pow 2 128 then .wide else .absent

/-- Whether a text stands for nothing. -/
def isNull (text : String) : Bool := ["~", "null", "Null", "NULL"].contains text

/-- The truth value of a text. -/
def truth? (text : String) : Option Bool :=
  if ["true", "True", "TRUE"].contains text then some true
  else if ["false", "False", "FALSE"].contains text then some false
  else none

/-- What a plain scalar stands for, unless it is refused. -/
def resolvePlain? (text : String) : Option Datum :=
  if text.isEmpty || isNull text then some .null
  else
    match truth? text, Integer.ofText text.toList with
    | some value, _ => some (.bool value)
    | none, .word datum => some datum
    | none, .wide => none
    | none, .absent =>
      if !isPadded (splitSign text.toList).2 && isReal text.toList then some .otherNumber
      else some (.text text)

namespace Tag

/-- Whether a tag is one of the document's own, which starts with an exclamation mark. -/
def isLocal (tag : Tag) : Bool := tag.head? == some 0x21

/-- Whether a tag makes its node a variant: it is one of the document's own, and a text. -/
def isVariant (tag : Tag) : Bool :=
  isLocal tag && (String.fromUTF8? ⟨(tag.drop 1).toArray⟩).isSome

end Tag

/-- The kinds that a tag may ask for. -/
inductive ScalarKind where
  | null | bool | integer | real
deriving DecidableEq

/-- The kind that a tag asks for. -/
def ScalarKind.ofTag? (tag : Tag) : Option ScalarKind :=
  match (String.fromUTF8? ⟨tag.toArray⟩) with
  | some "tag:yaml.org,2002:null" => some .null
  | some "tag:yaml.org,2002:bool" => some .bool
  | some "tag:yaml.org,2002:int" => some .integer
  | some "tag:yaml.org,2002:float" => some .real
  | _ => none

/-- The data of a text that is asked to be of a kind. -/
def ScalarKind.resolve? (kind : ScalarKind) (text : String) : Option Datum :=
  match kind with
  | null => if isNull text then some .null else none
  | bool => (truth? text).map .bool
  | integer =>
    match Integer.ofText text.toList with
    | .word datum => some datum
    | _ => none
  | real => if isReal text.toList then some .otherNumber else none

/-- What a scalar stands for, unless it is refused. -/
def resolve? (tag : Option Tag) (text : String) (plain : Bool) : Option Datum :=
  match tag with
  | none => if plain then resolvePlain? text else some (.text text)
  | some tag =>
    if Tag.isVariant tag then none
    else
      match ScalarKind.ofTag? tag with
      | some kind => kind.resolve? text
      | none => if Tag.isLocal tag && plain then resolvePlain? text else some (.text text)

end QubitRouting.Yaml
