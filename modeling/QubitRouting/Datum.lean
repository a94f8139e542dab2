import QubitRouting.Decimal.Reading
import QubitRouting.Fields
import QubitRouting.Json.Value
import QubitRouting.OrderedMap

/-!
# Plain data

The data of a configuration document, whatever notation it was written in. Maps keep the order of
their entries, and keys may be of any kind.
-/

namespace QubitRouting

/-- A piece of plain data. -/
inductive Datum where
  | null
  | bool (value : Bool)
  /-- A natural number below `2 ^ 64`. -/
  | natural (value : Nat)
  /-- An integer with a minus sign, which may be zero. -/
  | negated (magnitude : Nat)
  /-- Any other number; its value is never needed. -/
  | otherNumber
  | text (value : String)
  | list (items : List Datum)
  | map (entries : List (Datum × Datum))

namespace Datum

mutual

/-- The data of a JSON value. A number that is too large for binary64 makes it unreadable, and so does a
string without a text. -/
def ofJson? : Json → Option Datum
  | .null => some null
  | .bool value => some (bool value)
  | .number numeral =>
    match numeral.toNat? with
    | some n => if n < UInt64.size then some (natural n) else numeral.bits?.map fun _ => otherNumber
    | none => numeral.bits?.map fun _ => otherNumber
  | .string literal => do return text (← literal.text?)
  | .array items => do return list (← ofItems? items)
  | .object fields => do return map (← ofFields? fields)

/-- The data of the items of an array. -/
def ofItems? : List Json → Option (List Datum)
  | [] => some []
  | item :: rest => do return (← ofJson? item) :: (← ofItems? rest)

/-- The data of the fields of an object. -/
def ofFields? : List (Json.Literal × Json) → Option (List (Datum × Datum))
  | [] => some []
  | (key, value) :: rest => do return (text (← key.text?), ← ofJson? value) :: (← ofFields? rest)

end

/-- The field of a record that a key names: by its name, or by its number. Texts and numbers that name
no field are passed over; other keys are refused. -/
def fieldOf? (names : List String) : Datum → Option (Option Nat)
  | text name => some (names.idxOf? name)
  | natural n => some (if n < names.length then some n else none)
  | _ => none

/-- The fields of a record, from a map or a list. -/
def record? (names : List String) : Datum → Option (List (Option Datum))
  | map entries => do
    let named ← entries.mapM fun (key, value) => do return (← fieldOf? names key, value)
    Fields.ofEntries? names.length named
  | list items => Fields.ofList? names.length items
  | _ => none

/-- A natural number below a bound. Zero may have a minus sign. -/
def natBelow? (bound : Nat) : Datum → Option Nat
  | natural n => if n < bound then some n else none
  | negated 0 => if 0 < bound then some 0 else none
  | _ => none

/-- A 32-bit number. -/
def toUInt32? (datum : Datum) : Option UInt32 := (datum.natBelow? UInt32.size).map UInt32.ofNat

/-- A 64-bit number. -/
def toUInt64? (datum : Datum) : Option UInt64 := (datum.natBelow? UInt64.size).map UInt64.ofNat

/-- A truth value. -/
def toBool? : Datum → Option Bool
  | bool value => some value
  | _ => none

/-- Whether there is nothing in it. -/
def isVoid : Datum → Bool
  | null => true
  | map [] => true
  | _ => false

/-- The name of one of several variants without data: a text, or a map from the name, or the number,
of the variant to nothing. -/
def variant? (names : List String) : Datum → Option Nat
  | text name => names.idxOf? name
  | map [(key, content)] =>
    if content.isVoid then (fieldOf? names key).bind id else none
  | _ => none

end Datum

end QubitRouting
