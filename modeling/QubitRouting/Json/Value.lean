import QubitRouting.Decimal.Numeral
import QubitRouting.Json.Literal

/-!
# JSON values

A value read from or written to JSON: numbers stay numerals, strings stay as they are written, and the
fields of an object keep their order and may repeat.
-/

namespace QubitRouting

/-- A value. -/
inductive Json where
  | null
  | bool (value : Bool)
  | number (numeral : Numeral)
  | string (literal : Json.Literal)
  | array (items : List Json)
  | object (fields : List (Json.Literal × Json))

namespace Json

/-- The value of a natural number. -/
def ofNat (n : Nat) : Json := number (.ofNat n)

/-- The value of a text. -/
def text (value : String) : Json := string (.ofText value)

/-- The object with the given fields. -/
def ofFields (fields : List (String × Json)) : Json :=
  object (fields.map fun (key, value) => (.ofText key, value))

/-- The natural number of a value, if it is written as one. -/
def toNat? : Json → Option Nat
  | number numeral => numeral.toNat?
  | _ => none

/-- The natural number of a value, if it is below a bound. -/
def natBelow? (bound : Nat) (value : Json) : Option Nat :=
  value.toNat?.filter (· < bound)

/-- The text of a string. -/
def toText? : Json → Option String
  | string literal => literal.text?
  | _ => none

/-- The items of an array. -/
def items? : Json → Option (List Json)
  | array items => some items
  | _ => none

mutual

/-- How many arrays and objects stand inside each other. -/
def depth : Json → Nat
  | array items => itemsDepth items + 1
  | object fields => fieldsDepth fields + 1
  | _ => 0

/-- The depth of the deepest item. -/
def itemsDepth : List Json → Nat
  | [] => 0
  | item :: rest => max item.depth (itemsDepth rest)

/-- The depth of the deepest field. -/
def fieldsDepth : List (Literal × Json) → Nat
  | [] => 0
  | (_, value) :: rest => max value.depth (fieldsDepth rest)

end

end Json

end QubitRouting
