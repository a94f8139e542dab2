import QubitRouting.Fields
import QubitRouting.Json.Value
import QubitRouting.OrderedMap

/-!
# Records, variants and maps in JSON

How the composite values of the library are read: records from objects or arrays, variants from a name
or an object with one field, and maps with numeric keys from objects whose keys are decimal digits.
-/

namespace QubitRouting.Json

/-- The fields of a record, from an object or an array. -/
def record? (names : List String) : Json → Option (List (Option Json))
  | object fields => do
    let named ← fields.mapM fun (key, value) => do return (names.idxOf? (← key.text?), value)
    Fields.ofEntries? names.length named
  | array items => Fields.ofList? names.length items
  | _ => none

/-- The name of a variant and what it holds: a bare name holds nothing, an object with one field holds
the value of that field. -/
def variant? : Json → Option (String × Option Json)
  | string name => do return (← name.text?, none)
  | object [(name, content)] => do return (← name.text?, some content)
  | _ => none

/-- Whether the content of a variant is that of one without data. -/
def isUnit : Option Json → Bool
  | none => true
  | some null => true
  | some _ => false

/-- A truth value. -/
def toBool? : Json → Option Bool
  | bool value => some value
  | _ => none

/-- A 64-bit number. -/
def toUInt64? (value : Json) : Option UInt64 := (value.natBelow? UInt64.size).map UInt64.ofNat

/-- A 32-bit number. -/
def toUInt32? (value : Json) : Option UInt32 := (value.natBelow? UInt32.size).map UInt32.ofNat

/-- A number written as a key: decimal digits without a leading zero and without escapes, below a
bound. -/
def keyBelow? (bound : Nat) (key : Literal) : Option Nat :=
  let digits := key.spelling
  if digits.isEmpty || !digits.all Char.isDigit then none
  else if digits.head? == some '0' && digits.length != 1 then none
  else some (Numeral.valueOf digits) |>.filter (· < bound)

/-- A map from an object; the last of several entries with the same key counts. -/
def map? {K V : Type} [Ranked K] (readKey : Literal → Option K) (readValue : Json → Option V) :
    Json → Option (OrderedMap K V)
  | object fields => do
    let entries ← fields.mapM fun (key, value) => do
      return ((← readKey key), (← readValue value))
    return OrderedMap.ofList entries
  | _ => none

/-- The object of a map. -/
def ofMap {K V : Type} [Ranked K] (writeKey : K → Nat) (writeValue : V → Json)
    (map : OrderedMap K V) : Json :=
  ofFields (map.entries.map fun (key, value) => (toString (writeKey key), writeValue value))

end QubitRouting.Json
