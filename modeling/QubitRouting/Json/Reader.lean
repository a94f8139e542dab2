import QubitRouting.Json.Token

/-!
# Reading JSON

A value is read from tokens. A text holds one value and nothing else.
-/

namespace QubitRouting.Json

mutual

/-- The value at the front of a list of tokens. The first argument bounds the depth of the calls. -/
def readValue : Nat → List Token → Option (Json × List Token)
  | 0, _ => none
  | fuel + 1, tokens =>
    match tokens with
    | .null :: rest => some (null, rest)
    | .bool value :: rest => some (bool value, rest)
    | .number numeral :: rest => some (number numeral, rest)
    | .string literal :: rest => some (string literal, rest)
    | .openBracket :: .closeBracket :: rest => some (array [], rest)
    | .openBracket :: rest => do
      let (items, rest) ← readItems fuel rest
      return (array items, rest)
    | .openBrace :: .closeBrace :: rest => some (object [], rest)
    | .openBrace :: rest => do
      let (fields, rest) ← readFields fuel rest
      return (object fields, rest)
    | _ => none

/-- The items of an array, one at least, up to its closing bracket. -/
def readItems : Nat → List Token → Option (List Json × List Token)
  | 0, _ => none
  | fuel + 1, tokens => do
    let (item, rest) ← readValue fuel tokens
    match rest with
    | .closeBracket :: rest => return ([item], rest)
    | .comma :: rest =>
      let (items, rest) ← readItems fuel rest
      return (item :: items, rest)
    | _ => none

/-- The fields of an object, one at least, up to its closing brace. -/
def readFields : Nat → List Token → Option (List (Literal × Json) × List Token)
  | 0, _ => none
  | fuel + 1, tokens =>
    match tokens with
    | .string key :: .colon :: rest => do
      let (value, rest) ← readValue fuel rest
      match rest with
      | .closeBrace :: rest => return ([(key, value)], rest)
      | .comma :: rest =>
        let (fields, rest) ← readFields fuel rest
        return ((key, value) :: fields, rest)
      | _ => none
    | _ => none

end

/-- The value of a text. -/
def parse? (text : String) : Option Json := do
  let tokens ← tokens? text.toList
  match ← readValue (tokens.length + 1) tokens with
  | (value, []) => return value
  | _ => none

end QubitRouting.Json
