import QubitRouting.Json.Token

/-!
# Writing JSON

A value is written as the tokens that it is read from, either without blanks or one item to a line.
-/

namespace QubitRouting.Json

mutual

/-- The tokens of a value. -/
def tokens : Json → List Token
  | null => [.null]
  | bool value => [.bool value]
  | number numeral => [.number numeral]
  | string literal => [.string literal]
  | array items => .openBracket :: itemTokens items ++ [.closeBracket]
  | object fields => .openBrace :: fieldTokens fields ++ [.closeBrace]

/-- The tokens of the items of an array, with commas between them. -/
def itemTokens : List Json → List Token
  | [] => []
  | [item] => tokens item
  | item :: rest => tokens item ++ .comma :: itemTokens rest

/-- The tokens of the fields of an object, with commas between them. -/
def fieldTokens : List (Literal × Json) → List Token
  | [] => []
  | [(key, value)] => .string key :: .colon :: tokens value
  | (key, value) :: rest => .string key :: .colon :: tokens value ++ .comma :: fieldTokens rest

end

/-- The text of a value without blanks. -/
def compact (value : Json) : String := String.ofList (value.tokens.flatMap Token.write)

/-- The start of a line at a given depth. -/
def newLine (depth : Nat) : List Char := '\n' :: List.replicate (2 * depth) ' '

mutual

/-- The text of a value with one item to a line, at a given depth. -/
def prettyLines (depth : Nat) : Json → List Char
  | array [] => ['[', ']']
  | array items => '[' :: prettyItems depth items ++ newLine depth ++ [']']
  | object [] => ['\x7b', '\x7d']
  | object fields => '\x7b' :: prettyFields depth fields ++ newLine depth ++ ['\x7d']
  | null => Token.null.write
  | bool value => (Token.bool value).write
  | number numeral => (Token.number numeral).write
  | string literal => (Token.string literal).write

/-- The items of an array, one to a line. -/
def prettyItems (depth : Nat) : List Json → List Char
  | [] => []
  | [item] => newLine (depth + 1) ++ prettyLines (depth + 1) item
  | item :: rest =>
    newLine (depth + 1) ++ prettyLines (depth + 1) item ++ ',' :: prettyItems depth rest

/-- The fields of an object, one to a line. -/
def prettyFields (depth : Nat) : List (Literal × Json) → List Char
  | [] => []
  | [(key, value)] =>
    newLine (depth + 1) ++ (Token.string key).write ++ [':', ' '] ++ prettyLines (depth + 1) value
  | (key, value) :: rest =>
    newLine (depth + 1) ++ (Token.string key).write ++ [':', ' '] ++ prettyLines (depth + 1) value
      ++ ',' :: prettyFields depth rest

end

/-- The text of a value with one item to a line. -/
def pretty (value : Json) : String := String.ofList (value.prettyLines 0)

end QubitRouting.Json
