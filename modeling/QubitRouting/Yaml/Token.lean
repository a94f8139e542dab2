/-!
# YAML tokens

The words of a document. Indentation is turned into tokens too: where a block collection starts and
where it ends.
-/

namespace QubitRouting.Yaml

/-- A tag as octets. -/
abbrev Tag := List UInt8

/-- A token. -/
inductive Token where
  /-- The version of the notation. -/
  | version (major minor : Nat)
  /-- What a handle of tags stands for. -/
  | handle (name : String) (meaning : Tag)
  | documentStart | documentEnd
  | blockSequence | blockMapping | blockEnd
  | openBracket | closeBracket | openBrace | closeBrace
  /-- A dash that starts an item. -/
  | item
  | comma
  /-- The start of a key, which may be implied. -/
  | key
  /-- The colon before a value. -/
  | value
  | reference (name : String)
  | anchor (name : String)
  /-- A tag, its handle apart. -/
  | tag (handle : String) (suffix : Tag)
  /-- A scalar; a plain one is written without quotes and in no block of its own. -/
  | scalar (text : String) (plain : Bool)
deriving DecidableEq

end QubitRouting.Yaml
