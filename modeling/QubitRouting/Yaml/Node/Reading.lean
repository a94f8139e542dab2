import QubitRouting.Yaml.Node
import QubitRouting.Yaml.Token.Reading

/-!
# Documents from tokens

Nodes are read by recursive descent. A name of an anchor stands for the last node that was given it; the
number of an anchor is the number of names known when it was given.
-/

namespace QubitRouting.Yaml

/-- What is known while nodes are read. -/
structure NodeReading where
  tokens : List Token
  /-- What the handles of tags stand for. -/
  handles : List (String × Tag)
  /-- The numbers of the anchors by their names. -/
  anchors : List (String × Nat) := []
  /-- The nodes that have an anchor. -/
  anchored : List Anchored := []
  /-- How many nodes with an anchor have started. -/
  started : Nat := 0

/-- Reading that may fail. -/
abbrev Reads := StateT NodeReading Option

namespace Reads

/-- The next token, if there is one. -/
def peek : Reads (Option Token) := do return (← get).tokens.head?

/-- Pass over a token. -/
def skip : Reads Unit := modify fun reading => { reading with tokens := reading.tokens.drop 1 }

/-- Pass over a token if it is the one asked for. -/
def accept (token : Token) : Reads Bool := do
  if (← peek) = some token then
    skip
    return true
  else return false

/-- Pass over the comma that stands between two items or entries. -/
def separator (first : Bool) : Reads Unit := do
  if first then return ()
  else if ← accept .comma then return ()
  else failure

/-- Whether the next token is one of a list. -/
def nextIsIn (tokens : List Token) : Reads Bool := do
  return (← peek).any tokens.contains

/-- The number of the anchor that a name stands for. -/
def anchorOf (name : String) : Reads Nat := do
  match (← get).anchors.lookup name with
  | some anchor => return anchor
  | none => failure

/-- Give a name to the node that starts here. -/
def startAnchored (name : String) : Reads (Nat × Nat) := do
  let reading ← get
  let anchor := reading.anchors.length
  let others := reading.anchors.filter (·.1 != name)
  set { reading with anchors := (name, anchor) :: others, started := reading.started + 1 }
  return (anchor, reading.started)

/-- Keep the node that was given a name. -/
def keepAnchored (start : Option (Nat × Nat)) (node : Node) : Reads Node := do
  match start with
  | none => return node
  | some (anchor, order) =>
    modify fun reading => { reading with anchored := ⟨anchor, order, node⟩ :: reading.anchored }
    return node

/-- The tag of a handle and a suffix. A tag without a handle is complete. -/
def tagOf (handle : String) (suffix : Tag) : Reads Tag := do
  if handle.isEmpty then return suffix
  else
    match (← get).handles.lookup handle with
    | some meaning => return meaning ++ suffix
    | none => failure

/-- The name of an anchor, if there is one. -/
def anchorName? : Reads (Option String) := do
  match ← peek with
  | some (.anchor name) =>
    skip
    return some name
  | _ => return none

/-- A tag, if there is one. -/
def tag? : Reads (Option Tag) := do
  match ← peek with
  | some (.tag handle suffix) =>
    skip
    return some (← tagOf handle suffix)
  | _ => return none

/-- The anchor and the tag of a node, in either order. -/
def properties : Reads (Option String × Option Tag) := do
  match ← anchorName? with
  | some name => return (some name, ← tag?)
  | none =>
    match ← tag? with
    | some tag => return (← anchorName?, some tag)
    | none => return (none, none)

/-- The tag of a scalar: an exclamation mark on its own says nothing about it. -/
def scalarTag (tag : Option Tag) : Option Tag := if tag = some "!".toUTF8.toList then none else tag

end Reads

open Reads

mutual

/-- A node. Inside a block mapping a sequence need not be indented. The first argument bounds the depth of
the calls. -/
def readNode : Nat → (block indentless : Bool) → Reads Node
  | 0, _, _ => failure
  | fuel + 1, block, indentless => do
    match ← peek with
    | some (.reference name) =>
      skip
      return .reference (← anchorOf name)
    | _ =>
      let (name, tag) ← properties
      let start ← name.mapM startAnchored
      let node ← readContent fuel block indentless (name.isSome || tag.isSome) tag
      keepAnchored start node

/-- A node without its anchor and tag, which may be left out if there is one of these. -/
def readContent : Nat → (block indentless optional : Bool) → Option Tag → Reads Node
  | 0, _, _, _, _ => failure
  | fuel + 1, block, indentless, optional, tag => do
    match ← peek with
    | some .item =>
      if indentless then return .sequence tag (← readIndentless fuel)
      else if optional then return .scalar tag "" true
      else failure
    | some (.scalar text plain) =>
      skip
      return .scalar (scalarTag tag) text plain
    | some .openBracket =>
      skip
      return .sequence tag (← readFlowItems fuel true)
    | some .openBrace =>
      skip
      return .mapping tag (← readFlowEntries fuel true)
    | some .blockSequence =>
      if block then
        skip
        return .sequence tag (← readItems fuel)
      else if optional then return .scalar tag "" true
      else failure
    | some .blockMapping =>
      if block then
        skip
        return .mapping tag (← readEntries fuel)
      else if optional then return .scalar tag "" true
      else failure
    | _ => if optional then return .scalar tag "" true else failure

/-- A node, or nothing in front of one of the given tokens. -/
def readOptional : Nat → (block indentless : Bool) → List Token → Reads Node
  | 0, _, _, _ => failure
  | fuel + 1, block, indentless, ends => do
    if ← nextIsIn ends then return .blank else readNode fuel block indentless

/-- The items of a block sequence up to its end. -/
def readItems : Nat → Reads (List Node)
  | 0 => failure
  | fuel + 1 => do
    if ← accept .item then
      let item ← readOptional fuel true false [.item, .blockEnd]
      return item :: (← readItems fuel)
    else if ← accept .blockEnd then return []
    else failure

/-- The items of a sequence that is indented like the mapping around it. -/
def readIndentless : Nat → Reads (List Node)
  | 0 => failure
  | fuel + 1 => do
    if ← accept .item then
      let item ← readOptional fuel true false [.item, .key, .value, .blockEnd]
      return item :: (← readIndentless fuel)
    else return []

/-- The entries of a block mapping up to its end. -/
def readEntries : Nat → Reads (List (Node × Node))
  | 0 => failure
  | fuel + 1 => do
    if ← accept .key then
      let key ← readOptional fuel true true [.key, .value, .blockEnd]
      let value ←
        if ← accept .value then readOptional fuel true true [.key, .value, .blockEnd]
        else pure Node.blank
      return (key, value) :: (← readEntries fuel)
    else if ← accept .blockEnd then return []
    else failure

/-- The items of a sequence in brackets up to its end. -/
def readFlowItems : Nat → (first : Bool) → Reads (List Node)
  | 0, _ => failure
  | fuel + 1, first => do
    if ← accept .closeBracket then return []
    else
      separator first
      if ← accept .closeBracket then return []
      let item ←
        if ← accept .key then
          let (key, value) ← readPair fuel
          pure (Node.mapping none [(key, value)])
        else readNode fuel false false
      return item :: (← readFlowItems fuel false)

/-- A mapping of one entry in the brackets of a sequence. A key that is left out takes the token after it
along. -/
def readPair : Nat → Reads (Node × Node)
  | 0 => failure
  | fuel + 1 => do
    let key ←
      if ← nextIsIn [.value, .comma, .closeBracket] then
        skip
        pure Node.blank
      else readNode fuel false false
    let value ←
      if ← accept .value then readOptional fuel false false [.comma, .closeBracket]
      else pure Node.blank
    return (key, value)

/-- The entries of a mapping in braces up to its end. An entry may be a key alone. -/
def readFlowEntries : Nat → (first : Bool) → Reads (List (Node × Node))
  | 0, _ => failure
  | fuel + 1, first => do
    if ← accept .closeBrace then return []
    else
      separator first
      if ← accept .closeBrace then return []
      let entry ←
        if ← accept .key then
          let key ← readOptional fuel false false [.value, .comma, .closeBrace]
          let value ←
            if ← accept .value then readOptional fuel false false [.comma, .closeBrace]
            else pure Node.blank
          pure (key, value)
        else
          let key ← readNode fuel false false
          pure (key, Node.blank)
      return entry :: (← readFlowEntries fuel false)

end

/-- The handles that are known in every document. -/
def defaultHandles : List (String × Tag) :=
  [("!", "!".toUTF8.toList), ("!!", "tag:yaml.org,2002:".toUTF8.toList)]

/-- The handles of a list of directives, which must name a known version once at most and each handle
once at most. -/
def directives? (handles : List (String × Tag)) (versionGiven : Bool) :
    List Token → Option (List (String × Tag) × List Token)
  | .version major minor :: rest =>
    if versionGiven || major != 1 || minor != 1 && minor != 2 then none
    else directives? handles true rest
  | .handle name meaning :: rest =>
    if (handles.lookup name).isSome then none
    else directives? ((name, meaning) :: handles) versionGiven rest
  | rest => some (handles ++ defaultHandles, rest)

/-- Whether a token cannot belong to a document that has started. -/
def endsDocument : Token → Bool
  | .version .. => true
  | .handle .. => true
  | .documentStart => true
  | .documentEnd => true
  | _ => false

/-- The outermost node of a document. After a mark it may be left out. -/
def readRoot (marked : Bool) : Reads Node := do
  let reading ← get
  if marked && reading.tokens.head?.all endsDocument then return .blank
  else readNode (4 * reading.tokens.length + 4) true false

/-- The document of a list of tokens that hold no other one. -/
def Document.ofTokens? (tokens : List Token) : Option Document := do
  let (handles, rest) ← directives? [] false tokens
  let marked := rest.length < tokens.length
  let (marked, rest) ←
    match rest with
    | .documentStart :: rest => some (true, rest)
    | rest => if marked || rest.isEmpty then none else some (false, rest)
  let (root, reading) ← (readRoot marked).run { tokens := rest, handles }
  if reading.tokens.all (· = .documentEnd) then some ⟨root, reading.anchored⟩ else none

/-- The document of a text. -/
def Document.parse? (text : String) : Option Document := do Document.ofTokens? (← tokens? text)

end QubitRouting.Yaml
