import QubitRouting.Yaml.Token

/-!
# YAML nodes

The tree of a document. A reference stands for a node that has an anchor, which is known by its number.
-/

namespace QubitRouting.Yaml

/-- A node of a document. -/
inductive Node where
  /-- A scalar; a plain one is written without quotes and in no block of its own. -/
  | scalar (tag : Option Tag) (text : String) (plain : Bool)
  | sequence (tag : Option Tag) (items : List Node)
  | mapping (tag : Option Tag) (entries : List (Node × Node))
  | reference (anchor : Nat)

namespace Node

/-- The node where none is written. -/
def blank : Node := scalar none "" true

mutual

/-- How many marks a node takes to write: one for a scalar or a reference, and two around a collection. -/
def size : Node → Nat
  | scalar .. => 1
  | reference _ => 1
  | sequence _ items => itemsSize items + 2
  | mapping _ entries => entriesSize entries + 2

/-- The size of a list of items. -/
def itemsSize : List Node → Nat
  | [] => 0
  | item :: rest => item.size + itemsSize rest

/-- The size of a list of entries. -/
def entriesSize : List (Node × Node) → Nat
  | [] => 0
  | (key, value) :: rest => key.size + value.size + entriesSize rest

end

end Node

/-- A node that has an anchor. -/
structure Anchored where
  anchor : Nat
  /-- How many nodes with an anchor start before this one. -/
  order : Nat
  node : Node

/-- A document. -/
structure Document where
  /-- The outermost node. -/
  root : Node
  /-- The nodes that have an anchor. -/
  anchored : List Anchored

/-- The node that an anchor stands for: of all that have its number, the one that starts last. -/
def Document.target? (document : Document) (anchor : Nat) : Option Node :=
  let candidates := document.anchored.filter (·.anchor == anchor)
  (candidates.find? fun candidate => candidates.all (·.order ≤ candidate.order)).map (·.node)

end QubitRouting.Yaml
