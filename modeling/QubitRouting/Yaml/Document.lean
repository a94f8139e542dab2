import QubitRouting.Yaml.Node.Reading
import QubitRouting.Yaml.Scalar

/-!
# Plain data of YAML documents

References are replaced by the nodes that they stand for. Only so many references are followed and so
many collections opened inside each other, so a document that holds itself is refused.
-/

namespace QubitRouting.Yaml

/-- Following references, which are counted, and which may fail. -/
abbrev Follows := StateT Nat Option

namespace Document

/-- How many collections may stand inside each other. -/
def maxDepth : Nat := 128

/-- How many references may be followed. -/
def maxReferences (document : Document) : Nat := 100 * document.root.size

/-- A node, or the one that a reference stands for. -/
def follow (document : Document) : Node → Follows Node
  | .reference anchor => do
    let followed := (← get) + 1
    if followed > document.maxReferences then failure
    set followed
    match document.target? anchor with
    | some node => return node
    | none => failure
  | node => return node

/-- The data of a node, in which so many collections may stand inside each other. A collection with a tag
of the document's own is a variant, which is no plain data. -/
def datum (document : Document) : Nat → Node → Follows Datum
  | depth, node => do
    match ← document.follow node, depth with
    | .scalar tag text plain, _ =>
      match resolve? tag text plain with
      | some datum => return datum
      | none => failure
    | .sequence tag items, depth + 1 =>
      if tag.any Tag.isVariant then failure
      return .list (← items.mapM (document.datum depth))
    | .mapping tag entries, depth + 1 =>
      if tag.any Tag.isVariant then failure
      return .map (← entries.mapM fun (key, value) => do
        return (← document.datum depth key, ← document.datum depth value))
    | _, _ => failure

/-- The text of a scalar, whatever it stands for. -/
def scalarText (document : Document) (node : Node) : Follows String := do
  match ← document.follow node with
  | .scalar _ text _ => return text
  | _ => failure

end Document

end QubitRouting.Yaml
