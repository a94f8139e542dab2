import QubitRouting.Config.Document
import QubitRouting.Yaml.Document

/-!
# Configurations as YAML

A configuration file holds one YAML document. A configuration that is read from one is checked.
-/

namespace QubitRouting.Config

/-- A line of a YAML document. -/
def yamlLine (key value : String) : String := key ++ ": " ++ value ++ "\n"

/-- The lines of the table of hardware qubits. -/
def yamlTable : Option (OrderedMap UInt32 QubitId) → String
  | none => yamlLine "mapped_ids_to_backend_ids" "null"
  | some table =>
    if table.entries.isEmpty then yamlLine "mapped_ids_to_backend_ids" "\x7b\x7d"
    else
      "mapped_ids_to_backend_ids:\n" ++ String.join (table.entries.map fun (position, qubit) =>
        "  " ++ yamlLine (toString position.toNat) (toString qubit.toNat))

/-- The YAML document of a configuration: one field to a line, the topology first. -/
def toYaml : Config → String
  | linear config =>
    yamlLine topologyKey "linear"
      ++ yamlLine "num_qubits" (toString config.numQubits.toNat)
      ++ yamlLine "cyclic" (if config.cyclic then "true" else "false")
      ++ yamlLine "storage" (toString config.storage.toNat)
  | grid config =>
    yamlLine topologyKey "grid"
      ++ yamlLine "num_rows" (toString config.rows.toNat)
      ++ yamlLine "num_columns" (toString config.columns.toNat)
      ++ yamlTable config.hardware
      ++ yamlLine "storage" (toString config.storage.toNat)
      ++ yamlLine "optimization" config.objective.name
      ++ yamlLine "num_optimization_steps" (toString config.steps.toNat)
      ++ yamlLine "seed" (toString config.seed.toNat)

/-- One part of a configuration. -/
inductive Part where
  | topology (name : String)
  | entry (key value : Datum)

/-- The name of the topology, if a part gives it. -/
def Part.topology? : Part → Option String
  | topology name => some name
  | entry .. => none

/-- The entry of a part that is no topology. -/
def Part.entry? : Part → Option (Datum × Datum)
  | topology _ => none
  | entry key value => some (key, value)

/-- A part of a configuration from an entry of a mapping. The topology is read as it is written, whatever
tag it has. -/
def partOf (document : Yaml.Document) (depth : Nat) (entry : Yaml.Node × Yaml.Node) :
    Yaml.Follows Part := do
  let key ← document.datum depth entry.1
  if isTopologyKey key then return .topology (← document.scalarText entry.2)
  else return .entry key (← document.datum depth entry.2)

/-- The topology of a document and the data that is left: from a mapping with one entry for the topology,
or a sequence that starts with it. -/
def splitDocument (document : Yaml.Document) : Yaml.Follows (String × Datum) := do
  let depth := Yaml.Document.maxDepth - 1
  match document.root with
  | .mapping tag entries =>
    if tag.any Yaml.Tag.isVariant then failure
    let parts ← entries.mapM (partOf document depth)
    match parts.filterMap Part.topology? with
    | [topology] => return (topology, .map (parts.filterMap Part.entry?))
    | _ => failure
  | .sequence tag (first :: rest) =>
    if tag.any Yaml.Tag.isVariant then failure
    let topology ← document.scalarText first
    return (topology, .list (← rest.mapM (document.datum depth)))
  | _ => failure

/-- The configuration of a YAML document, not checked. -/
def readYaml? (text : String) : Option Config := do
  let document ← Yaml.Document.parse? text
  let ((topology, rest), _) ← (splitDocument document).run 0
  ofParts? topology rest

/-- The configuration of a YAML document, checked. -/
def ofYaml (text : String) : Except RoutingError Config :=
  match readYaml? text with
  | none => .error .document
  | some config =>
    match config.validate with
    | .error cause => .error (.setting cause)
    | .ok () => .ok config

/-- The configuration of the bytes of a file, checked. -/
def ofBytes (bytes : ByteArray) : Except RoutingError Config :=
  match String.fromUTF8? bytes with
  | none => .error (.file .notText)
  | some text => ofYaml text

/-- The configuration of a file: of its bytes, or the error that kept them from being read. -/
def ofFile (contents : Except FileError ByteArray) : Except RoutingError Config :=
  match contents with
  | .error cause => .error (.file cause)
  | .ok bytes => ofBytes bytes

end QubitRouting.Config
