import QubitRouting.Config
import QubitRouting.Datum
import QubitRouting.Json.Reader
import QubitRouting.Json.Record
import QubitRouting.Json.Writer

/-!
# Configurations as documents

Configurations are written to JSON and to YAML, and read from JSON or from plain data. A configuration
for any topology is read from plain data, where the keys of a map are data too: a table of hardware
qubits needs keys that are numbers, which JSON cannot give it.
-/

namespace QubitRouting

namespace Objective

/-- The names of the objectives. -/
def names : List String := ["swap_depth", "swap_count"]

/-- The name of an objective. -/
def name : Objective → String
  | swapDepth => "swap_depth"
  | swapCount => "swap_count"

/-- The objective at a place of the list of names. -/
def ofIndex? : Nat → Option Objective
  | 0 => some swapDepth
  | 1 => some swapCount
  | _ => none

/-- The objective of a JSON document. -/
def ofJson? (value : Json) : Option Objective := do
  let (name, content) ← value.variant?
  if Json.isUnit content then (names.idxOf? name).bind ofIndex? else none

/-- The objective of plain data. -/
def ofDatum? (datum : Datum) : Option Objective := (datum.variant? names).bind ofIndex?

end Objective

namespace LinearConfig

/-- The fields of the configuration of a chain. -/
def fieldNames : List String := ["num_qubits", "cyclic", "storage"]

/-- The fields as JSON. -/
def toFields (config : LinearConfig) : List (String × Json) :=
  [ ("num_qubits", .ofNat config.numQubits.toNat),
    ("cyclic", .bool config.cyclic),
    ("storage", .ofNat config.storage.toNat) ]

/-- The configuration of a JSON document. -/
def ofJson? (value : Json) : Option LinearConfig := do
  match ← value.record? fieldNames with
  | [numQubits, cyclic, storage] =>
    return {
      numQubits := ← Fields.required Json.toUInt32? numQubits
      cyclic := ← Fields.optional Json.toBool? false cyclic
      storage := ← Fields.optional Json.toUInt64? defaultStorage storage }
  | _ => none

/-- The configuration of plain data. -/
def ofDatum? (datum : Datum) : Option LinearConfig := do
  match ← datum.record? fieldNames with
  | [numQubits, cyclic, storage] =>
    return {
      numQubits := ← Fields.required Datum.toUInt32? numQubits
      cyclic := ← Fields.optional Datum.toBool? false cyclic
      storage := ← Fields.optional Datum.toUInt64? defaultStorage storage }
  | _ => none

end LinearConfig

namespace GridConfig

/-- The fields of the configuration of a grid. -/
def fieldNames : List String :=
  [ "num_rows", "num_columns", "mapped_ids_to_backend_ids", "storage", "optimization",
    "num_optimization_steps", "seed" ]

/-- A table of hardware qubits as JSON. -/
def tableToJson : Option (OrderedMap UInt32 QubitId) → Json
  | none => .null
  | some table => Json.ofMap UInt32.toNat (fun q => .ofNat q.toNat) table

/-- The table of hardware qubits of a JSON document. -/
def tableOfJson? : Json → Option (Option (OrderedMap UInt32 QubitId))
  | .null => some none
  | value => do
    let table ← Json.map? (fun key => (Json.keyBelow? UInt32.size key).map UInt32.ofNat)
      (fun value => value.toUInt32?.map QubitId.mk) value
    return some table

/-- The table of hardware qubits of plain data. -/
def tableOfDatum? : Datum → Option (Option (OrderedMap UInt32 QubitId))
  | .null => some none
  | .map entries => do
    let table ← entries.mapM fun (key, value) => do
      return (← key.toUInt32?, QubitId.mk (← value.toUInt32?))
    return some (OrderedMap.ofList table)
  | _ => none

/-- The fields as JSON. -/
def toFields (config : GridConfig) : List (String × Json) :=
  [ ("num_rows", .ofNat config.rows.toNat),
    ("num_columns", .ofNat config.columns.toNat),
    ("mapped_ids_to_backend_ids", tableToJson config.hardware),
    ("storage", .ofNat config.storage.toNat),
    ("optimization", .text config.objective.name),
    ("num_optimization_steps", .ofNat config.steps.toNat),
    ("seed", .ofNat config.seed.toNat) ]

/-- The configuration of a JSON document. -/
def ofJson? (value : Json) : Option GridConfig := do
  match ← value.record? fieldNames with
  | [rows, columns, hardware, storage, objective, steps, seed] =>
    return {
      rows := ← Fields.required Json.toUInt32? rows
      columns := ← Fields.required Json.toUInt32? columns
      hardware := ← Fields.optional tableOfJson? none hardware
      storage := ← Fields.optional Json.toUInt64? defaultStorage storage
      objective := ← Fields.optional Objective.ofJson? .swapDepth objective
      steps := ← Fields.optional Json.toUInt64? defaultSteps steps
      seed := ← Fields.optional Json.toUInt64? defaultSeed seed }
  | _ => none

/-- The configuration of plain data. -/
def ofDatum? (datum : Datum) : Option GridConfig := do
  match ← datum.record? fieldNames with
  | [rows, columns, hardware, storage, objective, steps, seed] =>
    return {
      rows := ← Fields.required Datum.toUInt32? rows
      columns := ← Fields.required Datum.toUInt32? columns
      hardware := ← Fields.optional tableOfDatum? none hardware
      storage := ← Fields.optional Datum.toUInt64? defaultStorage storage
      objective := ← Fields.optional Objective.ofDatum? .swapDepth objective
      steps := ← Fields.optional Datum.toUInt64? defaultSteps steps
      seed := ← Fields.optional Datum.toUInt64? defaultSeed seed }
  | _ => none

end GridConfig

namespace Config

/-- The key that names the topology. -/
def topologyKey : String := "topology"

/-- The document of a configuration, the topology first. -/
def toJson : Config → Json
  | linear config => .ofFields ((topologyKey, .text "linear") :: config.toFields)
  | grid config => .ofFields ((topologyKey, .text "grid") :: config.toFields)

/-- The configuration of a named topology from the data that is left once the topology is taken out. -/
def ofParts? (topology : String) (rest : Datum) : Option Config :=
  match topology with
  | "linear" => (LinearConfig.ofDatum? rest).map linear
  | "grid" => (GridConfig.ofDatum? rest).map grid
  | _ => none

/-- Whether a datum is the key that names the topology. -/
def isTopologyKey : Datum → Bool
  | .text key => key == topologyKey
  | _ => false

/-- The configuration of plain data: a map with one entry for the topology, or a list that starts with
it. -/
def ofDatum? : Datum → Option Config
  | .map entries =>
    match entries.partition (isTopologyKey ·.1) with
    | ([(_, .text topology)], rest) => ofParts? topology (.map rest)
    | _ => none
  | .list (.text topology :: rest) => ofParts? topology (.list rest)
  | _ => none

/-- How many arrays and objects may stand inside each other in the JSON document of a configuration for
any topology. -/
def maxJsonDepth : Nat := 127

/-- The configuration of a JSON document. -/
def ofJson? (value : Json) : Option Config :=
  if value.depth ≤ maxJsonDepth then (Datum.ofJson? value).bind ofDatum? else none

/-- A configuration as JSON text. -/
def render (config : Config) : String := config.toJson.compact

/-- The configuration of a JSON text. -/
def parse? (text : String) : Option Config := (Json.parse? text).bind ofJson?

end Config

end QubitRouting
