import QubitRouting.Json.Reader
import QubitRouting.Json.Record
import QubitRouting.Json.Writer
import QubitRouting.Statistics

/-!
# Statistics as JSON

Statistics are written to JSON and read back. Counters are 64-bit numbers in a document.
-/

namespace QubitRouting.Statistics

/-- The fields of statistics. -/
def fieldNames : List String := ["num_mappings", "depth_of_swaps", "num_of_swaps_per_mapping"]

/-- The document of a histogram. -/
def histogramToJson (histogram : OrderedMap Nat Nat) : Json := Json.ofMap id Json.ofNat histogram

/-- The histogram of a document. -/
def histogramOfJson? : Json → Option (OrderedMap Nat Nat) :=
  Json.map? (Json.keyBelow? UInt64.size) (Json.natBelow? UInt64.size)

/-- The document of statistics. -/
def toJson (statistics : Statistics) : Json :=
  .ofFields
    [ ("num_mappings", .ofNat statistics.numMappings),
      ("depth_of_swaps", histogramToJson statistics.depths),
      ("num_of_swaps_per_mapping", histogramToJson statistics.counts) ]

/-- The statistics of a document; all fields must be given. -/
def ofJson? (value : Json) : Option Statistics := do
  match ← value.record? fieldNames with
  | [numMappings, depths, counts] =>
    return {
      numMappings := ← Json.natBelow? UInt64.size (← numMappings)
      depths := ← histogramOfJson? (← depths)
      counts := ← histogramOfJson? (← counts) }
  | _ => none

/-- Statistics as text. -/
def render (statistics : Statistics) : String := statistics.toJson.compact

/-- The statistics of a text. -/
def parse? (text : String) : Option Statistics := (Json.parse? text).bind ofJson?

end QubitRouting.Statistics
