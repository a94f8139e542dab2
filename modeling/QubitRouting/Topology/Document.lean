import QubitRouting.Json.Reader
import QubitRouting.Json.Record
import QubitRouting.Json.Writer
import QubitRouting.Topology

/-!
# Topologies as JSON

Chains and grids are written to JSON and read back. Sizes are 32-bit numbers in a document.
-/

namespace QubitRouting

/-- The document of a chain. -/
def Chain.toJson (chain : Chain) : Json :=
  .ofFields [("num_qubits", .ofNat chain.numQubits), ("cyclic", .bool chain.cyclic)]

/-- The chain of a document; all fields must be given. -/
def Chain.ofJson? (value : Json) : Option Chain := do
  match ← value.record? ["num_qubits", "cyclic"] with
  | [numQubits, cyclic] => return ⟨← Json.natBelow? UInt32.size (← numQubits), ← (← cyclic).toBool?⟩
  | _ => none

/-- The document of a grid. -/
def Grid.toJson (grid : Grid) : Json :=
  .ofFields [("num_rows", .ofNat grid.rows), ("num_columns", .ofNat grid.columns)]

/-- The grid of a document; all fields must be given. -/
def Grid.ofJson? (value : Json) : Option Grid := do
  match ← value.record? ["num_rows", "num_columns"] with
  | [rows, columns] =>
    return ⟨← Json.natBelow? UInt32.size (← rows), ← Json.natBelow? UInt32.size (← columns)⟩
  | _ => none

end QubitRouting
