import QubitRouting.Json.Reader
import QubitRouting.Json.Record
import QubitRouting.Layout

/-!
# Layouts from JSON

A stored layout lists both of its directions. They are read as they are, also when they disagree.
-/

namespace QubitRouting.Layout

/-- The layout of a document; both directions must be given. -/
def ofJson? (value : Json) : Option (Layout Nat) := do
  match ← value.record? ["logical_to_physical", "physical_to_logical"] with
  | [positions, occupants] =>
    return ⟨
      ← Json.map? (fun key => (Json.keyBelow? UInt32.size key).map QubitId.ofNat)
          (Json.natBelow? UInt32.size) (← positions),
      ← Json.map? (Json.keyBelow? UInt32.size)
          (fun value => (Json.natBelow? UInt32.size value).map QubitId.ofNat) (← occupants)⟩
  | _ => none

end QubitRouting.Layout
