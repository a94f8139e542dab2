import QubitRouting.Command
import QubitRouting.Decimal.Reading
import QubitRouting.Json.Reader
import QubitRouting.Json.Record
import QubitRouting.Json.Writer

/-!
# Commands as JSON

Commands are written to JSON and read back. Reading checks the form of a document, not whether the
command makes sense.
-/

namespace QubitRouting

/-- JSON writes angles positionally from `0.00001` up to sixteen digits before the point. -/
def Angle.documentStyle : Numeral.Style :=
  { leftmostPoint := -5, rightmostPoint := 16, tie := .even }

/-- An angle that is no finite number has no numeral. -/
def Angle.toJson (angle : Angle) : Json :=
  if angle.isFinite then .number (angle.toNumeral documentStyle) else .null

/-- The angle of a number. -/
def Angle.ofJson? : Json → Option Angle
  | .number numeral => numeral.bits?.map Angle.mk
  | _ => none

/-- A qubit is written as its number. -/
def QubitId.toJson (q : QubitId) : Json := .ofNat q.toNat

/-- The qubit of a number. -/
def QubitId.ofJson? (value : Json) : Option QubitId := value.toUInt32?.map QubitId.mk

/-- A gate is written as its key, with its angle if it has one. -/
def Gate.toJson (gate : Gate) : Json :=
  match gate.angle? with
  | some angle => .ofFields [(gate.key, angle.toJson)]
  | none => .text gate.key

/-- The gate of a document. -/
def Gate.ofJson? (value : Json) : Option Gate := do
  let (key, content) ← value.variant?
  match Gate.ofKey? key with
  | some gate => if Json.isUnit content then some gate else none
  | none => Gate.ofAngleKey? key (← Angle.ofJson? (← content))

/-- A kind of command is written as its name, with the gate if there is one. -/
def CommandKind.toJson : CommandKind → Json
  | .gate g => .ofFields [("Gate", g.toJson)]
  | .measure => .text "Measure"
  | .allocate => .text "Allocate"
  | .deallocate => .text "Deallocate"
  | .flush => .text "Flush"

/-- The kind of command without a gate that has the given name. -/
def CommandKind.ofName? : String → Option CommandKind
  | "Measure" => some .measure
  | "Allocate" => some .allocate
  | "Deallocate" => some .deallocate
  | "Flush" => some .flush
  | _ => none

/-- The kind of command of a document. -/
def CommandKind.ofJson? (value : Json) : Option CommandKind := do
  let (name, content) ← value.variant?
  if name = "Gate" then return .gate (← Gate.ofJson? (← content))
  let kind ← CommandKind.ofName? name
  if Json.isUnit content then some kind else none

/-- A tag is written as its kind and what it holds. -/
def Tag.toJson : Tag → Json
  | .logicalQubit q => .ofFields [("LogicalQubitId", q.toJson)]
  | .label text => .ofFields [("Label", .text text)]

/-- The tag of a document. -/
def Tag.ofJson? (value : Json) : Option Tag := do
  match ← value.variant? with
  | ("LogicalQubitId", some content) => return .logicalQubit (← QubitId.ofJson? content)
  | ("Label", some content) => return .label (← content.toText?)
  | _ => none

/-- The list of the items of a document. -/
def Json.list? {α : Type} (read : Json → Option α) (value : Json) : Option (List α) := do
  (← value.items?).mapM read

namespace Command

/-- The fields of a command. -/
def fieldNames : List String := ["kind", "qubits", "controls", "tags"]

/-- The document of a command. -/
def toJson (command : Command) : Json :=
  .ofFields
    [ ("kind", command.kind.toJson),
      ("qubits", .array (command.registers.map fun register =>
        .array (register.map QubitId.toJson))),
      ("controls", .array (command.controls.map QubitId.toJson)),
      ("tags", .array (command.tags.map Tag.toJson)) ]

/-- The command of a document; all fields must be given. -/
def ofJson? (value : Json) : Option Command := do
  match ← value.record? fieldNames with
  | [kind, qubits, controls, tags] =>
    return {
      kind := ← CommandKind.ofJson? (← kind)
      registers := ← Json.list? (Json.list? QubitId.ofJson?) (← qubits)
      controls := ← Json.list? QubitId.ofJson? (← controls)
      tags := ← Json.list? Tag.ofJson? (← tags) }
  | _ => none

/-- A command as text. -/
def render (command : Command) : String := command.toJson.compact

/-- The command of a text. -/
def parse? (text : String) : Option Command := (Json.parse? text).bind ofJson?

end Command

end QubitRouting
