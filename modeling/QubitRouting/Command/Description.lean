import QubitRouting.Command
import QubitRouting.Text.Quoted

/-!
# Descriptions of commands

The full description of a command, field by field, as error messages quote it.
-/

namespace QubitRouting

/-- The parts of a list between brackets. -/
def describeList (parts : List String) : String := "[" ++ ", ".intercalate parts ++ "]"

/-- A gate with its angle. -/
def Gate.describe (g : Gate) : String :=
  match g.angle? with
  | some angle => g.key ++ "(" ++ angle.describe ++ ")"
  | none => g.key

/-- What a command does. -/
def CommandKind.describe : CommandKind → String
  | .gate g => "Gate(" ++ g.describe ++ ")"
  | .measure => "Measure"
  | .allocate => "Allocate"
  | .deallocate => "Deallocate"
  | .flush => "Flush"

/-- A tag with what it holds. -/
def Tag.describe : Tag → String
  | .logicalQubit q => "LogicalQubitId(" ++ q.describe ++ ")"
  | .label text => "Label(" ++ Text.quote text ++ ")"

/-- A command with all its fields. -/
def Command.describe (command : Command) : String :=
  let register (qs : List QubitId) := describeList (qs.map QubitId.describe)
  "Command \x7b kind: " ++ command.kind.describe
    ++ ", qubits: " ++ describeList (command.registers.map register)
    ++ ", controls: " ++ register command.controls
    ++ ", tags: " ++ describeList (command.tags.map Tag.describe) ++ " \x7d"

end QubitRouting
