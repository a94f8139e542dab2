import QubitRouting.Gate
import QubitRouting.Qubit

/-!
# Commands

A command is what a circuit is made of: a gate, a measurement, the allocation or release of a qubit,
or a request to flush. Its targets are grouped into registers and its controls are kept apart.
-/

namespace QubitRouting

/-- What a command does. -/
inductive CommandKind where
  | gate (gate : Gate)
  | measure
  | allocate
  | deallocate
  /-- Ask for everything buffered to be processed. -/
  | flush
deriving DecidableEq

/-- A note attached to a command. -/
inductive Tag where
  /-- The logical qubit that a command on hardware qubits refers to. -/
  | logicalQubit (q : QubitId)
  | label (text : String)
deriving DecidableEq

/-- A command with its operands. -/
structure Command where
  kind : CommandKind
  /-- The target qubits, register by register. -/
  registers : List (List QubitId)
  controls : List QubitId := []
  tags : List Tag := []
deriving DecidableEq

/-- Why a command is not well formed. -/
inductive CommandError where
  /-- The command needs another number of targets. -/
  | qubitCountMismatch (name : String) (expected actual : Nat)
  | duplicateQubit (qubit : QubitId) (name : String)
  /-- A command that must act on qubits has none. -/
  | emptyCommand (name : String)
deriving DecidableEq

/-- The text that reports the error. -/
def CommandError.message : CommandError → String
  | qubitCountMismatch name expected actual =>
    s!"Gate '{name}' requires {expected} qubits, got {actual}"
  | duplicateQubit qubit name => "Duplicate qubit " ++ qubit.label ++ " in command '" ++ name ++ "'"
  | emptyCommand name => s!"Command '{name}' acts on no qubits"

namespace Command

/-- Allocate a qubit. -/
def allocate (q : QubitId) : Command := { kind := .allocate, registers := [[q]] }

/-- Release a qubit. -/
def deallocate (q : QubitId) : Command := { kind := .deallocate, registers := [[q]] }

/-- Measure a qubit. -/
def measure (q : QubitId) : Command := { kind := .measure, registers := [[q]] }

/-- Ask for a flush. -/
def flush : Command := { kind := .flush, registers := [] }

/-- Apply a gate, one register per target. -/
def gate (g : Gate) (targets : List QubitId) : Command :=
  { kind := .gate g, registers := targets.map fun q => [q] }

/-- Apply a gate under controls, one register per target. -/
def controlled (g : Gate) (controls targets : List QubitId) : Command :=
  { gate g targets with controls := controls }

/-- Attach one more tag. -/
def withTag (command : Command) (tag : Tag) : Command :=
  { command with tags := command.tags ++ [tag] }

/-- The target qubits in register order. -/
def targets (command : Command) : List QubitId := command.registers.flatten

/-- All qubits: the controls, then the targets. -/
def qubits (command : Command) : List QubitId := command.controls ++ command.targets

/-- The number of qubits, controls included. -/
def numQubits (command : Command) : Nat := command.qubits.length

/-- The first target qubit. -/
def firstTarget? (command : Command) : Option QubitId := command.targets.head?

/-- The name of a command: that of its gate, or of what it does. -/
def name (command : Command) : String :=
  match command.kind with
  | .gate g => g.name
  | .measure => "measure"
  | .allocate => "allocate"
  | .deallocate => "deallocate"
  | .flush => "flush"

/-- Whether the command asks for a flush. -/
def isFlush (command : Command) : Bool := command.kind == .flush

/-- Whether the command allocates a qubit. -/
def isAllocate (command : Command) : Bool := command.kind == .allocate

/-- Whether the command releases a qubit. -/
def isDeallocate (command : Command) : Bool := command.kind == .deallocate

/-- Whether the command measures a qubit. -/
def isMeasure (command : Command) : Bool := command.kind == .measure

/-- The logical qubit named by the first tag that names one. -/
def logicalTag? (command : Command) : Option QubitId :=
  command.tags.findSome? fun
    | .logicalQubit q => some q
    | .label _ => none

/-- Rename every target and control. Tags keep the names they have. -/
def mapQubits (f : QubitId → QubitId) (command : Command) : Command :=
  { command with
    registers := command.registers.map fun register => register.map f
    controls := command.controls.map f }

/-- The first element of a list that has occurred before it. -/
def firstRepeated? (seen : List QubitId) : List QubitId → Option QubitId
  | [] => none
  | q :: rest => if q ∈ seen then some q else firstRepeated? (q :: seen) rest

/-- Check that there are as many targets as expected and that no qubit occurs twice. -/
def checkOperands (command : Command) (expected : Nat) : Except CommandError Unit :=
  if command.numQubits = 0 then
    .error (.emptyCommand command.name)
  else if command.targets.length ≠ expected then
    .error (.qubitCountMismatch command.name expected command.targets.length)
  else
    match firstRepeated? [] command.qubits with
    | some q => .error (.duplicateQubit q command.name)
    | none => .ok ()

/-- Check the operand counts and that no qubit occurs twice. A flush may carry anything. -/
def validate (command : Command) : Except CommandError Unit :=
  match command.kind with
  | .flush => .ok ()
  | .gate g => command.checkOperands g.arity
  | .measure | .allocate | .deallocate =>
    if command.controls.isEmpty then command.checkOperands 1
    else .error (.qubitCountMismatch command.name 1 command.numQubits)

end Command

end QubitRouting
