import QubitRouting.Command.Description
import QubitRouting.Fault

/-!
# Routing errors

Everything that can be reported about a configuration, a command or a run, as causes. The wording
stands in one place, `RoutingError.message`.
-/

namespace QubitRouting

/-- Why a table of hardware qubits is no renumbering of the positions. -/
inductive TableError where
  /-- A position that does not exist. -/
  | outside (position numPositions : Nat)
  | repeatedPosition (position : Nat)
  /-- A hardware qubit given to two positions. -/
  | repeatedQubit (qubit : QubitId)
  | missing (position : Nat)
deriving DecidableEq

/-- The text that reports the error. -/
def TableError.message : TableError → String
  | outside position numPositions => s!"mapped id {position} is outside 0..{numPositions}"
  | repeatedPosition position => s!"mapped id {position} appears twice"
  | repeatedQubit qubit => "backend id " ++ toString qubit.toNat ++ " is used twice"
  | missing position => s!"mapped id {position} is missing"

/-- Why a setting is refused. -/
inductive SettingError where
  | noQubits
  | emptyGrid (rows columns : Nat)
  /-- A grid whose positions cannot be numbered. -/
  | gridTooLarge (rows columns : Nat)
  | noSteps
  | noStorage
  /-- A layout that names a hardware qubit that does not exist. -/
  | unknownQubit (qubit : QubitId)
deriving DecidableEq

/-- The text that reports the error. -/
def SettingError.message : SettingError → String
  | noQubits => "num_qubits must be at least 1"
  | emptyGrid rows columns => s!"grid must have at least one row and column, got {rows}x{columns}"
  | gridTooLarge rows columns => s!"grid {rows}x{columns} is too large"
  | noSteps => "num_optimization_steps must be at least 1"
  | noStorage => "storage must be at least 1"
  | unknownQubit qubit => "unknown backend id " ++ toString qubit.toNat

/-- Why the moves between columns do not split into rounds. -/
inductive MatchingError where
  /-- A destination that is no column. -/
  | outsideGrid (column : Nat)
  | noPerfectMatching (round : Nat)
  /-- A round that was not computed. -/
  | missingMatching (index : Nat)
  /-- A column without a qubit for the destination asked for. -/
  | noQubitLeft (column destination : Nat)
deriving DecidableEq

/-- The text that reports the error. -/
def MatchingError.message : MatchingError → String
  | outsideGrid column => s!"destination column {column} is outside the grid"
  | noPerfectMatching round => s!"no perfect matching for intermediate row {round}"
  | missingMatching index => s!"missing matching {index}"
  | noQubitLeft column destination =>
    s!"column {column} has no qubit left for column {destination}"

/-- Why a configuration file cannot be read. -/
inductive FileError where
  | notFound
  | notPermitted
  /-- The path goes on after a file. -/
  | notDirectory
  | isDirectory
  /-- The path or one of its names is too long. -/
  | nameTooLong
  | notText
deriving DecidableEq

/-- The text that reports the error. -/
def FileError.message : FileError → String
  | notFound => "No such file or directory (os error 2)"
  | notPermitted => "Permission denied (os error 13)"
  | notDirectory => "Not a directory (os error 20)"
  | isDirectory => "Is a directory (os error 21)"
  | nameTooLong => "File name too long (os error 36)"
  | notText => "stream did not contain valid UTF-8"

/-- An error reported about a configuration, a command or a run. -/
inductive RoutingError where
  | command (cause : CommandError)
  | table (cause : TableError)
  | setting (cause : SettingError)
  /-- A command acts on no qubit or on more than two, or cannot be buffered at all. -/
  | malformed (command : Command)
  /-- A round did not shrink the buffer. -/
  | noProgress (remaining : Nat)
  /-- The moves between columns do not split into rounds. -/
  | matching (cause : MatchingError)
  | file (cause : FileError)
  /-- A configuration document cannot be understood. -/
  | document
deriving DecidableEq

/-- The text that reports the error. -/
def RoutingError.message : RoutingError → String
  | command cause => "IR error: " ++ cause.message
  | table cause => "Incorrect mapped_ids_to_backend_ids parameter: " ++ cause.message
  | setting cause => "Invalid mapper configuration: " ++ cause.message
  | malformed offender =>
    "Invalid command (number of qubits: " ++ toString offender.numQubits ++ "): " ++ offender.describe
  | noProgress remaining =>
    s!"Mapper is potentially in an infinite loop ({remaining} commands stuck). " ++
      "It is likely that the algorithm requires too many qubits. " ++
      "Increase the number of qubits for this mapper."
  | matching cause => "Row matching failed: " ++ cause.message
  | file cause => "I/O error: " ++ cause.message
  | document => "Configuration parse error"

/-- How a computation ends without a result: it breaks down, or it reports an error. -/
inductive Failure where
  | fault (cause : Fault)
  | error (cause : RoutingError)
deriving DecidableEq

namespace Failure

/-- A computation that may only break down, among those that may also report errors. -/
def ofChecked {α : Type} : Except Fault α → Except Failure α
  | .ok a => .ok a
  | .error cause => .error (.fault cause)

/-- A computation that may only report errors, among those that may also break down. -/
def ofReported {α : Type} : Except RoutingError α → Except Failure α
  | .ok a => .ok a
  | .error cause => .error (.error cause)

end Failure

end QubitRouting
