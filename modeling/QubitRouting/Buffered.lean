import QubitRouting.Error

/-!
# Buffered commands

A command that waits in the mapper's buffer, together with what it means for routing. Only commands
on one or two qubits can wait there.
-/

namespace QubitRouting

/-- What a command means for routing. -/
inductive Shape where
  | allocate (q : QubitId)
  | deallocate (q : QubitId)
  /-- It does anything else to one qubit. -/
  | single (q : QubitId)
  /-- It acts on two qubits, controls first. -/
  | pair (a b : QubitId)
deriving DecidableEq

/-- The qubits a command of this shape touches. -/
def Shape.qubits : Shape → List QubitId
  | allocate q | deallocate q | single q => [q]
  | pair a b => [a, b]

/-- A command in the buffer. -/
structure Buffered where
  /-- The command, on logical qubits. -/
  command : Command
  /-- What it means for routing. -/
  shape : Shape
deriving DecidableEq

namespace Buffered

/-- Prepare a command for the buffer. Flushes, commands on no qubit or on more than two, and
commands that are not well formed are refused. -/
def classify (command : Command) : Except RoutingError Buffered :=
  if command.isFlush then .error (.malformed command)
  else
    match command.qubits with
    | [q] =>
      match command.validate with
      | .error cause => .error (.command cause)
      | .ok () =>
        match command.kind with
        | .allocate => .ok ⟨command, .allocate q⟩
        | .deallocate => .ok ⟨command, .deallocate q⟩
        | _ => .ok ⟨command, .single q⟩
    | [a, b] =>
      match command.validate with
      | .error cause => .error (.command cause)
      | .ok () => .ok ⟨command, .pair a b⟩
    | _ => .error (.malformed command)

end Buffered

end QubitRouting
