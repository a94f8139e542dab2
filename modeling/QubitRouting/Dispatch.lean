import QubitRouting.Router

/-!
# Dispatch

Forward the buffered commands that can run under the present layout, in order, and keep the rest. A
qubit whose command had to stay is inactive from then on, so that its later commands stay too, unless
they allocate it.
-/

namespace QubitRouting.Dispatch

/-- What is known about the qubits while commands are dispatched. -/
structure State where
  layout : Layout Nat
  /-- The logical qubits allocated on the device. -/
  allocated : OrderedSet QubitId
  /-- The qubits none of whose commands had to stay. -/
  active : OrderedSet QubitId

/-- A command that left the buffer, or stayed there. -/
structure Handled where
  buffered : Buffered
  /-- What was forwarded for it, if it could run. -/
  forwarded : Option Command

/-- Whether a command can run: its qubits are active and placed, and if there are two of them they sit
on neighbouring positions. -/
def executable (router : Router) (state : State) (shape : Shape) : Except Fault Bool :=
  if shape.qubits.all fun q => state.active.contains q && state.layout.contains q then
    match shape with
    | .pair a b =>
      match state.layout.position? a, state.layout.position? b with
      | some pa, some pb => router.adjacent pa pb
      | _, _ => .ok false
    | _ => .ok true
  else .ok false

/-- A command on the hardware qubits of its operands. A measurement names the logical qubit, unless a
tag does already. -/
def onHardware (router : Router) (layout : Layout Nat) (command : Command) : Command :=
  let renamed := command.mapQubits fun q =>
    match layout.position? q with
    | some position => router.hardwareQubit position
    | none => q
  match command.isMeasure, command.firstTarget?, renamed.logicalTag? with
  | true, some q, none => renamed.withTag (.logicalQubit q)
  | _, _, _ => renamed

/-- Forward or keep one command. -/
def step (router : Router) (state : State) (buffered : Buffered) :
    Except Fault (State × Option Command) :=
  match buffered.shape with
  | .allocate q =>
    match state.layout.position? q with
    | some position =>
      .ok ({ state with allocated := state.allocated.insert q },
        some ((Command.allocate (router.hardwareQubit position)).withTag (.logicalQubit q)))
    | none => .ok (state, none)
  | .deallocate q =>
    match state.layout.position? q, state.active.contains q with
    | some position, true =>
      .ok ({ layout := state.layout.erase q
             allocated := state.allocated.erase q
             active := state.active.erase q },
        some ((Command.deallocate (router.hardwareQubit position)).withTag (.logicalQubit q)))
    | _, _ => .ok (state, none)
  | shape =>
    match executable router state shape with
    | .error fault => .error fault
    | .ok true => .ok (state, some (onHardware router state.layout buffered.command))
    | .ok false => .ok ({ state with active := shape.qubits.foldl OrderedSet.erase state.active }, none)

/-- Handle the commands one by one. When no qubit is active any more, all that are left stay. -/
def handle (router : Router) : State → List Buffered → Except Fault (State × List Handled)
  | state, [] => .ok (state, [])
  | state, buffered :: rest =>
    if state.active.isEmpty then
      .ok (state, (buffered :: rest).map fun b => ⟨b, none⟩)
    else do
      let (state, forwarded) ← step router state buffered
      let (state, handled) ← handle router state rest
      return (state, ⟨buffered, forwarded⟩ :: handled)

/-- The state before the first command: every allocated or placed qubit is active. -/
def start (layout : Layout Nat) (allocated : OrderedSet QubitId) : State :=
  ⟨layout, allocated, allocated.insertAll layout.qubits⟩

/-- The commands that stayed. -/
def kept (handled : List Handled) : List Buffered :=
  (handled.filter (·.forwarded.isNone)).map Handled.buffered

end QubitRouting.Dispatch
