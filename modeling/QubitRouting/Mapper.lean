import QubitRouting.Dispatch
import QubitRouting.Statistics

/-!
# The mapper

A mapper buffers commands on logical qubits and forwards them on hardware qubits. Whenever a command
has to run on two qubits that are no neighbours, a round plans another layout and inserts the swaps
that lead to it.
-/

namespace QubitRouting

/-- The state of a mapper. -/
structure Mapper where
  router : Router
  /-- The number of buffered commands that starts a round. -/
  storage : Nat
  buffer : List Buffered := []
  /-- The present layout; there is none before the first round. -/
  layout : Option (Layout Nat) := none
  /-- The logical qubits allocated on the device. -/
  allocated : OrderedSet QubitId := ∅
  statistics : Statistics := {}

/-- What a mapper did with a command. -/
inductive Event where
  /-- It took the command into its buffer. -/
  | accepted (buffered : Buffered)
  /-- It forwarded a buffered command, on hardware qubits. -/
  | forwarded (buffered : Buffered) (command : Command)
  /-- It sent a command of its own, to carry out a plan. -/
  | inserted (command : Command)
  /-- It passed a flush on. -/
  | flushed (command : Command)
deriving DecidableEq

namespace Event

/-- The command that was sent, if one was. -/
def sent? : Event → Option Command
  | accepted _ => none
  | forwarded _ command | inserted command | flushed command => some command

/-- The forwarding of a command, unless it stayed. -/
def ofHandled? (handled : Dispatch.Handled) : Option Event :=
  handled.forwarded.map (forwarded handled.buffered)

end Event

/-- What a call to the mapper leads to: the mapper afterwards, what it did in order, and why it stopped
if it did. -/
structure Outcome where
  mapper : Mapper
  log : List Event := []
  /-- Why the call stopped early. -/
  failure : Option Failure := none

namespace Outcome

/-- The commands sent. -/
def sent (outcome : Outcome) : List Command := outcome.log.filterMap Event.sent?

/-- Go on with the mapper unless the call stopped. -/
def andThen (outcome : Outcome) (next : Mapper → Outcome) : Outcome :=
  match outcome.failure with
  | some _ => outcome
  | none =>
    let rest := next outcome.mapper
    { rest with log := outcome.log ++ rest.log }

end Outcome

namespace Mapper

/-- Whether a command can be mapped at all: it acts on at most two qubits. -/
def isAvailable (command : Command) : Bool := command.numQubits ≤ 2

/-- Forward what can run under a layout, which becomes the present one. -/
def dispatch (layout : Layout Nat) (mapper : Mapper) : Outcome :=
  match Dispatch.handle mapper.router (Dispatch.start layout mapper.allocated) mapper.buffer with
  | .error fault => { mapper, failure := some (.fault fault) }
  | .ok (state, handled) =>
    { mapper :=
        { mapper with
          buffer := Dispatch.kept handled
          layout := some state.layout
          allocated := state.allocated }
      log := handled.filterMap Event.ofHandled? }

/-- The positions of the allocated qubits under a layout. -/
def occupied (mapper : Mapper) (layout : Layout Nat) : List Nat :=
  mapper.allocated.toList.filterMap layout.position?

/-- The positions that hold no allocated qubit under a layout. -/
def idle (mapper : Mapper) (layout : Layout Nat) : List Nat :=
  (List.range mapper.router.numQubits).filter (· ∉ mapper.occupied layout)

/-- The commands that carry out a plan: allocate the idle positions, swap, and release the positions
that are idle afterwards. -/
def swapCommands (mapper : Mapper) (current : Layout Nat) (plan : Plan) : List Command :=
  let hardware := mapper.router.hardwareQubit
  (mapper.idle current).map (fun p => Command.allocate (hardware p))
    ++ plan.swaps.map (fun swap => Command.gate .swap [hardware swap.1, hardware swap.2])
    ++ (mapper.idle plan.layout).map (fun p => Command.deallocate (hardware p))

/-- Send the swaps of a plan, if it has any, and count them. -/
def emitSwaps (current : Layout Nat) (plan : Plan) (mapper : Mapper) : Outcome :=
  if plan.swaps.isEmpty then { mapper }
  else
    { mapper := { mapper with statistics := mapper.statistics.record plan.swaps }
      log := (mapper.swapCommands current plan).map .inserted }

/-- Stop if the buffer is as long as it was before the round. -/
def checkProgress (before : Nat) (mapper : Mapper) : Outcome :=
  if mapper.buffer.length = before then
    { mapper, failure := some (.error (.noProgress mapper.buffer.length)) }
  else { mapper }

/-- Plan another layout, swap to it and forward what can run under it. -/
def remap (before : Nat) (current : Layout Nat) (mapper : Mapper) : Outcome :=
  match mapper.router.plan ⟨mapper.allocated, mapper.buffer, current⟩ with
  | (.error failure, router) =>
    { mapper := { mapper with router, layout := some current }, failure := some failure }
  | (.ok plan, router) =>
    (({ mapper with router }.emitSwaps current plan).andThen (dispatch plan.layout)).andThen
      (checkProgress before)

/-- One round: forward what can run already and, if anything is left, plan another layout. -/
def round (mapper : Mapper) : Outcome :=
  let before := mapper.buffer.length
  match mapper.layout with
  | none => mapper.remap before ∅
  | some layout =>
    (mapper.dispatch layout).andThen fun mapper =>
      if mapper.buffer.isEmpty then { mapper } else mapper.remap before (mapper.layout.getD ∅)

/-- Rounds until the buffer is empty. A round that does not stop shrinks the buffer, so its length
bounds the number of rounds. -/
def drain : Nat → Mapper → Outcome
  | 0, mapper => { mapper }
  | rounds + 1, mapper =>
    if mapper.buffer.isEmpty then { mapper } else mapper.round.andThen (drain rounds)

/-- Take one command in: a flush empties the buffer and is passed on, anything else is buffered. -/
def accept (command : Command) (mapper : Mapper) : Outcome :=
  if command.isFlush then
    (mapper.drain mapper.buffer.length).andThen fun mapper => { mapper, log := [.flushed command] }
  else
    match Buffered.classify command with
    | .error error => { mapper, failure := some (.error error) }
    | .ok buffered =>
      { mapper := { mapper with buffer := mapper.buffer ++ [buffered] }, log := [.accepted buffered] }

/-- Run one round if the buffer has reached the storage. -/
def roundIfFull (mapper : Mapper) : Outcome :=
  if !mapper.buffer.isEmpty && mapper.storage ≤ mapper.buffer.length then mapper.round else { mapper }

/-- Take a batch of commands in, and run a round after it if the buffer is full. -/
def receive : List Command → Mapper → Outcome
  | [], mapper => mapper.roundIfFull
  | command :: rest, mapper => (mapper.accept command).andThen (receive rest)

/-- The present layout on hardware qubits. -/
def hardwareLayout? (mapper : Mapper) : Option (Layout QubitId) :=
  mapper.layout.map (Layout.mapPositions mapper.router.hardwareQubit)

/-- Install a layout given on hardware qubits. -/
def setLayout (layout : Layout QubitId) (mapper : Mapper) : Except RoutingError Mapper := do
  let installed ← layout.mapPositionsM fun qubit =>
    match mapper.router.position? qubit with
    | some position => .ok position
    | none => .error (.setting (.unknownQubit qubit))
  return { mapper with layout := some installed }

end Mapper

end QubitRouting
