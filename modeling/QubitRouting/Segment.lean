import QubitRouting.Buffered
import QubitRouting.OrderedMap
import QubitRouting.OrderedSet

/-!
# Segments

A segment is a run of logical qubits that should sit side by side on a chain. Segments are grown from
the buffered commands, first come, first served: every two-qubit command asks for its qubits to be
neighbours, until one of them has no free side left.
-/

namespace QubitRouting

/-- The outcome of a pass over the buffer. -/
structure Segments where
  /-- The runs of qubits that should sit side by side. -/
  runs : List (List QubitId)
  /-- The qubits that need a position. -/
  allocated : OrderedSet QubitId
deriving DecidableEq

namespace Segments

/-- One of the two ends of a run. -/
inductive Side where
  | left | right
deriving DecidableEq

/-- The end of a run among several runs. -/
structure RunEnd where
  /-- Where the run stands in the list of runs. -/
  index : Nat
  run : List QubitId
  side : Side

/-- The first run that a qubit begins or ends. -/
def endOf? (runs : List (List QubitId)) (q : QubitId) : Option RunEnd :=
  runs.zipIdx.findSome? fun (run, index) =>
    if run.head? = some q then some ⟨index, run, .left⟩
    else if run.getLast? = some q then some ⟨index, run, .right⟩
    else none

/-- A run with one more qubit at the given end. -/
def RunEnd.extend (runEnd : RunEnd) (q : QubitId) : List QubitId :=
  match runEnd.side with
  | .left => q :: runEnd.run
  | .right => runEnd.run ++ [q]

/-- Join the runs of two qubits so that the two become neighbours. Gives the new run and all runs, or
nothing if the qubits are the two ends of one run. -/
def join? (runs : List (List QubitId)) (a b : QubitId) :
    Option (List QubitId × List (List QubitId)) :=
  let merge (kept dropped : Nat) (run : List QubitId) :=
    some (run, (runs.set kept run).eraseIdx dropped)
  match endOf? runs a, endOf? runs b with
  | none, none => some ([a, b], runs ++ [[a, b]])
  | none, some endB => some (endB.extend a, runs.set endB.index (endB.extend a))
  | some endA, none => some (endA.extend b, runs.set endA.index (endA.extend b))
  | some endA, some endB =>
    if endA.index = endB.index then none
    else
      match endA.side, endB.side with
      | .right, .left => merge endA.index endB.index (endA.run ++ endB.run)
      | .right, .right => merge endA.index endB.index (endA.run ++ endB.run.reverse)
      | .left, .left => merge endA.index endB.index (endA.run.reverse ++ endB.run)
      | .left, .right => merge endB.index endA.index (endB.run ++ endA.run)

/-- The state of a pass over the buffer. -/
structure Builder where
  /-- The number of positions of the chain. -/
  numQubits : Nat
  /-- Whether the chain is closed into a ring. -/
  cyclic : Bool
  /-- The qubits that hold a position. A released qubit keeps its position until the pass ends. -/
  allocated : OrderedSet QubitId
  /-- The qubits whose further commands still shape the segments. -/
  active : OrderedSet QubitId
  runs : List (List QubitId)
  /-- The neighbours each qubit was given. -/
  neighbours : OrderedMap QubitId (OrderedSet QubitId)

namespace Builder

/-- The state before the first command. -/
def start (numQubits : Nat) (cyclic : Bool) (allocated : OrderedSet QubitId) : Builder :=
  { numQubits := numQubits
    cyclic := cyclic
    allocated := allocated
    active := allocated
    runs := []
    neighbours := OrderedMap.ofList (allocated.toList.map fun q => (q, ∅)) }

/-- The neighbours given to a qubit. -/
def neighboursOf (builder : Builder) (q : QubitId) : OrderedSet QubitId :=
  (builder.neighbours.find? q).getD ∅

/-- Make two qubits neighbours. -/
def link (builder : Builder) (a b : QubitId) : Builder :=
  let once := builder.neighbours.insert a ((builder.neighboursOf a).insert b)
  { builder with neighbours := once.insert b (((once.find? b).getD ∅).insert a) }

/-- Stop two qubits from shaping the segments any further. -/
def deactivate (builder : Builder) (a b : QubitId) : Builder :=
  { builder with active := (builder.active.erase a).erase b }

/-- On a ring, the ends of a run through all positions are neighbours too. -/
def closeRing (builder : Builder) (run : List QubitId) : Builder :=
  match builder.cyclic && run.length == builder.numQubits, run.head?, run.getLast? with
  | true, some first, some last => builder.link first last
  | _, _, _ => builder

/-- Reserve a position for a qubit, while there is one left. -/
def allocate (builder : Builder) (q : QubitId) : Builder :=
  if builder.allocated.size < builder.numQubits then
    { builder with
      allocated := builder.allocated.insert q
      active := builder.active.insert q
      neighbours := builder.neighbours.insert q ∅ }
  else builder

/-- Make two qubits neighbours if both are active and have a free side; else neither shapes the
segments any further. -/
def addPair (builder : Builder) (a b : QubitId) : Builder :=
  if (builder.neighboursOf b).contains a then builder
  else if !(builder.active.contains a && builder.active.contains b) then builder.deactivate a b
  else if (builder.neighboursOf a).size > 1 || (builder.neighboursOf b).size > 1 then
    builder.deactivate a b
  else
    match join? builder.runs a b with
    | none => builder.deactivate a b
    | some (run, runs) => ({ builder with runs := runs }.link a b).closeRing run

/-- Take one command into account. -/
def step (builder : Builder) : Shape → Builder
  | .allocate q => builder.allocate q
  | .deallocate q => { builder with active := builder.active.erase q }
  | .single _ => builder
  | .pair a b => builder.addPair a b

/-- Whether no further command can change the segments. -/
def settled (builder : Builder) : Bool :=
  builder.allocated.size == builder.numQubits && builder.active.isEmpty

/-- The state after a list of commands. -/
def run (builder : Builder) (commands : List Buffered) : Builder :=
  commands.foldl
    (fun builder buffered => if builder.settled then builder else builder.step buffered.shape)
    builder

end Builder

/-- The segments for the next layout of a chain. The qubits allocated already keep a position. -/
def build (numQubits : Nat) (cyclic : Bool) (allocated : OrderedSet QubitId)
    (commands : List Buffered) : Segments :=
  let builder := (Builder.start numQubits cyclic allocated).run commands
  ⟨builder.runs, builder.allocated⟩

end Segments

end QubitRouting
