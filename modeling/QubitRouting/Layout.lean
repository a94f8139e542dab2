import QubitRouting.OrderedMap
import QubitRouting.Qubit
import QubitRouting.Swap

/-!
# Layouts

A layout says which qubit sits where. It is stored in both directions, and every operation keeps the
two directions inverse to each other: no qubit sits at two positions and no position holds two
qubits.
-/

namespace QubitRouting

/-- Which logical qubit sits at which position, for positions of type `P`. -/
structure Layout (P : Type) [Ranked P] where
  positions : OrderedMap QubitId P
  occupants : OrderedMap P QubitId
deriving DecidableEq

namespace Layout

variable {P R : Type} [Ranked P] [Ranked R]

/-- The layout without qubits. -/
def empty : Layout P := ⟨∅, ∅⟩

instance : EmptyCollection (Layout P) := ⟨empty⟩

/-- The position of a qubit. -/
def position? (layout : Layout P) (q : QubitId) : Option P := layout.positions.find? q

/-- The qubit at a position. -/
def occupant? (layout : Layout P) (p : P) : Option QubitId := layout.occupants.find? p

/-- Whether a qubit has a position. -/
def contains (layout : Layout P) (q : QubitId) : Bool := layout.positions.contains q

/-- Put a qubit at a position. Whatever sat there leaves the layout, and the qubit leaves the
position it had. -/
def insert (layout : Layout P) (q : QubitId) (p : P) : Layout P :=
  let positions :=
    match layout.occupant? p with
    | some other => layout.positions.erase other
    | none => layout.positions
  let occupants :=
    match layout.position? q with
    | some former => layout.occupants.erase former
    | none => layout.occupants
  ⟨positions.insert q p, occupants.insert p q⟩

/-- The layout of a list of pairs, put in place one after the other. -/
def ofPairs (pairs : List (QubitId × P)) : Layout P :=
  pairs.foldl (fun layout pair => layout.insert pair.1 pair.2) empty

/-- Take a qubit out. -/
def erase (layout : Layout P) (q : QubitId) : Layout P :=
  match layout.position? q with
  | some p => ⟨layout.positions.erase q, layout.occupants.erase p⟩
  | none => layout

/-- Exchange what sits at two positions. -/
def swap (layout : Layout P) (a b : P) : Layout P :=
  let fromA := layout.occupants.find? a
  let fromB := (layout.occupants.erase a).find? b
  let cleared : Layout P := ⟨layout.positions, (layout.occupants.erase a).erase b⟩
  let place (layout : Layout P) (occupant : Option QubitId) (p : P) : Layout P :=
    match occupant with
    | some q => ⟨layout.positions.insert q p, layout.occupants.insert p q⟩
    | none => layout
  place (place cleared fromA b) fromB a

/-- Carry out a list of swaps in order. -/
def applySwaps (layout : Layout Nat) (swaps : List Swap) : Layout Nat :=
  swaps.foldl (fun layout swap => layout.swap swap.1 swap.2) layout

/-- The pairs of qubit and position, by ascending qubit. -/
def pairs (layout : Layout P) : List (QubitId × P) := layout.positions.entries

/-- The qubits of the layout, ascending. -/
def qubits (layout : Layout P) : List QubitId := layout.positions.keys

/-- The number of qubits. -/
def size (layout : Layout P) : Nat := layout.positions.size

/-- The occupants of the positions below a bound, in order of position. -/
def toChain (layout : Layout Nat) (numQubits : Nat) : List (Option QubitId) :=
  (List.range numQubits).map layout.occupant?

/-- Move every qubit from its position to another one. -/
def mapPositions (f : P → R) (layout : Layout P) : Layout R :=
  ofPairs (layout.pairs.map fun pair => (pair.1, f pair.2))

/-- Move every qubit from its position to another one, where finding that one may fail. -/
def mapPositionsM {ε : Type} (f : P → Except ε R) (layout : Layout P) : Except ε (Layout R) := do
  let moved ← layout.pairs.mapM fun pair => do return (pair.1, ← f pair.2)
  return ofPairs moved

/-- Whether both directions list equally many entries and all positions are below a bound. -/
def isWithin (layout : Layout Nat) (numQubits : Nat) : Bool :=
  layout.positions.size == layout.occupants.size && layout.occupants.keys.all (· < numQubits)

end Layout

end QubitRouting
