import QubitRouting.Arrangement
import QubitRouting.Grid.Synthesis
import QubitRouting.Random.Draw

/-!
# Search for cheap swaps

The row matchings of a move can be taken in any order, and the order decides how many swaps and layers
the move takes. All orders are tried when there are few enough; otherwise random ones are.
-/

namespace QubitRouting.Grid

open QubitRouting.Random (Stream)

/-- The cost of a list of swaps; less is better. -/
abbrev Cost := List Swap → Nat

/-- The factorial, as far as it fits a 64-bit word. -/
def factorial? : Nat → Option Nat
  | 0 => some 1
  | n + 1 =>
    match factorial? n with
    | some product => if product * (n + 1) < UInt64.size then some (product * (n + 1)) else none
    | none => none

/-- Whether all orders of the rows can be tried within the given number of steps. -/
def isExhaustive (rows steps : Nat) : Bool :=
  match factorial? rows with
  | some count => count ≤ steps
  | none => false

/-- The given number of random orders of the rows. -/
def randomOrders (rows : Nat) : Nat → Stream → List (List Nat) × Stream
  | 0, stream => ([], stream)
  | count + 1, stream =>
    let (order, stream) := Random.shuffledRange rows stream
    let (orders, stream) := randomOrders rows count stream
    (order :: orders, stream)

/-- The orders to try: all of them, in lexicographic order, or as many random ones as there are steps.
There is always at least one step. -/
def orders (rows steps : Nat) (stream : Stream) : List (List Nat) × Stream :=
  if isExhaustive rows (max steps 1) then (arrangements (List.range rows), stream)
  else randomOrders rows (max steps 1) stream

/-- The first of the swap lists with the least cost, the empty list if there is none. -/
def cheapest (cost : Cost) (lists : List (List Swap)) : List Swap :=
  (firstLeast? Prod.fst (lists.map fun swaps => (cost swaps, swaps))).elim [] Prod.snd

/-- The cheapest swaps found that move the qubits from one layout to another. -/
def optimalSwaps (grid : Grid) (old new : Layout Nat) (cost : Cost) (steps : Nat) (stream : Stream) :
    Except Failure (List Swap) × Stream :=
  let prepared : Except Failure (List Record × List (List Nat)) := do
    let records ← Failure.ofChecked (grid.records old new)
    let matchings ← grid.rowMatchings (records.map fun record => record.destination.finalColumn)
    return (records, matchings)
  match prepared with
  | .error failure => (.error failure, stream)
  | .ok (records, matchings) =>
    let (orders, stream) := orders grid.rows steps stream
    (return cheapest cost (← orders.mapM (grid.swapsFor records matchings)), stream)

end QubitRouting.Grid
