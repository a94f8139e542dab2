import QubitRouting.Grid.Search
import QubitRouting.Placement

/-!
# Routers

A router knows the positions of a device, the hardware qubit at each of them, and how to plan the next
layout: which qubit should sit where, and which swaps lead there from the present layout.
-/

namespace QubitRouting

/-- What a plan is made from. -/
structure PlanInput where
  /-- The logical qubits allocated on the device. -/
  allocated : OrderedSet QubitId
  /-- The commands that wait, in order of arrival. -/
  commands : List Buffered
  current : Layout Nat

/-- The next layout and how to reach it. -/
structure Plan where
  layout : Layout Nat
  /-- The swaps that lead from the present layout to it. -/
  swaps : List Swap
deriving DecidableEq

/-- Plan the next layout of a chain. -/
def Chain.plan (chain : Chain) (input : PlanInput) : Plan :=
  let segments := Segments.build chain.numQubits chain.cyclic input.allocated input.commands
  let layout := segments.place chain.numQubits input.current
  ⟨layout, Move.chainSwaps chain.numQubits input.current layout⟩

/-- A router for a grid. -/
structure GridRouter where
  grid : Grid
  hardware : Array QubitId
  positions : OrderedMap QubitId Nat
  cost : Grid.Cost
  /-- How many orders of the row matchings the search may try. -/
  steps : Nat
  /-- The source of random orders. -/
  stream : Random.Stream

namespace GridRouter

/-- The number of positions. -/
def numQubits (router : GridRouter) : Nat := router.hardware.size

/-- A router whose hardware qubits are numbered like the positions. -/
def ofGrid (grid : Grid) (cost : Grid.Cost) (steps : Nat) (seed : UInt64) :
    Except Fault GridRouter := do
  let numQubits ← grid.numQubits
  return {
    grid, cost, steps
    hardware := ((List.range numQubits).map QubitId.ofNat).toArray
    positions := OrderedMap.ofList ((List.range numQubits).map fun p => (QubitId.ofNat p, p))
    stream := Random.Stream.ofSeed seed }

/-- A table of hardware qubits under construction. -/
structure Table where
  /-- The hardware qubit of each position listed. -/
  hardware : OrderedMap Nat QubitId := ∅
  /-- The position of each hardware qubit listed. -/
  positions : OrderedMap QubitId Nat := ∅

/-- List one more pair of a position and its hardware qubit. -/
def Table.add (numQubits : Nat) (table : Table) (pair : Nat × QubitId) : Except TableError Table :=
  let (position, qubit) := pair
  if numQubits ≤ position then .error (.outside position numQubits)
  else if table.hardware.contains position then .error (.repeatedPosition position)
  else if table.positions.contains qubit then .error (.repeatedQubit qubit)
  else .ok ⟨table.hardware.insert position qubit, table.positions.insert qubit position⟩

/-- Number the hardware qubits by a table, which must list every position once and no hardware qubit
twice. -/
def withTable (router : GridRouter) (pairs : List (Nat × QubitId)) : Except TableError GridRouter := do
  let table ← pairs.foldlM (Table.add router.numQubits) {}
  let hardware ← (List.range router.numQubits).mapM fun position =>
    match table.hardware.find? position with
    | some qubit => .ok qubit
    | none => .error (.missing position)
  return { router with hardware := hardware.toArray, positions := table.positions }

/-- Plan the next layout: the grid is unrolled along the snake to place the segments, and the swaps
are found on the grid itself. -/
def plan (router : GridRouter) (input : PlanInput) : Except Failure Plan × GridRouter :=
  let placed : Except Fault (Layout Nat) := do
    let unrolled ← input.current.mapPositionsM router.grid.toSnake
    let segments := Segments.build router.numQubits false input.allocated input.commands
    (segments.place router.numQubits unrolled).mapPositionsM router.grid.ofSnake
  match placed with
  | .error fault => (.error (.fault fault), router)
  | .ok layout =>
    let (swaps, stream) :=
      router.grid.optimalSwaps input.current layout router.cost router.steps router.stream
    (swaps.map fun swaps => ⟨layout, swaps⟩, { router with stream })

/-- The description of a router, which leaves out its search. -/
def describe (router : GridRouter) : String :=
  "GridRouter \x7b grid: Grid \x7b num_rows: " ++ toString router.grid.rows
    ++ ", num_columns: " ++ toString router.grid.columns
    ++ " \x7d, backend_ids: " ++ describeList (router.hardware.toList.map fun q => toString q.toNat)
    ++ ", num_optimization_steps: " ++ toString router.steps ++ ", .. \x7d"

end GridRouter

/-- A router for one of the topologies. -/
inductive Router where
  /-- A chain whose hardware qubits are numbered like its positions. -/
  | chain (chain : Chain)
  | grid (router : GridRouter)

namespace Router

/-- The name of the routing strategy. -/
def name : Router → String
  | chain _ => "ChainRouter"
  | grid _ => "GridRouter"

/-- The number of positions. -/
def numQubits : Router → Nat
  | chain c => c.numQubits
  | grid r => r.numQubits

/-- Whether two positions are neighbours. -/
def adjacent : Router → Nat → Nat → Except Fault Bool
  | chain c, a, b => .ok (c.adjacent a b)
  | grid r, a, b => r.grid.adjacent a b

/-- The hardware qubit at a position. -/
def hardwareQubit : Router → Nat → QubitId
  | chain _, position => QubitId.ofNat position
  | grid r, position => r.hardware[position]?.getD (QubitId.ofNat position)

/-- The position of a hardware qubit, if there is such a qubit. -/
def position? : Router → QubitId → Option Nat
  | chain c, qubit => if qubit.toNat < c.numQubits then some qubit.toNat else none
  | grid r, qubit => r.positions.find? qubit

/-- Plan the next layout. Random draws change the router. -/
def plan : Router → PlanInput → Except Failure Plan × Router
  | chain c, input => (.ok (c.plan input), chain c)
  | grid r, input =>
    let (result, r) := r.plan input
    (result, grid r)

end Router

end QubitRouting
