import QubitRouting.Config
import QubitRouting.Proofs.Machine.Segment
import QubitRouting.Proofs.Machine.Synthesis
import QubitRouting.Proofs.Statistics

/-!
# Routers on a machine

Whatever the commands are, planning on a machine of 64 bits or more gives the plan: the depth of the
swaps is counted, the grid is unrolled along its snake, the orders of the row matchings are searched,
and nothing leaves its word or its table.
-/

namespace QubitRouting.Machine

/-! ### The depth of swaps -/

/-- Put a swap in the first layer after those of the earlier swaps on its positions. -/
def addSwap (limit : Nat) (schedule : Swap.Schedule) (swap : Swap) : Except Fault Swap.Schedule := do
  let last (p : Nat) := (schedule.layers.find? p).getD 0
  let layer ← size limit (max (last swap.1) (last swap.2) + 1)
  return {
    layers := (schedule.layers.insert swap.1 layer).insert swap.2 layer
    depth := max schedule.depth layer }

/-- The number of layers a list of swaps takes. -/
def depth (limit : Nat) (swaps : List Swap) : Except Fault Nat := do
  return (← swaps.foldlM (addSwap limit) {}).depth

variable {limit : Nat}

/-- Adding a swap to a schedule does not overflow if one more layer can be counted. -/
lemma addSwap_eq {count : Nat} {schedule : Swap.Schedule} (within : schedule.Within count)
    (few : count + 1 < limit) (swap : Swap) :
    addSwap limit schedule swap = .ok (schedule.add swap) := by
  have last (p : Nat) : (schedule.layers.find? p).getD 0 ≤ count := by
    rcases found : schedule.layers.find? p with _ | layer
    · exact Nat.zero_le count
    · exact (within.layer_le found).trans within.depth_le
  have layer : max ((schedule.layers.find? swap.1).getD 0) ((schedule.layers.find? swap.2).getD 0) + 1
      < limit := (Nat.succ_le_succ (max_le (last _) (last _))).trans_lt few
  rw [addSwap]
  simp only [size_of_lt layer, Checked.ok_bind]
  rfl

/-- The number of layers does not overflow if the swaps can be counted. -/
lemma depth_eq {swaps : List Swap} (few : swaps.length < limit) :
    depth limit swaps = .ok (Swap.depth swaps) := by
  have run : ∀ {count : Nat} {schedule : Swap.Schedule}, schedule.Within count →
      count + swaps.length < limit →
      swaps.foldlM (addSwap limit) schedule = .ok (swaps.foldl Swap.Schedule.add schedule) := by
    clear few
    induction swaps with
    | nil => exact fun _ _ => rfl
    | cons swap rest ih =>
      intro count schedule within few
      rw [List.length_cons] at few
      rw [List.foldlM_cons, addSwap_eq within (by omega), Checked.ok_bind]
      exact ih (within.add swap) (by omega)
  rw [depth, run Swap.Schedule.within_start (by omega)]
  rfl

/-! ### The search -/

/-- The cost of a list of swaps. -/
def cost (limit : Nat) : Objective → List Swap → Except Fault Nat
  | .swapDepth, swaps => depth limit swaps
  | .swapCount, swaps => .ok swaps.length

/-- The first of the cheapest swaps among those that some orders of the row matchings lead to. -/
def cheapest (limit : Nat) (grid : Grid) (objective : Objective) (records : List Grid.Record)
    (matchings orders : List (List Nat)) : Except Failure (List Swap) := do
  let priced ← orders.mapM fun order => do
    let swaps ← swapsFor limit grid records matchings order
    return (← Failure.ofChecked (cost limit objective swaps), swaps)
  return (Grid.firstLeast? Prod.fst priced).elim [] Prod.snd

/-- The cheapest swaps found that move the qubits from one layout to another. -/
def optimalSwaps (limit : Nat) (grid : Grid) (old new : Layout Nat) (objective : Objective)
    (steps : Nat) (stream : Random.Stream) : Except Failure (List Swap) × Random.Stream :=
  let prepared : Except Failure (List Grid.Record × List (List Nat)) := do
    let records ← Failure.ofChecked (grid.records old new)
    let matchings ← rowMatchings limit grid (records.map fun record => record.destination.finalColumn)
    return (records, matchings)
  match prepared with
  | .error failure => (.error failure, stream)
  | .ok (records, matchings) =>
    let (orders, stream) := Grid.orders grid.rows steps stream
    (cheapest limit grid objective records matchings orders, stream)

/-- The cost does not overflow if the swaps can be counted. -/
lemma cost_eq {swaps : List Swap} (few : swaps.length < limit) (objective : Objective) :
    cost limit objective swaps = .ok (objective.cost swaps) := by
  cases objective with
  | swapDepth => exact depth_eq few
  | swapCount => rfl

/-- The machine finds the same cheapest swaps if those of every order can be counted. -/
lemma cheapest_eq {grid : Grid} (objective : Objective) {records : List Grid.Record}
    {matchings orders : List (List Nat)} {swaps : List Nat → List Swap}
    (solved : ∀ order ∈ orders, grid.swapsFor records matchings order = .ok (swaps order) ∧
      swapsFor limit grid records matchings order = .ok (swaps order) ∧ (swaps order).length < limit) :
    cheapest limit grid objective records matchings orders
      = (do return Grid.cheapest objective.cost (← orders.mapM (grid.swapsFor records matchings))) := by
  have plain : orders.mapM (grid.swapsFor records matchings) = .ok (orders.map swaps) :=
    Checked.mapM_eq_ok fun order mem => (solved order mem).1
  have priced : orders.mapM (fun order => do
      let swaps ← swapsFor limit grid records matchings order
      return (← Failure.ofChecked (cost limit objective swaps), swaps))
      = .ok (orders.map fun order => (objective.cost (swaps order), swaps order)) := by
    refine Checked.mapM_eq_ok fun order mem => ?_
    obtain ⟨_, checked, few⟩ := solved order mem
    rw [checked, Checked.ok_bind, cost_eq few]
    rfl
  rw [cheapest, priced, plain, Checked.ok_bind, Checked.ok_bind, Grid.cheapest, List.map_map]
  rfl

section Search

variable {grid : Grid} {old new : Layout Nat} (valid : grid.Valid) (wide : 2 ^ 64 ≤ limit)
include valid wide

/-- The square of the number of cells fits a size word. -/
lemma square_lt : (grid.rows * grid.columns) * (grid.rows * grid.columns) < limit :=
  calc (grid.rows * grid.columns) * (grid.rows * grid.columns)
      < 2 ^ 32 * 2 ^ 32 := Nat.mul_lt_mul'' valid.small valid.small
    _ = 2 ^ 64 := by norm_num
    _ ≤ limit := wide

/-- Every order of the row matchings leads to the same swaps on the machine, and few enough. -/
lemma exists_solution {targets : Nat → Nat} {records : List Grid.Record} {matchings : List (List Nat)}
    (posed : Grid.Posed grid old new targets records matchings) :
    ∃ swaps : List Nat → List Swap, ∀ order : List Nat, order.Perm (List.range grid.rows) →
      grid.swapsFor records matchings order = .ok (swaps order) ∧
      swapsFor limit grid records matchings order = .ok (swaps order) ∧
      (swaps order).length < limit := by
  have small := valid.small
  have rows : grid.rows ≤ grid.rows * grid.columns := Nat.le_mul_of_pos_right _ valid.columns_pos
  have columns : grid.columns ≤ grid.rows * grid.columns := Nat.le_mul_of_pos_left _ valid.rows_pos
  have rows_lt : grid.rows < limit := by omega
  have columns_lt : grid.columns < limit := by omega
  have solved : ∀ order : List Nat, order.Perm (List.range grid.rows) → ∃ swaps,
      grid.swapsFor records matchings order = .ok swaps ∧
      swapsFor limit grid records matchings order = .ok swaps ∧ swaps.length < limit := by
    intro order perm
    obtain ⟨swaps, plain, checked, few⟩ := swapsFor_eq valid rows_lt columns_lt posed perm
    exact ⟨swaps, plain, checked, few.trans_lt (square_lt valid wide)⟩
  choose! swaps solved using solved
  exact ⟨swaps, solved⟩

variable (oldFits : old.Fits (grid.rows * grid.columns))
  (newFits : new.Fits (grid.rows * grid.columns))
include oldFits newFits

/-- The swaps found can be counted. -/
lemma length_optimalSwaps {price : Grid.Cost} {steps : Nat} {stream : Random.Stream}
    {swaps : List Swap} (found : (grid.optimalSwaps old new price steps stream).1 = .ok swaps) :
    swaps.length < limit := by
  obtain ⟨targets, records, matchings, posed⟩ := valid.exists_posed oldFits newFits
  obtain ⟨solution, solved⟩ := exists_solution valid wide posed
  obtain ⟨order, perm, same⟩ := posed.optimalSwaps_eq price steps stream fun order perm =>
    (solved order perm).1
  rw [same] at found
  cases found
  exact (solved order perm).2.2

/-- The search on the machine is the search on the grid. -/
lemma optimalSwaps_eq (objective : Objective) (steps : Nat) (stream : Random.Stream) :
    optimalSwaps limit grid old new objective steps stream
      = grid.optimalSwaps old new objective.cost steps stream := by
  obtain ⟨targets, records, matchings, posed⟩ := valid.exists_posed oldFits newFits
  obtain ⟨swaps, solved⟩ := exists_solution valid wide posed
  have square := square_lt valid wide
  have small := valid.small
  have columns : grid.columns ≤ grid.rows * grid.columns := Nat.le_mul_of_pos_left _ valid.rows_pos
  have length : records.length = grid.rows * grid.columns := posed.holds.size
  have double : 2 * grid.columns < limit := by omega
  have few : (records.map fun record => record.destination.finalColumn).length < limit := by
    rw [List.length_map]
    omega
  have matched := rowMatchings_eq double ((Nat.mul_le_mul columns columns).trans_lt square) few
    posed.matched
  have found := cheapest_eq objective
    fun order (mem : order ∈ (Grid.orders grid.rows steps stream).1) => solved order (Grid.orders_perm mem)
  simp only [optimalSwaps, Grid.optimalSwaps, posed.recorded, Failure.ofChecked, posed.matched, matched,
    Checked.ok_bind]
  exact Prod.ext found rfl

end Search

/-! ### Plans -/

/-- Reverse the odd rows of a grid, which goes along its snake or back. -/
def reverseOddRows (grid : Grid) (position : Nat) : Except Fault Nat := do
  let (row, column) ← grid.coordinates position
  if row % 2 = 0 then return position
  grid.position row (← less (← less grid.columns 1) column)

/-- Plan the next layout of a chain. -/
def chainPlan (limit : Nat) (chain : Chain) (input : PlanInput) : Except Fault Plan := do
  let segments ← build chain.numQubits chain.cyclic input.allocated input.commands
  let layout ← place limit segments chain.numQubits input.current
  return ⟨layout, ← chainSwaps limit chain.numQubits input.current layout⟩

/-- The next layout of a grid, from placing the segments along its snake. -/
def gridLayout (limit : Nat) (grid : Grid) (input : PlanInput) : Except Fault (Layout Nat) := do
  let numQubits ← grid.numQubits
  let unrolled ← input.current.mapPositionsM (reverseOddRows grid)
  let segments ← build numQubits false input.allocated input.commands
  (← place limit segments numQubits unrolled).mapPositionsM (reverseOddRows grid)

/-- Plan the next layout of a grid. -/
def gridPlan (limit : Nat) (objective : Objective) (router : GridRouter) (input : PlanInput) :
    Except Failure Plan × GridRouter :=
  match gridLayout limit router.grid input with
  | .error fault => (.error (.fault fault), router)
  | .ok layout =>
    let (swaps, stream) := optimalSwaps limit router.grid input.current layout objective router.steps
      router.stream
    (swaps.map fun swaps => ⟨layout, swaps⟩, { router with stream })

/-- Plan the next layout. -/
def plan (limit : Nat) (objective : Objective) : Router → PlanInput → Except Failure Plan × Router
  | .chain c, input => (Failure.ofChecked (chainPlan limit c input), .chain c)
  | .grid r, input =>
    let (result, r) := gridPlan limit objective r input
    (result, .grid r)

/-- Reversing the odd rows follows the snake. -/
lemma reverseOddRows_eq {grid : Grid} (valid : grid.Valid) {p : Nat}
    (lt : p < grid.rows * grid.columns) : reverseOddRows grid p = .ok (grid.snake p) := by
  have column := Nat.mod_lt p valid.columns_pos
  have last : less grid.columns 1 = .ok (grid.columns - 1) := less_of_le valid.columns_pos
  have opposite : less (grid.columns - 1) (p % grid.columns)
      = .ok (grid.columns - 1 - p % grid.columns) := less_of_le (by omega)
  rw [← valid.reverseOddRows_eq lt]
  simp only [reverseOddRows, Grid.reverseOddRows, valid.coordinates_eq, Checked.ok_bind, last, opposite]

variable {input : PlanInput}

/-- There is a target for each position. -/
lemma length_targets {n : Nat} {old new : Layout Nat} (oldFits : old.Fits n) (newFits : new.Fits n) :
    (Move.targets n old new).length = n := by
  rw [(Move.targets_perm oldFits.consistent newFits).length_eq, List.length_range]

/-- The machine plans for a chain as the router does. -/
lemma chainPlan_eq {chain : Chain} (word : chain.numQubits < 2 ^ 32) (wide : 2 ^ 64 ≤ limit)
    (fits : input.current.Fits chain.numQubits)
    (room : chain.numQubits + (input.allocated.size + 2 * input.commands.length) < limit) :
    chainPlan limit chain input = .ok (chain.plan input) := by
  have length := length_toPlace chain.numQubits chain.cyclic input.allocated input.commands
  rw [chainPlan, build_eq, Checked.ok_bind, place_eq _ (by omega), Checked.ok_bind,
    chainSwaps_eq (by omega) word (length_targets fits (Segments.fits_place _ _ _))]
  rfl

/-- The swaps on a chain can be counted. -/
lemma length_chainSwaps {n : Nat} (word : n < 2 ^ 32) (wide : 2 ^ 64 ≤ limit) {old new : Layout Nat}
    (oldFits : old.Fits n) (newFits : new.Fits n) : (Move.chainSwaps n old new).length < limit := by
  have length := length_targets oldFits newFits
  have few := OddEven.inversions_le id (Move.targets n old new)
  have count := (OddEven.sort_exchanges id (Move.targets n old new)).inversions_eq
  have square : n * n < 2 ^ 32 * 2 ^ 32 := Nat.mul_lt_mul'' word word
  rw [length] at few
  rw [Move.chainSwaps, List.length_map]
  omega

/-- The machine places segments along the snake as the router does. -/
lemma gridLayout_eq {router : GridRouter} (regular : (Router.grid router).Regular)
    (fits : input.current.Fits router.numQubits)
    (room : router.numQubits + (input.allocated.size + 2 * input.commands.length) < limit) :
    gridLayout limit router.grid input = .ok ((Router.grid router).next input) := by
  obtain ⟨valid, hardware⟩ := regular
  have numQubits : router.grid.numQubits = .ok router.numQubits := by
    rw [valid.numQubits_eq, GridRouter.numQubits, hardware]
  have snakes : ∀ p < router.numQubits, reverseOddRows router.grid p = .ok (router.grid.snake p) := by
    rw [GridRouter.numQubits, hardware]
    exact fun p lt => reverseOddRows_eq valid lt
  have length := length_toPlace router.numQubits false input.allocated input.commands
  have unrolled : input.current.mapPositionsM (reverseOddRows router.grid)
      = .ok (input.current.mapPositions router.grid.snake) :=
    Layout.mapPositionsM_eq fun placed => snakes _ (fits.lt placed)
  rw [gridLayout, numQubits, Checked.ok_bind, unrolled, Checked.ok_bind, build_eq, Checked.ok_bind,
    place_eq _ (by omega), Checked.ok_bind]
  exact Layout.mapPositionsM_eq fun placed => snakes _ ((Segments.fits_place _ _ _).lt placed)

/-- The search of a router for a grid minimises the given objective. -/
def Pursues (objective : Objective) : Router → Prop
  | .chain _ => True
  | .grid r => r.cost = objective.cost

/-- A router minimises the same objective after a plan. -/
lemma pursues_plan {objective : Objective} {router : Router} (pursues : Pursues objective router)
    (input : PlanInput) : Pursues objective (router.plan input).2 := by
  cases router with
  | chain c => exact trivial
  | grid r =>
    obtain ⟨stream, same⟩ := Router.plan_grid_snd r input
    rw [same]
    exact pursues

section Plan

variable {router : Router} (valid : router.Valid) (wide : 2 ^ 64 ≤ limit)
  (fits : input.current.Fits router.numQubits)
include valid wide fits

/-- Planning on the machine gives the plan. -/
lemma plan_eq {objective : Objective} (pursues : Pursues objective router)
    (room : router.numQubits + (input.allocated.size + 2 * input.commands.length) < limit) :
    plan limit objective router input = router.plan input := by
  cases router with
  | chain c =>
    rw [plan, chainPlan_eq valid.2 wide fits room]
    rfl
  | grid r =>
    have next := gridLayout_eq valid.regular fits room
    have fits' := valid.regular.fits_next input
    have sizes : (Router.grid r).numQubits = r.grid.rows * r.grid.columns := valid.2.1
    have planned := valid.regular.gridPlan_eq fits
    rw [sizes] at fits fits'
    have found := optimalSwaps_eq valid.1 wide fits fits' objective r.steps r.stream
    rw [Pursues] at pursues
    simp only [plan, gridPlan, Router.plan, next, found, planned, pursues]

/-- The swaps of a plan can be counted. -/
lemma length_plan {result : Plan} (planned : (router.plan input).1 = .ok result) :
    result.swaps.length < limit := by
  cases router with
  | chain c =>
    cases planned
    exact length_chainSwaps valid.2 wide fits (Segments.fits_place _ _ _)
  | grid r =>
    have fits' := valid.regular.fits_next input
    have sizes : (Router.grid r).numQubits = r.grid.rows * r.grid.columns := valid.2.1
    rw [valid.regular.plan_grid fits] at planned
    rw [sizes] at fits fits'
    rcases found : (r.grid.optimalSwaps input.current ((Router.grid r).next input) r.cost r.steps
      r.stream).1 with _ | swaps
    · rw [found] at planned
      cases planned
    · rw [found] at planned
      cases planned
      exact length_optimalSwaps valid.1 wide fits fits' found

end Plan

end QubitRouting.Machine
