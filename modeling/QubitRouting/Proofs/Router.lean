import QubitRouting.Router
import QubitRouting.Proofs.Placement
import QubitRouting.Proofs.Search
import QubitRouting.Proofs.Table

/-!
# Routers plan without fail

A valid router numbers its hardware qubits one to one. Its plans stay on the device and swap neighbours
only. If no more qubits are allocated than there are positions, and no qubit is allocated twice, there
always is a plan: it places every allocated qubit, its swaps carry each of them to its new position, and
the two qubits of the oldest command become neighbours.
-/

namespace QubitRouting

namespace Layout

variable {P R ε : Type} [Ranked P] [Ranked R] {layout : Layout P}

/-- Renaming positions succeeds if it does for those in use. -/
lemma mapPositionsM_eq {f : P → Except ε R} {g : P → R}
    (known : ∀ {q p}, layout.position? q = some p → f p = .ok (g p)) :
    layout.mapPositionsM f = .ok (layout.mapPositions g) := by
  have moved : layout.pairs.mapM (fun pair => do return (pair.1, ← f pair.2))
      = .ok (layout.pairs.map fun pair => (pair.1, g pair.2)) := by
    apply Checked.mapM_eq_ok
    rintro ⟨q, p⟩ mem
    exact Checked.bind_eq_ok.mpr ⟨g p, known (mem_pairs_iff.mp mem), rfl⟩
  exact Checked.bind_eq_ok.mpr ⟨_, moved, rfl⟩

/-- Renaming positions below a bound keeps a layout below it. -/
lemma Fits.mapPositions {layout : Layout Nat} {n : Nat} {f : Nat → Nat} (fits : layout.Fits n)
    (within : ∀ p < n, f p < n) : (layout.mapPositions f).Fits n := by
  apply fits_ofPairs
  intro pair mem
  obtain ⟨⟨q, p⟩, placed, rfl⟩ := List.mem_map.mp mem
  exact within p (fits.lt (mem_pairs_iff.mp placed))

end Layout

namespace Router

/-- The positions are numbered one to one by hardware qubits. -/
def Valid : Router → Prop
  | chain c => 0 < c.numQubits ∧ c.numQubits < 2 ^ 32
  | grid r => r.grid.Valid ∧ r.hardware.size = r.grid.rows * r.grid.columns ∧
      ∀ {q p}, r.positions.find? q = some p ↔ r.hardware[p]? = some q

/-- There is a position for every cell. Plans do not depend on how the hardware qubits are numbered. -/
def Regular : Router → Prop
  | chain _ => True
  | grid r => r.grid.Valid ∧ r.hardware.size = r.grid.rows * r.grid.columns

variable {router : Router} {a b p : Nat} {q : QubitId}

/-- A valid router has a position for every cell. -/
lemma Valid.regular (valid : router.Valid) : router.Regular := by
  cases router with
  | chain c => trivial
  | grid r => exact ⟨valid.1, valid.2.1⟩

/-- Hardware qubits stand for the positions of the device, and for nothing else. -/
lemma Valid.numQubits_lt (valid : router.Valid) : router.numQubits < 2 ^ 32 := by
  cases router with
  | chain c => exact valid.2
  | grid r =>
    obtain ⟨grid, size, _⟩ := valid
    rw [numQubits, GridRouter.numQubits, size]
    exact grid.small

/-- A hardware qubit is found at the position that it stands for, and nowhere else. -/
def Invertible (router : Router) : Prop :=
  ∀ q p, router.position? q = some p ↔ p < router.numQubits ∧ router.hardwareQubit p = q

/-- A chain of positions that fit a word finds hardware qubits at their positions. -/
lemma invertible_chain {c : Chain} (small : c.numQubits < 2 ^ 32) : (chain c).Invertible := by
  intro q p
  rw [position?, numQubits, hardwareQubit]
  constructor
  · intro here
    split at here
    · obtain rfl := Option.some.inj here
      exact ⟨‹_›, q.ofNat_toNat⟩
    · cases here
  · rintro ⟨lt, rfl⟩
    rw [QubitId.toNat_ofNat (Nat.lt_trans lt small), if_pos lt]

/-- A grid whose two tables are inverse finds hardware qubits at their positions. -/
lemma invertible_grid {r : GridRouter} (inverse : r.Inverse) : (grid r).Invertible := by
  intro q p
  rw [position?, numQubits, hardwareQubit, inverse, GridRouter.numQubits]
  constructor
  · intro here
    obtain ⟨lt, rfl⟩ := Array.getElem?_eq_some_iff.mp here
    rw [here]
    exact ⟨lt, rfl⟩
  · rintro ⟨lt, rfl⟩
    rw [Array.getElem?_eq_getElem lt]
    rfl

/-- A hardware qubit is found exactly at the position that it stands for. -/
lemma Valid.position?_eq_some (valid : router.Valid) :
    router.position? q = some p ↔ p < router.numQubits ∧ router.hardwareQubit p = q := by
  cases router with
  | chain c => exact invertible_chain valid.2 q p
  | grid r => exact invertible_grid (fun _ _ => valid.2.2) q p

/-- No hardware qubit stands for two positions. -/
lemma Valid.hardwareQubit_inj (valid : router.Valid) (ltA : a < router.numQubits)
    (ltB : b < router.numQubits) (same : router.hardwareQubit a = router.hardwareQubit b) : a = b := by
  have here := valid.position?_eq_some.mpr ⟨ltA, rfl⟩
  rw [same, valid.position?_eq_some.mpr ⟨ltB, rfl⟩] at here
  exact (Option.some.inj here).symm

/-- On a valid device the test for neighbours gives an answer. -/
lemma Valid.exists_adjacent (valid : router.Valid) (a b : Nat) :
    ∃ answer, router.adjacent a b = .ok answer := by
  cases router with
  | chain c => exact ⟨_, rfl⟩
  | grid r => exact valid.1.exists_adjacent a b

/-- Being neighbours is mutual. -/
lemma adjacent_comm : router.adjacent a b = router.adjacent b a := by
  cases router with
  | chain c => rw [adjacent, adjacent, Chain.adjacent_comm]
  | grid r => exact Grid.adjacent_comm

/-- No position is its own neighbour. -/
lemma Valid.ne_of_adjacent (valid : router.Valid) (adjacent : router.adjacent a b = .ok true) : a ≠ b := by
  rintro rfl
  cases router with
  | chain c =>
    rw [Router.adjacent, Chain.adjacent] at adjacent
    have beside := Except.ok.inj adjacent
    simp only [max_self, min_self, Nat.sub_self, Bool.or_eq_true, Bool.and_eq_true, beq_iff_eq,
      decide_eq_true_eq] at beside
    omega
  | grid r =>
    have columns_pos := valid.1.columns_pos
    rw [Router.adjacent, Grid.adjacent] at adjacent
    simp only [max_self, min_self, Nat.sub_self] at adjacent
    rw [if_neg (by omega), if_neg (by omega)] at adjacent
    cases adjacent

/-- Routers for the same device. -/
structure SameDevice (router other : Router) : Prop where
  valid : router.Valid → other.Valid
  numQubits_eq : other.numQubits = router.numQubits
  adjacent_eq : other.adjacent = router.adjacent
  hardwareQubit_eq : other.hardwareQubit = router.hardwareQubit
  position?_eq : other.position? = router.position?

/-- A router is for the device it is for. -/
lemma SameDevice.refl (router : Router) : router.SameDevice router := ⟨id, rfl, rfl, rfl, rfl⟩

/-- Routers for the same device as a third one are for the same device. -/
lemma SameDevice.trans {first second third : Router} (one : first.SameDevice second)
    (two : second.SameDevice third) : first.SameDevice third :=
  ⟨two.valid ∘ one.valid, two.numQubits_eq.trans one.numQubits_eq, two.adjacent_eq.trans one.adjacent_eq,
    two.hardwareQubit_eq.trans one.hardwareQubit_eq, two.position?_eq.trans one.position?_eq⟩

/-- Planning only uses up random numbers. -/
lemma plan_grid_snd (r : GridRouter) (input : PlanInput) :
    ∃ stream, ((grid r).plan input).2 = grid { r with stream } := by
  rw [plan]
  generalize result : r.plan input = planned
  rw [GridRouter.plan] at result
  dsimp only at result
  split at result
  · cases result
    exact ⟨r.stream, rfl⟩
  · cases result
    exact ⟨_, rfl⟩

/-- A plan does not change the device. -/
lemma sameDevice_plan (router : Router) (input : PlanInput) :
    router.SameDevice (router.plan input).2 := by
  cases router with
  | chain c => exact .refl _
  | grid r =>
    obtain ⟨stream, after⟩ := plan_grid_snd r input
    rw [after]
    exact ⟨id, rfl, rfl, rfl, rfl⟩

/-! ### Plans -/

/-- Swaps between neighbouring positions of the device. -/
def Neighbouring (router : Router) (swaps : List Swap) : Prop :=
  ∀ swap ∈ swaps, router.adjacent swap.1 swap.2 = .ok true ∧
    swap.1 < router.numQubits ∧ swap.2 < router.numQubits

/-- The segments of a plan. -/
def segments (router : Router) (input : PlanInput) : Segments :=
  match router with
  | chain c => .build c.numQubits c.cyclic input.allocated input.commands
  | grid r => .build r.numQubits false input.allocated input.commands

/-- The layout of a plan: the segments on the chain, or along the snake. -/
def next (router : Router) (input : PlanInput) : Layout Nat :=
  match router with
  | chain c => ((chain c).segments input).place c.numQubits input.current
  | grid r => (((grid r).segments input).place r.numQubits
      (input.current.mapPositions r.grid.snake)).mapPositions r.grid.snake

variable {input : PlanInput}

/-- The layout of a plan stays on the device. -/
lemma Regular.fits_next (regular : router.Regular) (input : PlanInput) :
    (router.next input).Fits router.numQubits := by
  cases router with
  | chain c => exact Segments.fits_place _ _ _
  | grid r =>
    refine (Segments.fits_place _ _ _).mapPositions ?_
    rw [GridRouter.numQubits, regular.2]
    exact fun p lt => regular.1.snake_lt lt

/-- On a grid, the qubits are placed along the snake and the search finds the swaps. -/
lemma Regular.gridPlan_eq {r : GridRouter} (regular : (grid r).Regular)
    (fits : input.current.Fits r.numQubits) :
    r.plan input
      = ((r.grid.optimalSwaps input.current ((grid r).next input) r.cost r.steps r.stream).1.map
          fun swaps => ⟨(grid r).next input, swaps⟩,
        { r with stream :=
            (r.grid.optimalSwaps input.current ((grid r).next input) r.cost r.steps r.stream).2 }) := by
  obtain ⟨valid, size⟩ := regular
  have snakes : ∀ p < r.numQubits, r.grid.reverseOddRows p = .ok (r.grid.snake p) := by
    rw [GridRouter.numQubits, size]
    exact fun p lt => valid.reverseOddRows_eq lt
  -- the qubits are placed on the snake, as on a chain, and mapped back to the grid
  have unrolled : input.current.mapPositionsM r.grid.toSnake
      = .ok (input.current.mapPositions r.grid.snake) :=
    Layout.mapPositionsM_eq fun placed => snakes _ (fits.lt placed)
  have rolled : (((grid r).segments input).place r.numQubits
        (input.current.mapPositions r.grid.snake)).mapPositionsM r.grid.ofSnake
      = .ok ((grid r).next input) :=
    Layout.mapPositionsM_eq fun placed => snakes _ ((Segments.fits_place _ _ _).lt placed)
  rw [segments] at rolled
  simp only [GridRouter.plan, unrolled, rolled, bind, Except.bind]

/-- A plan for a grid is its next layout with the swaps that the search finds. -/
lemma Regular.plan_grid {r : GridRouter} (regular : (grid r).Regular)
    (fits : input.current.Fits r.numQubits) :
    ((grid r).plan input).1
      = (r.grid.optimalSwaps input.current ((grid r).next input) r.cost r.steps r.stream).1.map
          fun swaps => ⟨(grid r).next input, swaps⟩ := by
  rw [plan, regular.gridPlan_eq fits]

/-- There always is a plan: its swaps are between neighbours, and they carry every qubit to its new
position. -/
lemma Regular.plan_eq (regular : router.Regular) (fits : input.current.Fits router.numQubits) :
    ∃ swaps, (router.plan input).1 = .ok ⟨router.next input, swaps⟩ ∧
      Move.Carries swaps input.current (router.next input) ∧ router.Neighbouring swaps := by
  have fits' := regular.fits_next input
  cases router with
  | chain c =>
    refine ⟨_, rfl, Move.carries_chainSwaps fits fits', ?_⟩
    intro swap mem
    obtain ⟨step, lt⟩ := Move.chainSwaps_adjacent fits.consistent fits' mem
    rw [adjacent, step, Chain.adjacent_succ]
    exact ⟨rfl, Nat.lt_of_succ_lt lt, lt⟩
  | grid r =>
    have planned := regular.plan_grid fits
    obtain ⟨validGrid, size⟩ := regular
    have sizes : (grid r).numQubits = r.grid.rows * r.grid.columns := size
    rw [sizes] at fits fits'
    obtain ⟨swaps, found, carries⟩ : ∃ swaps, (r.grid.optimalSwaps input.current ((grid r).next input)
        r.cost r.steps r.stream).1 = .ok swaps ∧
        Move.Carries swaps input.current ((grid r).next input) :=
      validGrid.optimalSwaps_eq fits fits'
    refine ⟨swaps, ?_, carries, ?_⟩
    · rw [planned, found]
      rfl
    · intro swap mem
      rw [sizes]
      exact validGrid.optimalSwaps_neighbouring found swap mem

/-- The positions of the layout are those of the segments, or their images along the snake. -/
lemma Regular.exists_positions (regular : router.Regular) (input : PlanInput) :
    ∃ (current : Layout Nat) (f : Nat → Nat),
      (∀ q, (router.next input).position? q
        = (((router.segments input).place router.numQubits current).position? q).map f) ∧
      ∀ p, router.adjacent (f p) (f (p + 1)) = .ok true := by
  cases router with
  | chain c =>
    refine ⟨input.current, id, ?_, ?_⟩
    · intro q
      rw [Option.map_id_fun]
      rfl
    · intro p
      rw [adjacent, id, id, Chain.adjacent_succ]
  | grid r =>
    refine ⟨input.current.mapPositions r.grid.snake, r.grid.snake, ?_, regular.1.snake_adjacent⟩
    intro q
    exact Layout.position?_mapPositions (Segments.fits_place _ _ _).consistent
      fun _ _ _ _ _ _ same => regular.1.snake_inj same

section Sound

variable (room : input.allocated.size ≤ router.numQubits)
  (fresh : Segments.AllocatesFresh input.allocated input.commands)
  (distinct : ∀ c ∈ input.commands, ∀ a b, c.shape = .pair a b → a ≠ b)
include room fresh distinct

/-- The segments of a plan are disjoint runs of qubits that get a position. -/
lemma sound_segments : (router.segments input).Sound router.numQubits := by
  cases router with
  | chain c => exact Segments.sound_build room fresh distinct
  | grid r => exact Segments.sound_build room fresh distinct

/-- The qubits that a plan places are those in use and, as far as positions are left, those allocated next. -/
lemma mem_segments : q ∈ (router.segments input).allocated ↔ q ∈ input.allocated ∨
    q ∈ (Stream.allocations input.commands).take (router.numQubits - input.allocated.size) := by
  cases router with
  | chain c => exact Segments.mem_build_allocated room fresh distinct
  | grid r => exact Segments.mem_build_allocated room fresh distinct

/-- The plan places the allocated qubits, and as many of those to be allocated as there is room for. -/
lemma Regular.next_iff (regular : router.Regular) :
    (∃ p, (router.next input).position? q = some p) ↔ q ∈ input.allocated ∨
      q ∈ (Stream.allocations input.commands).take (router.numQubits - input.allocated.size) := by
  obtain ⟨current, f, position, _⟩ := regular.exists_positions input
  have sound := sound_segments room fresh distinct
  have placed : (∃ p, (router.next input).position? q = some p) ↔
      ∃ p, ((router.segments input).place router.numQubits current).position? q = some p := by
    simp [position]
  rw [placed, sound.packable.place_iff current, mem_segments room fresh distinct]

/-- Qubits side by side in a run become neighbours. -/
lemma Regular.next_consecutive (regular : router.Regular) {a b : QubitId}
    (consecutive : Segments.Consecutive (router.segments input).runs a b) :
    ∃ pa pb, (router.next input).position? a = some pa ∧ (router.next input).position? b = some pb ∧
      router.adjacent pa pb = .ok true := by
  obtain ⟨current, f, position, steps⟩ := regular.exists_positions input
  have sound := sound_segments room fresh distinct
  obtain ⟨p, ⟨hereA, hereB⟩ | ⟨hereB, hereA⟩⟩ := sound.packable.place_consecutive current consecutive
  · refine ⟨f p, f (p + 1), ?_, ?_, steps p⟩
    · rw [position, hereA, Option.map_some]
    · rw [position, hereB, Option.map_some]
  · refine ⟨f (p + 1), f p, ?_, ?_, adjacent_comm.trans (steps p)⟩
    · rw [position, hereA, Option.map_some]
    · rw [position, hereB, Option.map_some]

/-- The two qubits of the oldest command become neighbours. -/
lemma Regular.next_adjacent (regular : router.Regular) {c : Buffered} {rest : List Buffered} {a b : QubitId}
    (first : input.commands = c :: rest) (shape : c.shape = .pair a b) (memA : a ∈ input.allocated)
    (memB : b ∈ input.allocated) :
    ∃ pa pb, (router.next input).position? a = some pa ∧ (router.next input).position? b = some pb ∧
      router.adjacent pa pb = .ok true := by
  apply regular.next_consecutive room fresh distinct
  cases router with
  | chain c =>
    rw [segments, first]
    exact Segments.consecutive_build_head shape memA memB
  | grid r =>
    rw [segments, first]
    exact Segments.consecutive_build_head shape memA memB

end Sound

end Router

end QubitRouting
