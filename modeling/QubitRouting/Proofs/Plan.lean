import QubitRouting.Proofs.Command
import QubitRouting.Proofs.Neighbours
import QubitRouting.Proofs.Router

/-!
# What a plan promises

A router asked for a plan gives one: it finds a position for exactly the qubits that need one, its swaps
join neighbouring positions and lead from the present layout to the new one, and qubits recorded as
neighbours get neighbouring positions. On a ring that includes the two ends of a run through all
positions, which sit at its two ends.
-/

namespace QubitRouting

namespace Router

/-- Whether the positions close into a ring. -/
def cyclic : Router → Bool
  | chain c => c.cyclic
  | grid _ => false

/-- The pass over the waiting commands that a plan starts with. -/
def builder (router : Router) (input : PlanInput) : Segments.Builder :=
  (Segments.Builder.start router.numQubits router.cyclic input.allocated).run input.commands

/-- There is a hardware qubit for every cell of a grid, and 32-bit words number them. -/
def Sized : Router → Prop
  | chain _ => True
  | grid r => r.hardware.size = r.grid.rows * r.grid.columns ∧ r.grid.rows * r.grid.columns < 2 ^ 32

variable {router : Router} {input : PlanInput} {x y : QubitId}

/-- The segments of a plan are the runs and the qubits that the pass over the commands ends with. -/
lemma segments_eq (router : Router) (input : PlanInput) :
    router.segments input = ⟨(router.builder input).runs, (router.builder input).allocated⟩ := by
  cases router with
  | chain c => rfl
  | grid r => rfl

/-- A sized router has a position for every cell, or there are no cells. -/
lemma Sized.regular_or (sized : router.Sized) : router.Regular ∨
    ∃ r, router = grid r ∧ r.numQubits = 0 ∧ r.grid.rows * r.grid.columns = 0 := by
  cases router with
  | chain c => exact .inl trivial
  | grid r =>
    obtain ⟨size, small⟩ := sized
    rcases Nat.eq_zero_or_pos (r.grid.rows * r.grid.columns) with noCells | positive
    · exact .inr ⟨r, rfl, size.trans noCells, noCells⟩
    · have rows_pos := Nat.pos_of_mul_pos_right positive
      have columns_pos := Nat.pos_of_mul_pos_left positive
      exact .inl ⟨⟨rows_pos, columns_pos, small⟩, size⟩

section Sound

variable (room : input.allocated.size ≤ router.numQubits)
  (fresh : Segments.AllocatesFresh input.allocated input.commands)
  (distinct : ∀ c ∈ input.commands, ∀ a b, c.shape = .pair a b → a ≠ b)
include room fresh distinct

/-- The pass over the waiting commands is sound. -/
lemma sound_builder : (router.builder input).Sound :=
  ((Segments.Builder.sound_start router.cyclic room).run_commands fresh distinct).1

/-- The pass over the waiting commands records the neighbours that its runs call for. -/
lemma exact_builder : (router.builder input).Exact :=
  (Segments.Builder.exact_start router.numQubits router.cyclic input.allocated).run_commands
    (Segments.Builder.sound_start router.cyclic room) fresh distinct

/-- The two ends of a run through all positions of a ring sit at the two ends of the ring. -/
lemma next_wraps (wraps : (router.builder input).Wraps x y) :
    ∃ px py, (router.next input).position? x = some px ∧ (router.next input).position? y = some py ∧
      router.adjacent px py = .ok true := by
  obtain ⟨closed, run, mem, full, ends⟩ := wraps
  have sound := sound_segments room fresh distinct
  have long := (sound_builder room fresh distinct).long run mem
  rw [builder, Segments.Builder.run_cyclic] at closed
  rw [builder, Segments.run_numQubits] at full
  cases router with
  | grid r => cases closed
  | chain c =>
    change run.length = c.numQubits at full
    have apart : c.adjacent 0 (c.numQubits - 1) = true := by
      have isRing : c.cyclic = true := closed
      have large : 1 < c.numQubits := by omega
      simp [Chain.adjacent, isRing, large]
    rcases ends with ⟨first, last⟩ | ⟨first, last⟩
    · obtain ⟨hereX, hereY⟩ := sound.packable.place_full input.current mem full first last
      exact ⟨_, _, hereX, hereY, congrArg Except.ok apart⟩
    · obtain ⟨hereY, hereX⟩ := sound.packable.place_full input.current mem full first last
      exact ⟨_, _, hereX, hereY, congrArg Except.ok (Chain.adjacent_comm.trans apart)⟩

/-- Qubits recorded as neighbours get neighbouring positions. -/
lemma Regular.next_linked (regular : router.Regular)
    (linked : y ∈ (router.builder input).neighboursOf x) :
    ∃ px py, (router.next input).position? x = some px ∧ (router.next input).position? y = some py ∧
      router.adjacent px py = .ok true := by
  rcases (exact_builder room fresh distinct x y).mp linked with consecutive | wraps
  · apply regular.next_consecutive room fresh distinct
    rw [segments_eq]
    exact consecutive
  · exact next_wraps room fresh distinct wraps

end Sound

end Router

/-- Where there are no cells there is a plan too. -/
lemma GridRouter.plan_of_noCells {router : GridRouter} {input : PlanInput} (size : router.numQubits = 0)
    (noCells : router.grid.rows * router.grid.columns = 0) (fits : input.current.Fits 0) :
    ∃ plan, (router.plan input).1 = .ok plan ∧ plan.layout.Fits 0 ∧ plan.swaps = [] := by
  obtain ⟨current, unrolled⟩ : ∃ current, input.current.mapPositionsM router.grid.toSnake = .ok current :=
    ⟨_, Layout.mapPositionsM_eq (g := id) fun placed => absurd (fits.lt placed) (Nat.not_lt_zero _)⟩
  generalize segments : Segments.build 0 false input.allocated input.commands = built
  have placedFits := Segments.fits_place built 0 current
  obtain ⟨layout, rolled, fits'⟩ : ∃ layout : Layout Nat,
      (built.place 0 current).mapPositionsM router.grid.ofSnake = .ok layout ∧ layout.Fits 0 := by
    refine ⟨_, Layout.mapPositionsM_eq (g := id) ?_, placedFits.mapPositions fun p lt => lt⟩
    exact fun placed => absurd (placedFits.lt placed) (Nat.not_lt_zero _)
  refine ⟨⟨layout, []⟩, ?_, fits', rfl⟩
  simp only [GridRouter.plan, size, unrolled, segments, rolled, Grid.optimalSwaps_of_noCells noCells, bind,
    Except.bind, Except.map]

/-- A plan keeps its promises. -/
structure Plan.Fulfils (plan : Plan) (router : Router) (input : PlanInput) : Prop where
  /-- The qubits with a position are those the pass over the commands calls for. -/
  domain : ∀ q, (∃ p, plan.layout.position? q = some p) ↔ q ∈ (router.segments input).allocated
  /-- They include all qubits allocated already. -/
  keeps : ∀ q ∈ input.allocated, q ∈ (router.segments input).allocated
  /-- All positions are on the device, and no two qubits share one. -/
  fits : plan.layout.Fits router.numQubits
  /-- Every swap joins two neighbouring positions of the device. -/
  neighbouring : router.Neighbouring plan.swaps
  /-- The swaps take every qubit of both layouts to its new position. -/
  carried : ∀ {q p t}, input.current.position? q = some p → plan.layout.position? q = some t →
    (input.current.applySwaps plan.swaps).position? q = some t
  /-- Qubits recorded as neighbours are neighbours. -/
  linked : ∀ {x y}, y ∈ (router.builder input).neighboursOf x → ∃ px py,
    plan.layout.position? x = some px ∧ plan.layout.position? y = some py ∧
      router.adjacent px py = .ok true

section Promises

variable {router : Router} {input : PlanInput} (room : input.allocated.size ≤ router.numQubits)
  (fresh : Segments.AllocatesFresh input.allocated input.commands)
  (distinct : ∀ c ∈ input.commands, ∀ a b, c.shape = .pair a b → a ≠ b)
include room fresh distinct

/-- A plan with swaps of neighbours that carry all qubits to the next layout keeps its promises. -/
lemma Router.Regular.fulfils (regular : router.Regular) (fits : input.current.Fits router.numQubits)
    {swaps : List Swap} (carries : Move.Carries swaps input.current (router.next input))
    (neighbouring : router.Neighbouring swaps) :
    Plan.Fulfils ⟨router.next input, swaps⟩ router input := by
  refine ⟨?_, ?_, regular.fits_next input, neighbouring, ?_, ?_⟩
  · intro q
    rw [regular.next_iff room fresh distinct, Router.mem_segments room fresh distinct]
  · intro q mem
    exact (Router.mem_segments room fresh distinct).mpr (.inl mem)
  · intro q p t old new
    rw [Layout.position?_applySwaps fits.consistent, old, Option.map_some, carries old new]
  · exact regular.next_linked room fresh distinct

/-- Without positions no qubit has one and none needs one. -/
lemma Plan.fulfils_of_noPositions (none_left : router.numQubits = 0) {plan : Plan}
    (nowhere : plan.layout.Fits 0) (unmoved : plan.swaps = []) : plan.Fulfils router input := by
  have sound := Router.sound_segments room fresh distinct
  have nobody : ∀ q, q ∉ (router.segments input).allocated := by
    intro q mem
    have positive : 0 < (router.segments input).allocated.size := List.length_pos_of_mem mem
    exact absurd (sound.room.trans_eq none_left) (Nat.not_le_of_lt positive)
  have unplaced : ∀ q p, plan.layout.position? q ≠ some p :=
    fun q p placed => Nat.not_lt_zero p (nowhere.lt placed)
  refine ⟨?_, ?_, none_left ▸ nowhere, ?_, ?_, ?_⟩
  · intro q
    refine iff_of_false ?_ (nobody q)
    exact fun ⟨p, placed⟩ => unplaced q p placed
  · intro q mem
    exact (Router.mem_segments room fresh distinct).mpr (.inl mem)
  · rw [unmoved]
    intro swap mem
    cases mem
  · intro q p t _ new
    exact absurd new (unplaced q t)
  · intro x y linked
    rw [Router.segments_eq] at nobody sound
    rcases (Router.exact_builder room fresh distinct x y).mp linked with consecutive | wraps
    · exact absurd (sound.placed x consecutive.mem) (nobody x)
    · exact absurd (sound.placed x wraps.mem) (nobody x)

end Promises

/-- A router always finds a plan, and the plan keeps its promises. -/
theorem Router.exists_plan {router : Router} (sized : router.Sized) {input : PlanInput}
    (fits : input.current.Fits router.numQubits) (room : input.allocated.size ≤ router.numQubits)
    (classified : ∀ b ∈ input.commands, b.Classified)
    (fresh : Segments.AllocatesFresh input.allocated input.commands) :
    ∃ plan, (router.plan input).1 = .ok plan ∧ plan.Fulfils router input := by
  have distinct : ∀ c ∈ input.commands, ∀ a b, c.shape = .pair a b → a ≠ b :=
    fun c mem _ _ shape => (classified c mem).distinct shape
  rcases sized.regular_or with regular | ⟨r, rfl, size, noCells⟩
  · obtain ⟨swaps, planned, carries, neighbouring⟩ := regular.plan_eq fits
    exact ⟨_, planned, regular.fulfils room fresh distinct fits carries neighbouring⟩
  · have none_left : (Router.grid r).numQubits = 0 := size
    rw [none_left] at fits
    obtain ⟨plan, planned, nowhere, unmoved⟩ := GridRouter.plan_of_noCells size noCells fits
    exact ⟨plan, planned, Plan.fulfils_of_noPositions room fresh distinct none_left nowhere unmoved⟩

/-- Three qubits on a ring of three positions: the run through all of them is closed by recording its
ends as neighbours. -/
theorem Router.exists_plan_on_ring :
    let input : PlanInput := {
      allocated := OrderedSet.ofList [⟨4⟩, ⟨9⟩]
      commands := [⟨.gate .cx [⟨4⟩, ⟨9⟩], .pair ⟨4⟩ ⟨9⟩⟩, ⟨.allocate ⟨7⟩, .allocate ⟨7⟩⟩,
        ⟨.gate .cx [⟨9⟩, ⟨7⟩], .pair ⟨9⟩ ⟨7⟩⟩]
      current := .ofPairs [(⟨9⟩, 0), (⟨4⟩, 2)] }
    (((Router.chain ⟨3, true⟩).builder input).neighboursOf ⟨4⟩).contains ⟨7⟩ = true ∧
      ∃ plan, ((Router.chain ⟨3, true⟩).plan input).1 = .ok plan ∧
        plan.Fulfils (.chain ⟨3, true⟩) input := by
  intro input
  have ring : (Router.chain ⟨3, true⟩).Sized := trivial
  refine ⟨by decide, Router.exists_plan ring ?_ (by decide) ?_ ⟨by decide, ?_⟩⟩
  · exact Layout.fits_ofPairs (by decide)
  · exact List.forall_mem_cons.mpr ⟨rfl, List.forall_mem_cons.mpr ⟨rfl, List.forall_mem_singleton.mpr rfl⟩⟩
  · refine List.forall_mem_singleton.mpr ?_
    exact OrderedSet.contains_eq_false_iff.mp (by decide)

end QubitRouting
