import QubitRouting.Proofs.Session
import QubitRouting.Proofs.Straight

/-!
# Grids of one line are chains

A grid of one row or one column has the neighbours of a chain, its snake is the identity, and its swaps
are those of the chain, whatever orders of the matchings the search tries. A mapper on such a grid answers
every call as a mapper on the chain does: each function of the mapper carries mappers that only differ in
their routers to answers that only differ in their routers.
-/

namespace QubitRouting

namespace Grid

variable {n p a b : Nat}

/-- A grid whose positions stand in one line. -/
def OneLine (n : Nat) (grid : Grid) : Prop := grid = ⟨1, n⟩ ∨ grid = ⟨n, 1⟩

/-- A grid of one line has as many cells as the line has positions. -/
lemma OneLine.size {grid : Grid} (line : grid.OneLine n) : grid.rows * grid.columns = n := by
  rcases line with rfl | rfl
  · exact Nat.one_mul n
  · exact Nat.mul_one n

/-- The snake of a grid of one line runs along the line. -/
lemma OneLine.snake_eq {grid : Grid} (line : grid.OneLine n) (lt : p < n) : grid.snake p = p := by
  rw [snake]
  rcases line with rfl | rfl
  · rw [if_pos]
    rw [Nat.div_eq_of_lt lt]
  · simp [Nat.mod_one]

/-- Neighbours on a grid of one line are those on the chain. -/
lemma OneLine.adjacent_eq {grid : Grid} (line : grid.OneLine n) (ltA : a < n) (ltB : b < n) :
    grid.adjacent a b = .ok (Chain.adjacent ⟨n, false⟩ a b) := by
  simp only [adjacent, Chain.adjacent, Bool.false_and, Bool.or_false]
  rcases line with rfl | rfl
  · have high : max a b < n := max_lt ltA ltB
    have near : max a b - min a b ≠ n := by omega
    rw [if_neg near]
    by_cases next : max a b - min a b = 1
    · -- the higher position is not the first one
      have inner : max a b % n ≠ 0 := by
        rw [Nat.mod_eq_of_lt high]
        omega
      have positive : n ≠ 0 := Nat.ne_of_gt (Nat.zero_lt_of_lt ltA)
      rw [if_pos next, if_neg positive, next]
      simp [inner]
    · rw [if_neg next]
      simp [next]
  · by_cases next : max a b - min a b = 1
    · rw [if_pos next, next]
      rfl
    · rw [if_neg next, if_neg next]
      simp [next]

/-- The search on a grid of one line finds the swaps of the chain. -/
lemma OneLine.optimalSwaps_eq {grid : Grid} (line : grid.OneLine n) (positive : 0 < n) (small : n < 2 ^ 32)
    {old new : Layout Nat} (oldFits : old.Fits n) (newFits : new.Fits n) (cost : Cost) (steps : Nat)
    (stream : Random.Stream) :
    (grid.optimalSwaps old new cost steps stream).1 = .ok (Move.chainSwaps n old new) := by
  rcases line with rfl | rfl
  · exact optimalSwaps_of_row positive small oldFits newFits cost steps stream
  · exact optimalSwaps_of_column positive small oldFits newFits cost steps stream

end Grid

namespace Router

variable {n p a b : Nat} {router : Router} {input : PlanInput}

/-- An open chain, or a grid of one line whose hardware qubits are numbered like its positions. -/
def OneLine (n : Nat) : Router → Prop
  | chain c => c = ⟨n, false⟩
  | grid r => r.grid.OneLine n ∧ r.hardware = ((List.range n).map QubitId.ofNat).toArray

structure Line (n : Nat) (router : Router) : Prop where
  valid : router.Valid
  shape : router.OneLine n

/-- An open chain is a line. -/
lemma line_chain (positive : 0 < n) (small : n < 2 ^ 32) : Line n (chain ⟨n, false⟩) :=
  ⟨⟨positive, small⟩, rfl⟩

/-- The router made for a grid of one line is a line. -/
lemma line_ofGrid {grid : Grid} (line : grid.OneLine n) (positive : 0 < n) (small : n < 2 ^ 32)
    (cost : Grid.Cost) (steps : Nat) (seed : UInt64) :
    ∃ r, GridRouter.ofGrid grid cost steps seed = .ok r ∧ Line n (Router.grid r) := by
  have size := line.size
  have valid : grid.Valid := by
    refine ⟨?_, ?_, size ▸ small⟩
    · rcases line with rfl | rfl
      · exact Nat.one_pos
      · exact positive
    · rcases line with rfl | rfl
      · exact positive
      · exact Nat.one_pos
  have built := valid.numQubits_eq
  rw [size] at built
  refine ⟨_, Checked.bind_eq_ok.mpr ⟨n, built, rfl⟩, ?_, line, rfl⟩
  exact GridRouter.valid_ofGrid valid (Checked.bind_eq_ok.mpr ⟨n, built, rfl⟩)

namespace Line

variable (line : router.Line n)
include line

/-- A line has the given number of positions. -/
lemma numQubits_eq : router.numQubits = n := by
  obtain ⟨_, shape⟩ := line
  cases router with
  | chain c =>
    cases shape
    rfl
  | grid r =>
    show r.hardware.size = n
    simp [shape.2]

/-- A line has a position, and its positions fit a word. -/
lemma bounds : 0 < n ∧ n < 2 ^ 32 := by
  obtain ⟨valid, shape⟩ := line
  cases router with
  | chain c =>
    cases shape
    exact valid
  | grid r =>
    have size := shape.1.size
    have := valid.1.small
    have := Nat.mul_pos valid.1.rows_pos valid.1.columns_pos
    omega

/-- The hardware qubits of a line are numbered like its positions. -/
lemma hardwareQubit_eq : router.hardwareQubit = QubitId.ofNat := by
  obtain ⟨_, shape⟩ := line
  funext p
  cases router with
  | chain c => rfl
  | grid r =>
    show r.hardware[p]?.getD (QubitId.ofNat p) = QubitId.ofNat p
    rw [shape.2, List.getElem?_toArray, List.getElem?_map]
    cases here : (List.range n)[p]? with
    | none => rfl
    | some i =>
      obtain ⟨lt, rfl⟩ := List.getElem?_eq_some_iff.mp here
      rw [List.getElem_range]
      rfl

/-- Neighbours on a line are those on the chain. -/
lemma adjacent_eq (ltA : a < n) (ltB : b < n) : router.adjacent a b = (chain ⟨n, false⟩).adjacent a b := by
  obtain ⟨_, shape⟩ := line
  cases router with
  | chain c =>
    cases shape
    rfl
  | grid r => exact shape.1.adjacent_eq ltA ltB

/-- A hardware qubit of a line is found where it is on the chain. -/
lemma position?_eq : router.position? = (chain ⟨n, false⟩).position? := by
  have other := line_chain line.bounds.1 line.bounds.2
  funext q
  apply Option.ext
  intro p
  rw [line.valid.position?_eq_some, other.valid.position?_eq_some, line.numQubits_eq, other.numQubits_eq,
    line.hardwareQubit_eq, other.hardwareQubit_eq]

/-- On a grid of one line, the next layout is that of the chain. -/
lemma next_eq (fits : input.current.Fits n) : router.next input = (chain ⟨n, false⟩).next input := by
  have size := line.numQubits_eq
  obtain ⟨_, shape⟩ := line
  cases router with
  | chain c =>
    cases shape
    rfl
  | grid r =>
    obtain ⟨line, _⟩ := shape
    have size : r.numQubits = n := size
    have still {layout : Layout Nat} (fits : layout.Fits n) : layout.mapPositions r.grid.snake = layout :=
      Layout.mapPositions_eq_self fits.consistent fun placed => line.snake_eq (fits.lt placed)
    show (((grid r).segments input).place r.numQubits (input.current.mapPositions r.grid.snake)).mapPositions
      r.grid.snake = _
    rw [segments, size, still fits, still (Segments.fits_place _ _ _)]
    rfl

/-- A line plans as the chain does. -/
lemma plan_eq (fits : input.current.Fits n) :
    (router.plan input).1 = ((chain ⟨n, false⟩).plan input).1 := by
  have next_eq := line.next_eq fits
  have size := line.numQubits_eq
  have bounds := line.bounds
  obtain ⟨valid, shape⟩ := line
  cases router with
  | chain c =>
    cases shape
    rfl
  | grid r =>
    have size : r.numQubits = n := size
    have fitsNext : ((grid r).next input).Fits n := size ▸ valid.regular.fits_next input
    rw [valid.regular.plan_grid (size ▸ fits),
      shape.1.optimalSwaps_eq bounds.1 bounds.2 fits fitsNext, next_eq]
    rfl

/-- Planning does not change the shape of the device. -/
lemma plan (input : PlanInput) : (router.plan input).2.Line n := by
  refine ⟨(router.sameDevice_plan input).valid line.valid, ?_⟩
  obtain ⟨_, shape⟩ := line
  cases router with
  | chain c => exact shape
  | grid r =>
    obtain ⟨stream, after⟩ := plan_grid_snd r input
    rw [after]
    exact shape

end Line

end Router

/-! ### The same answers -/

namespace Dispatch

variable {n : Nat} {router : Router} (line : router.Line n)
include line

/-- What can run on a line can run on the chain. -/
lemma executable_of_line {state : State} (fits : state.layout.Fits n) (shape : Shape) :
    executable router state shape = executable (.chain ⟨n, false⟩) state shape := by
  cases shape with
  | allocate q => rfl
  | deallocate q => rfl
  | single q => rfl
  | pair x y =>
    cases placedX : state.layout.position? x with
    | none => simp only [executable, placedX]
    | some px =>
      cases placedY : state.layout.position? y with
      | none => simp only [executable, placedX, placedY]
      | some py =>
        have adjacent := line.adjacent_eq (fits.lt placedX) (fits.lt placedY)
        simp only [executable, placedX, placedY, adjacent]

/-- Dispatch forwards or keeps a command on a line as on the chain. -/
lemma step_of_line {state : State} (fits : state.layout.Fits n) (b : Buffered) :
    step router state b = step (.chain ⟨n, false⟩) state b := by
  have hardware : router.hardwareQubit = (Router.chain ⟨n, false⟩).hardwareQubit := line.hardwareQubit_eq
  simp only [step, onHardware, hardware, executable_of_line line fits]

/-- A pass over the buffer goes as on the chain. -/
lemma handle_of_line {state : State} (fits : state.layout.Fits n) (buffer : List Buffered) :
    handle router state buffer = handle (.chain ⟨n, false⟩) state buffer := by
  induction buffer generalizing state with
  | nil => rfl
  | cons b rest ih =>
    obtain ⟨next, forwarded, run, step⟩ := step_eq line.valid state b
    have run' := step_of_line line fits b
    rw [run] at run'
    rw [handle, handle, run, ← run']
    split
    · rfl
    · show (handle router next rest >>= _) = _
      rw [ih (step.fits fits)]
      rfl

end Dispatch

/-- The same mapper on the open chain. -/
def Mapper.onChain (n : Nat) (mapper : Mapper) : Mapper := { mapper with router := .chain ⟨n, false⟩ }

/-- The same outcome on the open chain. -/
def Outcome.onChain (n : Nat) (outcome : Outcome) : Outcome :=
  { outcome with mapper := outcome.mapper.onChain n }

namespace Mapper

variable {n : Nat} {mapper : Mapper} {layout current : Layout Nat}

/-- The same mapper on the chain has the same buffer. -/
@[simp]
lemma onChain_buffer (n : Nat) (mapper : Mapper) : (mapper.onChain n).buffer = mapper.buffer := rfl

/-- The same mapper on the chain has the same layout. -/
@[simp]
lemma onChain_layout (n : Nat) (mapper : Mapper) : (mapper.onChain n).layout = mapper.layout := rfl

structure InLine (n : Nat) (mapper : Mapper) : Prop where
  line : mapper.router.Line n
  fits : ∀ {layout}, mapper.layout = some layout → layout.Fits n

/-- A function that does on the chain what it does on any line. -/
def Unrolls (n : Nat) (call : Mapper → Outcome) : Prop :=
  ∀ mapper : Mapper, mapper.InLine n →
    (call mapper).mapper.InLine n ∧ call (mapper.onChain n) = (call mapper).onChain n

/-- What does the same on the chain in both parts does so as a whole. -/
lemma Unrolls.andThen {first next : Mapper → Outcome} (unrolls : Unrolls n first) (more : Unrolls n next) :
    Unrolls n fun mapper => (first mapper).andThen next := by
  intro mapper inLine
  obtain ⟨inLine, same⟩ := unrolls mapper inLine
  obtain ⟨inLine', same'⟩ := more (first mapper).mapper inLine
  dsimp only
  rw [same]
  cases ends : (first mapper).failure with
  | some failure =>
    have ends' : ((first mapper).onChain n).failure = some failure := ends
    rw [Outcome.andThen_of_failed ends, Outcome.andThen_of_failed ends']
    exact ⟨inLine, rfl⟩
  | none =>
    have ends' : ((first mapper).onChain n).failure = none := ends
    have same' : next ((first mapper).onChain n).mapper = (next (first mapper).mapper).onChain n := same'
    rw [Outcome.andThen_of_ok ends, Outcome.andThen_of_ok ends', same']
    exact ⟨inLine', rfl⟩

/-- Doing nothing is the same on the chain. -/
lemma unrolls_rest : Unrolls n fun mapper => { mapper } := fun _ inLine => ⟨inLine, rfl⟩

/-- Dispatch does the same on the chain. -/
lemma unrolls_dispatch (fits : layout.Fits n) : Unrolls n (dispatch layout) := by
  intro mapper inLine
  obtain ⟨state, handled, run, pass⟩ :=
    Dispatch.handle_eq inLine.line.valid (Dispatch.start layout mapper.allocated) mapper.buffer
  have run' := Dispatch.handle_of_line inLine.line
    (show (Dispatch.start layout mapper.allocated).layout.Fits n from fits) mapper.buffer
  rw [run] at run'
  have same : (mapper.onChain n).dispatch layout = (mapper.dispatch layout).onChain n := by
    simp only [dispatch, onChain, Outcome.onChain, run, ← run']
  refine ⟨?_, same⟩
  simp only [dispatch, run]
  refine ⟨inLine.line, ?_⟩
  rintro _ ⟨⟩
  exact pass.fits fits

/-- The commands that carry swaps out are the same on the chain. -/
lemma InLine.swapCommands_eq (inLine : mapper.InLine n) (current : Layout Nat) (plan : Plan) :
    (mapper.onChain n).swapCommands current plan = mapper.swapCommands current plan := by
  have hardware : (mapper.onChain n).router.hardwareQubit = mapper.router.hardwareQubit :=
    inLine.line.hardwareQubit_eq.symm
  have idle_eq (layout : Layout Nat) : (mapper.onChain n).idle layout = mapper.idle layout := by
    unfold idle
    rw [inLine.line.numQubits_eq]
    rfl
  simp only [swapCommands, idle_eq, hardware]

/-- Sending swaps does the same on the chain. -/
lemma unrolls_emitSwaps (current : Layout Nat) (plan : Plan) : Unrolls n (emitSwaps current plan) := by
  intro mapper inLine
  rw [emitSwaps, emitSwaps, inLine.swapCommands_eq]
  split
  · exact ⟨inLine, rfl⟩
  · exact ⟨⟨inLine.line, inLine.fits⟩, rfl⟩

/-- The check for progress does the same on the chain. -/
lemma unrolls_checkProgress (before : Nat) : Unrolls n (checkProgress before) := by
  intro mapper inLine
  rw [checkProgress, checkProgress, onChain_buffer]
  split
  · exact ⟨inLine, rfl⟩
  · exact ⟨inLine, rfl⟩

/-- A change of layout does the same on the chain. -/
lemma unrolls_remap (before : Nat) (fits : current.Fits n) : Unrolls n (remap before current) := by
  intro mapper inLine
  let input : PlanInput := ⟨mapper.allocated, mapper.buffer, current⟩
  have line := inLine.line.plan input
  have planned : (mapper.router.plan input).1 = .ok (Chain.plan ⟨n, false⟩ input) :=
    inLine.line.plan_eq fits
  have execution : Unrolls n (execute before current (Chain.plan ⟨n, false⟩ input)) :=
    ((unrolls_emitSwaps _ _).andThen (unrolls_dispatch (Segments.fits_place _ _ _))).andThen
      (unrolls_checkProgress before)
  rw [remap_of_plan before planned]
  exact execution _ ⟨line, inLine.fits⟩

/-- The present layout stays on the line. -/
lemma InLine.fits_current (inLine : mapper.InLine n) : (mapper.layout.getD ∅).Fits n := by
  cases here : mapper.layout with
  | none => exact Layout.fits_empty n
  | some layout => exact inLine.fits here

/-- A round does the same on the chain. -/
lemma unrolls_round : Unrolls n round := by
  intro mapper inLine
  rw [round, round, onChain_buffer, onChain_layout]
  cases here : mapper.layout with
  | none => exact unrolls_remap _ (Layout.fits_empty n) mapper inLine
  | some layout =>
    have rest : Unrolls n fun after => if after.buffer.isEmpty then { mapper := after }
        else after.remap mapper.buffer.length (after.layout.getD ∅) := by
      intro after inLine
      dsimp only
      rw [onChain_buffer, onChain_layout]
      split
      · exact unrolls_rest after inLine
      · exact unrolls_remap _ inLine.fits_current after inLine
    exact (unrolls_dispatch (inLine.fits here)).andThen rest mapper inLine

/-- Draining the buffer does the same on the chain. -/
lemma unrolls_drain (rounds : Nat) : Unrolls n (drain rounds) := by
  induction rounds with
  | zero => exact unrolls_rest
  | succ rounds ih =>
    intro mapper inLine
    rw [drain, drain, onChain_buffer]
    split
    · exact unrolls_rest mapper inLine
    · exact unrolls_round.andThen ih mapper inLine

/-- Accepting a command does the same on the chain. -/
lemma unrolls_accept (command : Command) : Unrolls n (accept command) := by
  intro mapper inLine
  rw [accept, accept, onChain_buffer]
  split
  · have flush : Unrolls n fun after => { mapper := after, log := [.flushed command] } :=
      fun _ inLine => ⟨inLine, rfl⟩
    exact (unrolls_drain _).andThen flush mapper inLine
  · cases Buffered.classify command with
    | error error => exact ⟨inLine, rfl⟩
    | ok buffered => exact ⟨⟨inLine.line, inLine.fits⟩, rfl⟩

/-- Taking a batch in does the same on the chain. -/
lemma unrolls_receive (commands : List Command) : Unrolls n (receive commands) := by
  induction commands with
  | nil =>
    intro mapper inLine
    show mapper.roundIfFull.mapper.InLine n ∧ (mapper.onChain n).roundIfFull = mapper.roundIfFull.onChain n
    rw [roundIfFull, roundIfFull, onChain_buffer]
    show _ ∧ (if !mapper.buffer.isEmpty && mapper.storage ≤ mapper.buffer.length then _ else _) = _
    split
    · exact unrolls_round mapper inLine
    · exact unrolls_rest mapper inLine
  | cons command rest ih => exact (unrolls_accept command).andThen ih

/-- Installing a layout does the same on the chain. -/
lemma InLine.setLayout_eq (inLine : mapper.InLine n) (layout : Layout QubitId) :
    (mapper.onChain n).setLayout layout = onChain n <$> mapper.setLayout layout := by
  have positions : (mapper.onChain n).router.position? = mapper.router.position? :=
    inLine.line.position?_eq.symm
  rw [setLayout, setLayout, positions, map_bind]
  rfl

/-- A call is answered on the chain as on the line, which stays a line. -/
lemma InLine.call (inLine : mapper.InLine n) (call : Call) :
    (mapper.call call).mapper.InLine n ∧ (mapper.onChain n).call call = (mapper.call call).onChain n := by
  cases call with
  | receive commands => exact unrolls_receive commands mapper inLine
  | install layout =>
    rw [Mapper.call, Mapper.call, inLine.setLayout_eq]
    cases installed : mapper.setLayout layout with
    | error error => exact ⟨inLine, rfl⟩
    | ok after =>
      obtain ⟨positions, rfl⟩ := eq_of_setLayout installed
      refine ⟨⟨inLine.line, ?_⟩, rfl⟩
      rintro _ ⟨⟩
      exact inLine.line.numQubits_eq ▸ fits_of_setLayout inLine.line.valid installed

/-- After any calls, the mapper on the chain is the mapper in line, carried to the chain. -/
lemma InLine.session (inLine : mapper.InLine n) (calls : List Call) :
    (mapper.session calls).mapper.InLine n ∧
      ((mapper.onChain n).session calls).mapper = (mapper.session calls).mapper.onChain n := by
  induction calls using List.reverseRecOn with
  | nil => exact ⟨inLine, rfl⟩
  | append_singleton calls call ih =>
    obtain ⟨inLine, same⟩ := ih
    obtain ⟨inLine', same'⟩ := inLine.call call
    rw [session_concat, session_concat]
    refine ⟨inLine', ?_⟩
    show (((mapper.onChain n).session calls).mapper.call call).mapper = _
    rw [same, same']
    rfl

end Mapper

/-- Outcomes that look the same from outside: what was sent, how the call ended, the layout and the
statistics. -/
structure Outcome.Matches (outcome other : Outcome) : Prop where
  sent_eq : outcome.sent = other.sent
  failure_eq : outcome.failure = other.failure
  layout_eq : outcome.mapper.hardwareLayout? = other.mapper.hardwareLayout?
  statistics_eq : outcome.mapper.statistics = other.mapper.statistics

/-- After the same calls, the mappers on the line and on the chain look the same from outside. -/
lemma Mapper.InLine.matches {n : Nat} {mapper : Mapper} (inLine : mapper.InLine n) (calls : List Call)
    (call : Call) :
    ((mapper.session calls).mapper.call call).Matches
      (((mapper.onChain n).session calls).mapper.call call) := by
  obtain ⟨inLine, same⟩ := inLine.session calls
  obtain ⟨inLine', same'⟩ := inLine.call call
  rw [same, same']
  refine ⟨rfl, rfl, ?_, rfl⟩
  unfold hardwareLayout?
  rw [inLine'.line.hardwareQubit_eq]
  rfl

/-- A mapper on a grid of one row and a mapper on a grid of one column answer all calls as a mapper on the
open chain does, for any storage, cost, number of steps and seed. -/
theorem session_on_one_line {n : UInt32} (positive : 0 < n) (storage : Nat) (cost : Grid.Cost)
    (steps : Nat) (seed : UInt64) :
    ∃ row column : GridRouter,
      GridRouter.ofGrid ⟨1, n.toNat⟩ cost steps seed = .ok row ∧
      GridRouter.ofGrid ⟨n.toNat, 1⟩ cost steps seed = .ok column ∧
      ∀ (calls : List Call) (call : Call),
        ((Mapper.session { router := .grid row, storage } calls).mapper.call call).Matches
          ((Mapper.session { router := .chain ⟨n.toNat, false⟩, storage } calls).mapper.call call) ∧
        ((Mapper.session { router := .grid column, storage } calls).mapper.call call).Matches
          ((Mapper.session { router := .chain ⟨n.toNat, false⟩, storage } calls).mapper.call call) := by
  have positive : 0 < n.toNat := UInt32.lt_iff_toNat_lt.mp positive
  have small : n.toNat < 2 ^ 32 := n.toNat_lt
  obtain ⟨row, builtRow, lineRow⟩ := Router.line_ofGrid (.inl rfl) positive small cost steps seed
  obtain ⟨column, builtColumn, lineColumn⟩ := Router.line_ofGrid (.inr rfl) positive small cost steps seed
  refine ⟨row, column, builtRow, builtColumn, ?_⟩
  intro calls call
  have fresh {router : Router} (line : router.Line n.toNat) :
      Mapper.InLine n.toNat { router, storage } := by
    refine ⟨line, ?_⟩
    rintro _ ⟨⟩
  exact ⟨(fresh lineRow).matches calls call, (fresh lineColumn).matches calls call⟩

/-- Three qubits that all meet take one change of layout, on a row and on a column. -/
theorem session_on_one_line_triangle :
    (0 : UInt32) < 3 ∧ ∃ row column : GridRouter,
      GridRouter.ofGrid ⟨1, 3⟩ List.length 0 7 = .ok row ∧
      GridRouter.ofGrid ⟨3, 1⟩ List.length 0 7 = .ok column ∧
      ∀ router ∈ [row, column],
        let before := (Mapper.session { router := .grid router, storage := 9 }
          [.receive [.allocate ⟨4⟩, .allocate ⟨5⟩, .allocate ⟨6⟩, .flush]]).mapper
        let outcome := before.call
          (.receive [.gate .cx [⟨4⟩, ⟨5⟩], .gate .cx [⟨5⟩, ⟨6⟩], .gate .cx [⟨4⟩, ⟨6⟩], .flush])
        outcome.failure = none ∧ outcome.mapper.statistics.numMappings = 1 := by
  obtain ⟨row, column, builtRow, builtColumn, same⟩ :=
    session_on_one_line (show (0 : UInt32) < 3 by decide) 9 List.length 0 7
  refine ⟨by decide, row, column, builtRow, builtColumn, ?_⟩
  intro router mem
  obtain ⟨onRow, onColumn⟩ := same
    [.receive [.allocate ⟨4⟩, .allocate ⟨5⟩, .allocate ⟨6⟩, .flush]]
    (.receive [.gate .cx [⟨4⟩, ⟨5⟩], .gate .cx [⟨5⟩, ⟨6⟩], .gate .cx [⟨4⟩, ⟨6⟩], .flush])
  simp only [List.mem_cons, List.not_mem_nil, or_false] at mem
  rcases mem with rfl | rfl
  · dsimp only
    rw [onRow.failure_eq, onRow.statistics_eq]
    decide
  · dsimp only
    rw [onColumn.failure_eq, onColumn.statistics_eq]
    decide

end QubitRouting
