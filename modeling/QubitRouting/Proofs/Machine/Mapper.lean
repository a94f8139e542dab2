import QubitRouting.Proofs.Accounting
import QubitRouting.Proofs.Machine.Router

/-!
# Mappers on a machine

A mapper answers every sequence of calls on a machine of 64 bits or more as it does without bounds: no
number leaves its word, no difference goes below zero, nothing is divided by zero and no index lies
outside its table, whatever the commands are and whatever layouts are installed. The counters of the
machine only have to have room for the commands. To read or install a layout, positions are looked up
and nothing is computed.

Each command pays for one round, since a round that does not stop forwards a command at least. That
bounds what the statistics count.
-/

namespace QubitRouting

/-- What the search of a mapper minimises. There is no search on a chain. -/
def Config.objective : Config → Objective
  | linear _ => .swapDepth
  | grid config => config.objective

namespace Machine

/-! ### Dispatch -/

/-- Whether two positions are neighbours. -/
def adjacent : Router → Nat → Nat → Except Fault Bool
  | .chain c, a, b => do
    let distance := max a b - min a b
    if distance = 1 then return true
    if c.cyclic && c.numQubits > 1 then return distance == (← less c.numQubits 1)
    return false
  | .grid r, a, b => do
    let _ ← less (max a b) (min a b)
    r.grid.adjacent a b

/-- Whether a command can run. -/
def executable (router : Router) (state : Dispatch.State) (shape : Shape) : Except Fault Bool :=
  if shape.qubits.all fun q => state.active.contains q && state.layout.contains q then
    match shape with
    | .pair a b =>
      match state.layout.position? a, state.layout.position? b with
      | some pa, some pb => adjacent router pa pb
      | _, _ => .ok false
    | _ => .ok true
  else .ok false

/-- Forward or keep one command. -/
def step (router : Router) (state : Dispatch.State) (buffered : Buffered) :
    Except Fault (Dispatch.State × Option Command) :=
  match buffered.shape with
  | .allocate _ | .deallocate _ => Dispatch.step router state buffered
  | shape => do
    if ← executable router state shape then
      return (state, some (Dispatch.onHardware router state.layout buffered.command))
    return ({ state with active := shape.qubits.foldl OrderedSet.erase state.active }, none)

/-- Count on if something happened. -/
def count (limit counted : Nat) (happened : Bool) : Except Fault Nat :=
  if happened then size limit (counted + 1) else .ok counted

/-- Handle the commands one by one, and count those that are forwarded. -/
def handle (limit : Nat) (router : Router) :
    Nat → Dispatch.State → List Buffered → Except Fault (Dispatch.State × List Dispatch.Handled)
  | _, state, [] => .ok (state, [])
  | sent, state, buffered :: rest =>
    if state.active.isEmpty then
      .ok (state, (buffered :: rest).map fun b => ⟨b, none⟩)
    else do
      let moved ← step router state buffered
      let sent ← count limit sent moved.2.isSome
      let later ← handle limit router sent moved.1 rest
      return (later.1, ⟨buffered, moved.2⟩ :: later.2)

variable {limit : Nat}

/-- The machine tells neighbours as the router does. -/
lemma adjacent_eq (router : Router) : adjacent router = router.adjacent := by
  funext a b
  cases router with
  | chain c =>
    rw [adjacent, Router.adjacent, Chain.adjacent]
    by_cases side : max a b - min a b = 1
    · rw [if_pos side, side]
      rfl
    · rw [if_neg side, beq_false_of_ne side, Bool.false_or]
      by_cases ring : (c.cyclic && decide (c.numQubits > 1)) = true
      · have several : 1 ≤ c.numQubits := by
          rw [Bool.and_eq_true, decide_eq_true_eq] at ring
          exact ring.2.le
        rw [if_pos ring, ring, less_of_le several]
        rfl
      · rw [if_neg ring, Bool.eq_false_iff.mpr ring]
        rfl
  | grid r =>
    rw [adjacent, less_of_le min_le_max]
    rfl

/-- The machine tells what can run as dispatch does. -/
lemma executable_eq (router : Router) (state : Dispatch.State) (shape : Shape) :
    executable router state shape = Dispatch.executable router state shape := by
  unfold executable
  rw [adjacent_eq]
  rfl

/-- The machine forwards or keeps a command as dispatch does. -/
lemma step_eq (router : Router) (state : Dispatch.State) (b : Buffered) :
    step router state b = Dispatch.step router state b := by
  rcases shape : b.shape with q | q | q | ⟨x, y⟩
  · rw [step, shape]
  · rw [step, shape]
  · simp only [step, Dispatch.step, shape, executable_eq]
    rcases Dispatch.executable router state (.single q) with fault | _ | _ <;> rfl
  · simp only [step, Dispatch.step, shape, executable_eq]
    rcases Dispatch.executable router state (.pair x y) with fault | _ | _ <;> rfl

/-- Counting on does not overflow if there is room for one more. -/
lemma exists_count {counted : Nat} (few : counted + 1 < limit) (happened : Bool) :
    ∃ next, count limit counted happened = .ok next ∧ next ≤ counted + 1 := by
  cases happened with
  | false => exact ⟨counted, rfl, Nat.le_succ counted⟩
  | true => exact ⟨counted + 1, size_of_lt few, Nat.le_refl _⟩

/-- The machine handles the buffer as dispatch does if all of it can be counted. -/
lemma handle_eq (router : Router) {sent : Nat} (state : Dispatch.State) {buffer : List Buffered}
    (room : sent + buffer.length < limit) :
    handle limit router sent state buffer = Dispatch.handle router state buffer := by
  induction buffer generalizing sent state with
  | nil => rfl
  | cons b rest ih =>
    rw [List.length_cons] at room
    rw [handle, Dispatch.handle]
    split
    · rfl
    · rw [step_eq]
      rcases Dispatch.step router state b with fault | ⟨next, forwarded⟩
      · rfl
      · rw [Checked.ok_bind, Checked.ok_bind]
        obtain ⟨counted, counts, le⟩ := exists_count (by omega : sent + 1 < limit) forwarded.isSome
        rw [counts, Checked.ok_bind, ih next (by omega)]

/-! ### Statistics -/

/-- Count one more occurrence of a key. -/
def increment (limit : Nat) (histogram : OrderedMap Nat Nat) (key : Nat) :
    Except Fault (OrderedMap Nat Nat) := do
  return histogram.insert key (← size limit ((histogram.find? key).getD 0 + 1))

/-- Record one change of layout. -/
def record (limit : Nat) (statistics : Statistics) (swaps : List Swap) : Except Fault Statistics := do
  let numMappings ← size limit (statistics.numMappings + 1)
  let depths ← increment limit statistics.depths (← depth limit swaps)
  let counts ← increment limit statistics.counts swaps.length
  return { numMappings, depths, counts }

/-- Counting one more occurrence does not overflow if the sum of all counts has room for it. -/
lemma increment_eq {histogram : OrderedMap Nat Nat}
    (few : (histogram.entries.map Prod.snd).sum + 1 < limit) (key : Nat) :
    increment limit histogram key = .ok (Statistics.increment histogram key) := by
  have count_le : (histogram.find? key).getD 0 ≤ (histogram.entries.map Prod.snd).sum := by
    rcases found : histogram.find? key with _ | count
    · exact Nat.zero_le _
    · exact List.single_le_sum (fun _ _ => Nat.zero_le _) _
        (List.mem_map.mpr ⟨(key, count), OrderedMap.mem_entries_iff.mpr found, rfl⟩)
  rw [increment, size_of_lt (by omega)]
  rfl

/-- Recording a change of layout does not overflow if one more can be counted. -/
lemma record_eq {statistics : Statistics} {numSwaps : Nat} (consistent : statistics.Consistent numSwaps)
    (few : statistics.numMappings + 1 < limit) {swaps : List Swap} (short : swaps.length < limit) :
    record limit statistics swaps = .ok (statistics.record swaps) := by
  have depths : (statistics.depths.entries.map Prod.snd).sum + 1 < limit := by
    rwa [consistent.depths_sum]
  have counts : (statistics.counts.entries.map Prod.snd).sum + 1 < limit := by
    rwa [consistent.counts_sum]
  rw [record, size_of_lt few, Checked.ok_bind, depth_eq short, Checked.ok_bind, increment_eq depths,
    Checked.ok_bind, increment_eq counts, Checked.ok_bind]
  rfl

/-! ### Rounds -/

/-- Forward what can run under a layout, which becomes the present one. -/
def dispatch (limit : Nat) (layout : Layout Nat) (mapper : Mapper) : Outcome :=
  match handle limit mapper.router 0 (Dispatch.start layout mapper.allocated) mapper.buffer with
  | .error fault => { mapper, failure := some (.fault fault) }
  | .ok (state, handled) =>
    { mapper :=
        { mapper with
          buffer := Dispatch.kept handled
          layout := some state.layout
          allocated := state.allocated }
      log := handled.filterMap Event.ofHandled? }

/-- The number of positions, as it is computed to list them. -/
def numPositions : Router → Except Fault Nat
  | .chain c => .ok c.numQubits
  | .grid r => r.grid.numQubits

/-- Send the swaps of a plan, if it has any, and count them. -/
def emitSwaps (limit : Nat) (current : Layout Nat) (plan : Plan) (mapper : Mapper) : Outcome :=
  if plan.swaps.isEmpty then { mapper }
  else
    let counted : Except Fault Statistics := do
      let _ ← numPositions mapper.router
      record limit mapper.statistics plan.swaps
    match counted with
    | .error fault => { mapper, failure := some (.fault fault) }
    | .ok statistics =>
      { mapper := { mapper with statistics }
        log := (mapper.swapCommands current plan).map .inserted }

/-- Stop if the buffer is as long as it was before the round; else see how much shorter it is. -/
def checkProgress (before : Nat) (mapper : Mapper) : Outcome :=
  if mapper.buffer.length = before then
    { mapper, failure := some (.error (.noProgress mapper.buffer.length)) }
  else
    match less before mapper.buffer.length with
    | .error fault => { mapper, failure := some (.fault fault) }
    | .ok _ => { mapper }

/-- Plan another layout, swap to it and forward what can run under it. -/
def remap (limit : Nat) (objective : Objective) (before : Nat) (current : Layout Nat) (mapper : Mapper) :
    Outcome :=
  match plan limit objective mapper.router ⟨mapper.allocated, mapper.buffer, current⟩ with
  | (.error failure, router) =>
    { mapper := { mapper with router, layout := some current }, failure := some failure }
  | (.ok plan, router) =>
    ((emitSwaps limit current plan { mapper with router }).andThen (dispatch limit plan.layout)).andThen
      (checkProgress before)

/-- One round: forward what can run already and, if anything is left, plan another layout. -/
def round (limit : Nat) (objective : Objective) (mapper : Mapper) : Outcome :=
  let before := mapper.buffer.length
  match mapper.layout with
  | none => remap limit objective before ∅ mapper
  | some layout =>
    (dispatch limit layout mapper).andThen fun mapper =>
      if mapper.buffer.isEmpty then { mapper }
      else remap limit objective before (mapper.layout.getD ∅) mapper

/-- A mapper after some commands were dispatched. -/
structure Relieved (mapper after : Mapper) : Prop where
  sound : after.Sound
  router_eq : after.router = mapper.router
  statistics_eq : after.statistics = mapper.statistics
  length_le : after.buffer.length ≤ mapper.buffer.length
  /-- A command that allocates a qubit leaves the buffer. -/
  size_le : after.allocated.size + after.buffer.length ≤ mapper.allocated.size + mapper.buffer.length

/-- A mapper that can go on: each of its commands paid for one round and one qubit. -/
structure Ready (objective : Objective) (load : Nat) (mapper : Mapper) : Prop where
  sound : mapper.Sound
  pursues : Pursues objective mapper.router
  counted : ∃ numSwaps, mapper.statistics.Consistent numSwaps
  mappings_le : mapper.statistics.numMappings + mapper.buffer.length ≤ load
  size_le : mapper.allocated.size + mapper.buffer.length ≤ load

/-- What the machine does is what the mapper does, and the mapper can go on. If it stopped, a round may
have been counted that no command paid for. -/
structure Runs (objective : Objective) (load : Nat) (checked plain : Outcome) : Prop where
  same : checked = plain
  ready : Ready objective (load + 1) plain.mapper
  going : plain.failure = none → Ready objective load plain.mapper
  faultless : ∀ fault, plain.failure ≠ some (.fault fault)

variable {objective : Objective} {load more : Nat} {mapper after : Mapper} {checked plain : Outcome}
  {next next' : Mapper → Outcome}

/-- A command brings one more qubit into use at most. -/
lemma size_use_le (live : OrderedSet QubitId) (b : Buffered) : (Stream.use live b).size ≤ live.size + 1 := by
  rw [Stream.use]
  split
  · exact live.size_insert_le _
  · exact (OrderedSet.size_le_of_subset fun q mem => (OrderedSet.mem_erase.mp mem).1).trans (Nat.le_succ _)
  · exact Nat.le_succ _

/-- Commands bring no more qubits into use than there are commands. -/
lemma size_uses_le (live : OrderedSet QubitId) (stream : List Buffered) :
    (stream.foldl Stream.use live).size ≤ live.size + stream.length := by
  induction stream generalizing live with
  | nil => exact Nat.le_refl _
  | cons b rest ih =>
    have first := size_use_le live b
    have later := ih (Stream.use live b)
    rw [List.foldl_cons, List.length_cons]
    omega

/-- Dispatch relieves a mapper of some commands. -/
lemma relieved_dispatch (sound : mapper.Sound) {layout : Layout Nat}
    (fits : layout.Fits mapper.router.numQubits) :
    ∃ log after, mapper.dispatch layout = { mapper := after, log } ∧ Relieved mapper after := by
  obtain ⟨log, after, dispatched, run⟩ := mapper.dispatch_eq sound.valid layout
  have placed : ({ mapper with layout := some layout } : Mapper).Sound := by
    refine ⟨sound.valid, ?_⟩
    rintro _ ⟨⟩
    exact fits
  have after_sound := (Mapper.Step.dispatch dispatched).sound placed
  have shorter := dispatched.length_le
  refine ⟨log, after, run, ?_⟩
  cases dispatched with
  | @intro _ handled state _ pass =>
    refine ⟨after_sound, rfl, rfl, shorter, ?_⟩
    have lengths := pass.perm.length_eq
    have uses := size_uses_le mapper.allocated (Dispatch.sent handled)
    have allocated : state.allocated = (Dispatch.sent handled).foldl Stream.use mapper.allocated :=
      pass.allocated_eq
    rw [List.length_append] at lengths
    dsimp only at lengths ⊢
    rw [allocated]
    omega

/-- A mapper that can go on can do so with more paid. -/
lemma Ready.mono (ready : Ready objective load mapper) (le : load ≤ more) :
    Ready objective more mapper :=
  ⟨ready.sound, ready.pursues, ready.counted, ready.mappings_le.trans le, ready.size_le.trans le⟩

/-- A mapper that was relieved of commands can go on. -/
lemma Ready.relieved (ready : Ready objective load mapper) (relieved : Relieved mapper after) :
    Ready objective load after := by
  have length_le := relieved.length_le
  have mappings_le := ready.mappings_le
  refine ⟨relieved.sound, ?_, ?_, ?_, relieved.size_le.trans ready.size_le⟩
  · rw [relieved.router_eq]
    exact ready.pursues
  · rw [relieved.statistics_eq]
    exact ready.counted
  · rw [relieved.statistics_eq]
    omega

/-- Doing nothing is the same on the machine and off it. -/
lemma Ready.runs (ready : Ready objective load mapper) (log : List Event) :
    Runs objective load { mapper, log } { mapper, log } where
  same := rfl
  ready := ready.mono (Nat.le_succ load)
  going _ := ready
  faultless fault := by simp

/-- Stopping with an error is the same on the machine and off it, and the round may have been counted. -/
lemma Ready.stops (ready : Ready objective (load + 1) mapper) (error : RoutingError) :
    Runs objective load { mapper, failure := some (.error error) }
      { mapper, failure := some (.error error) } where
  same := rfl
  ready := ready
  going ok := by cases ok
  faultless fault := by simp

/-- What runs alike does so with more paid. -/
lemma Runs.mono (runs : Runs objective load checked plain) (le : load ≤ more) :
    Runs objective more checked plain :=
  ⟨runs.same, runs.ready.mono (Nat.succ_le_succ le), fun ok => (runs.going ok).mono le, runs.faultless⟩

/-- What runs alike in two parts runs alike as a whole. -/
lemma Runs.andThen (first : Runs objective load checked plain) (le : load ≤ more)
    (rest : Ready objective load plain.mapper → Runs objective more (next plain.mapper) (next' plain.mapper)) :
    Runs objective more (checked.andThen next) (plain.andThen next') := by
  rw [first.same]
  cases ends : plain.failure with
  | none =>
    have rest := rest (first.going ends)
    rw [Outcome.andThen_of_ok ends, Outcome.andThen_of_ok ends, rest.same]
    exact ⟨rfl, rest.ready, rest.going, rest.faultless⟩
  | some failure =>
    rw [Outcome.andThen_of_failed ends, Outcome.andThen_of_failed ends]
    have first := first.mono le
    exact ⟨rfl, first.ready, first.going, first.faultless⟩

/-- What happened before does not matter to what runs alike. -/
lemma Runs.prepend (log : List Event) (runs : Runs objective load (next mapper) (next' mapper)) :
    Runs objective load (Outcome.andThen { mapper, log } next) (Outcome.andThen { mapper, log } next') := by
  rw [Outcome.andThen_of_ok rfl, Outcome.andThen_of_ok rfl, runs.same]
  exact ⟨rfl, runs.ready, runs.going, runs.faultless⟩

/-- The machine dispatches as the mapper does if all of the buffer can be counted. -/
lemma dispatch_eq (few : mapper.buffer.length < limit) (layout : Layout Nat) :
    dispatch limit layout mapper = mapper.dispatch layout := by
  rw [dispatch, handle_eq _ _ (by omega)]
  rfl

/-- The number of positions does not overflow on a valid device. -/
lemma numPositions_eq {router : Router} (valid : router.Valid) :
    numPositions router = .ok router.numQubits := by
  cases router with
  | chain c => rfl
  | grid r => exact valid.1.numQubits_eq.trans (congrArg Except.ok valid.2.1.symm)

/-- The machine sends and counts the swaps of a plan as the mapper does. -/
lemma emitSwaps_eq (ready : Ready objective load mapper) (few : load + 1 < limit) {plan : Plan}
    (short : plan.swaps.length < limit) (current : Layout Nat) :
    emitSwaps limit current plan mapper = mapper.emitSwaps current plan := by
  have mappings_le := ready.mappings_le
  obtain ⟨numSwaps, consistent⟩ := ready.counted
  rw [emitSwaps, Mapper.emitSwaps]
  split
  · rfl
  · rw [numPositions_eq ready.sound.valid, Checked.ok_bind, record_eq consistent (by omega) short]

/-- Sending the swaps only counts them. -/
lemma Ready.emitSwaps (ready : Ready objective load mapper) (current : Layout Nat) (plan : Plan) :
    ∃ log statistics, mapper.emitSwaps current plan = { mapper := { mapper with statistics }, log } ∧
      (∃ numSwaps, statistics.Consistent numSwaps) ∧
      statistics.numMappings ≤ mapper.statistics.numMappings + 1 := by
  obtain ⟨numSwaps, consistent⟩ := ready.counted
  rw [Mapper.emitSwaps]
  split
  · exact ⟨[], mapper.statistics, rfl, ⟨numSwaps, consistent⟩, Nat.le_succ _⟩
  case isFalse some_swaps =>
    have nonempty : plan.swaps ≠ [] := by
      rwa [Bool.not_eq_true, List.isEmpty_eq_false_iff] at some_swaps
    exact ⟨_, _, rfl, ⟨_, consistent.record nonempty⟩, Nat.le_refl _⟩

/-- A round that goes on has forwarded the command that pays for it. -/
lemma checkProgress_runs {before : Nat} (ready : Ready objective (load + 1) mapper)
    (le : mapper.buffer.length ≤ before) (paid : mapper.statistics.numMappings + before ≤ load + 1)
    (size_le : mapper.allocated.size + mapper.buffer.length ≤ load) :
    Runs objective load (checkProgress before mapper) (mapper.checkProgress before) := by
  rw [checkProgress, Mapper.checkProgress, less_of_le le]
  split
  · exact ready.stops _
  · have mappings_le : mapper.statistics.numMappings + mapper.buffer.length ≤ load := by omega
    exact Ready.runs ⟨ready.sound, ready.pursues, ready.counted, mappings_le, size_le⟩ []

section Rounds

variable (wide : 2 ^ 64 ≤ limit) (room : 4 * load ≤ limit) (ready : Ready objective load mapper)
include wide room ready

/-- A router plans on the machine as it does without bounds, and the mapper can go on. -/
lemma plan_ready {current : Layout Nat} (fits : current.Fits mapper.router.numQubits) :
    ∃ result router, mapper.router.plan ⟨mapper.allocated, mapper.buffer, current⟩ = (.ok result, router) ∧
      plan limit objective mapper.router ⟨mapper.allocated, mapper.buffer, current⟩
        = (.ok result, router) ∧
      result.layout.Fits router.numQubits ∧ result.swaps.length < limit ∧
      Ready objective load { mapper with router } := by
  have valid := ready.sound.valid
  have small := valid.numQubits_lt
  have size_le := ready.size_le
  have enough : mapper.router.numQubits + (mapper.allocated.size + 2 * mapper.buffer.length) < limit := by
    omega
  have planned : plan limit objective mapper.router ⟨mapper.allocated, mapper.buffer, current⟩
      = mapper.router.plan ⟨mapper.allocated, mapper.buffer, current⟩ :=
    plan_eq valid wide fits ready.pursues enough
  obtain ⟨swaps, found, _, _⟩ : ∃ swaps,
      (mapper.router.plan ⟨mapper.allocated, mapper.buffer, current⟩).1
        = .ok ⟨mapper.router.next ⟨mapper.allocated, mapper.buffer, current⟩, swaps⟩ ∧ _ ∧ _ :=
    valid.regular.plan_eq fits
  have device := mapper.router.sameDevice_plan ⟨mapper.allocated, mapper.buffer, current⟩
  refine ⟨_, _, Prod.ext found rfl, planned.trans (Prod.ext found rfl), ?_, length_plan valid wide fits found,
    ⟨device.valid valid, ?_⟩, pursues_plan ready.pursues _, ready.counted, ready.mappings_le, size_le⟩
  · rw [device.numQubits_eq]
    exact valid.regular.fits_next _
  · rw [device.numQubits_eq]
    exact ready.sound.fits

/-- Moving to another layout pays for its round with the commands it forwards. -/
lemma remap_runs {before : Nat} (le : mapper.buffer.length ≤ before)
    (paid : mapper.statistics.numMappings + before ≤ load) {current : Layout Nat}
    (fits : current.Fits mapper.router.numQubits) :
    Runs objective load (remap limit objective before current mapper) (mapper.remap before current) := by
  have mappings_le := ready.mappings_le
  have size_le := ready.size_le
  obtain ⟨result, router, planned, checked, inside, short, ready⟩ := plan_ready wide room ready fits
  obtain ⟨log, statistics, emitted, counted, once⟩ := ready.emitSwaps current result
  have sent : Ready objective (load + 1) { mapper with router, statistics } := by
    refine ⟨⟨ready.sound.valid, ready.sound.fits⟩, ready.pursues, counted, ?_, size_le.trans (Nat.le_succ _)⟩
    dsimp only at once ⊢
    omega
  obtain ⟨more, after, dispatched, relieved⟩ := relieved_dispatch sent.sound inside
  have few : ({ mapper with router, statistics } : Mapper).buffer.length < limit := by
    dsimp only
    omega
  have forwarded : dispatch limit result.layout { mapper with router, statistics }
      = { mapper := after, log := more } := (dispatch_eq few _).trans dispatched
  -- the swaps may have been counted as one more change of layout
  have paid : after.statistics.numMappings + before ≤ load + 1 := by
    rw [relieved.statistics_eq]
    dsimp only at once ⊢
    omega
  rw [remap, Mapper.remap, planned, checked]
  dsimp only
  rw [emitSwaps_eq ready (by omega) short, emitted, Outcome.andThen_assoc, Outcome.andThen_assoc]
  refine Runs.prepend log ?_
  rw [forwarded, dispatched]
  exact (checkProgress_runs (sent.relieved relieved) (relieved.length_le.trans le) paid
    (relieved.size_le.trans size_le)).prepend more

/-- A round on the machine is a round of the mapper. -/
lemma round_runs : Runs objective load (round limit objective mapper) mapper.round := by
  have mappings_le := ready.mappings_le
  have few : mapper.buffer.length < limit := by omega
  rw [round, Mapper.round]
  cases layout : mapper.layout with
  | none =>
    have fits := ready.sound.fits_current
    rw [Mapper.current, layout] at fits
    exact remap_runs wide room ready (Nat.le_refl _) mappings_le fits
  | some here =>
    obtain ⟨log, first, dispatched, relieved⟩ := relieved_dispatch ready.sound (ready.sound.fits layout)
    have ready' := ready.relieved relieved
    dsimp only
    rw [dispatch_eq few, dispatched]
    refine Runs.prepend log ?_
    split
    · exact ready'.runs []
    · refine remap_runs wide room ready' relieved.length_le ?_ ready'.sound.fits_current
      rwa [relieved.statistics_eq]

end Rounds

/-! ### Calls -/

/-- Rounds until the buffer is empty. -/
def drain (limit : Nat) (objective : Objective) : Nat → Mapper → Outcome
  | 0, mapper => { mapper }
  | rounds + 1, mapper =>
    if mapper.buffer.isEmpty then { mapper }
    else (round limit objective mapper).andThen (drain limit objective rounds)

/-- Take one command in: a flush empties the buffer and is passed on, anything else is buffered once its
qubits are counted. -/
def accept (limit : Nat) (objective : Objective) (command : Command) (mapper : Mapper) : Outcome :=
  if command.isFlush then
    (drain limit objective mapper.buffer.length mapper).andThen fun mapper =>
      { mapper, log := [.flushed command] }
  else
    match size limit command.numQubits with
    | .error fault => { mapper, failure := some (.fault fault) }
    | .ok _ => mapper.accept command

/-- Run one round if the buffer has reached the storage. -/
def roundIfFull (limit : Nat) (objective : Objective) (mapper : Mapper) : Outcome :=
  if !mapper.buffer.isEmpty && mapper.storage ≤ mapper.buffer.length then round limit objective mapper
  else { mapper }

/-- Take a batch of commands in, and run a round after it if the buffer is full. -/
def receive (limit : Nat) (objective : Objective) : List Command → Mapper → Outcome
  | [], mapper => roundIfFull limit objective mapper
  | command :: rest, mapper =>
    (accept limit objective command mapper).andThen (receive limit objective rest)

/-- Answer a call. -/
def answer (limit : Nat) (objective : Objective) (mapper : Mapper) : Call → Outcome
  | .receive commands => receive limit objective commands mapper
  | .install layout => mapper.call (.install layout)

/-- One more call. The session goes on if the call fails. -/
def advance (limit : Nat) (objective : Objective) (session : Session) (call : Call) : Session :=
  let outcome := answer limit objective session.mapper call
  { mapper := outcome.mapper
    log := session.log ++ outcome.log
    failures := session.failures ++ outcome.failure.toList }

/-- The session of a mapper on a machine. -/
def session (limit : Nat) (objective : Objective) (mapper : Mapper) (calls : List Call) : Session :=
  calls.foldl (advance limit objective) { mapper }

/-- The commands of a batch and their qubits. -/
def batchLoad (commands : List Command) : Nat := (commands.map fun command => command.numQubits + 1).sum

/-- A call and the batch it brings. -/
def callLoad : Call → Nat
  | .receive commands => batchLoad commands + 1
  | .install _ => 1

/-- A mapper that can go on can do so with one more command, which pays for itself. -/
lemma Ready.push (ready : Ready objective load mapper) (buffered : Buffered) :
    Ready objective (load + 1) { mapper with buffer := mapper.buffer ++ [buffered] } := by
  have mappings_le := ready.mappings_le
  have size_le := ready.size_le
  refine ⟨⟨ready.sound.valid, ready.sound.fits⟩, ready.pursues, ready.counted, ?_, ?_⟩
  · rw [List.length_append, List.length_singleton]
    dsimp only
    omega
  · rw [List.length_append, List.length_singleton]
    dsimp only
    omega

/-- The rounds on the machine are those of the mapper. -/
lemma drain_runs (wide : 2 ^ 64 ≤ limit) (room : 4 * load ≤ limit) (ready : Ready objective load mapper)
    (rounds : Nat) :
    Runs objective load (drain limit objective rounds mapper) (mapper.drain rounds) := by
  induction rounds generalizing mapper with
  | zero => exact ready.runs []
  | succ rounds ih =>
    rw [drain, Mapper.drain]
    split
    · exact ready.runs []
    · exact (round_runs wide room ready).andThen (Nat.le_refl _) ih

/-- The machine takes a command in as the mapper does. -/
lemma accept_runs (wide : 2 ^ 64 ≤ limit) {command : Command}
    (room : 4 * (load + (command.numQubits + 1)) ≤ limit) (ready : Ready objective load mapper) :
    Runs objective (load + (command.numQubits + 1)) (accept limit objective command mapper)
      (mapper.accept command) := by
  by_cases flush : command.isFlush = true
  · rw [accept, Mapper.accept, if_pos flush, if_pos flush]
    exact (drain_runs wide (by omega) ready _).andThen (by omega) fun ready =>
      (ready.runs [.flushed command]).mono (by omega)
  · rw [accept, if_neg flush, size_of_lt (by omega)]
    dsimp only
    rw [Mapper.accept, if_neg flush]
    split
    · exact Ready.stops (ready.mono (by omega)) _
    · exact ((ready.push _).runs _).mono (by omega)

/-- The machine takes a batch in as the mapper does. -/
lemma receive_runs (wide : 2 ^ 64 ≤ limit) {commands : List Command}
    (room : 4 * (load + batchLoad commands) ≤ limit) (ready : Ready objective load mapper) :
    Runs objective (load + batchLoad commands) (receive limit objective commands mapper)
      (mapper.receive commands) := by
  induction commands generalizing load mapper with
  | nil =>
    rw [receive, Mapper.receive, roundIfFull, Mapper.roundIfFull]
    split
    · exact round_runs wide room ready
    · exact ready.runs []
  | cons command rest ih =>
    rw [batchLoad, List.map_cons, List.sum_cons, ← batchLoad, ← Nat.add_assoc] at room ⊢
    exact (accept_runs wide (by omega) ready).andThen (Nat.le_add_right _ _) (ih room)

/-- The machine answers a call as the mapper does, and without a fault. -/
lemma answer_runs (wide : 2 ^ 64 ≤ limit) {call : Call} (room : 4 * (load + callLoad call) ≤ limit)
    (ready : Ready objective load mapper) :
    answer limit objective mapper call = mapper.call call ∧
      Ready objective (load + callLoad call) (mapper.call call).mapper ∧
      ∀ fault, (mapper.call call).failure ≠ some (.fault fault) := by
  cases call with
  | receive commands =>
    rw [callLoad] at room ⊢
    have runs := receive_runs wide (by omega : 4 * (load + batchLoad commands) ≤ limit) ready
    exact ⟨runs.same, runs.ready, runs.faultless⟩
  | install layout =>
    refine ⟨rfl, ?_⟩
    rw [Mapper.call]
    cases installed : mapper.setLayout layout with
    | error error => exact ⟨ready.mono (Nat.le_succ load), fun fault => by simp⟩
    | ok after =>
      obtain ⟨positions, rfl⟩ := Mapper.eq_of_setLayout installed
      refine ⟨Ready.mono ⟨⟨ready.sound.valid, ?_⟩, ready.pursues, ready.counted, ready.mappings_le,
        ready.size_le⟩ (Nat.le_succ load), fun fault => by simp⟩
      rintro _ ⟨⟩
      exact Mapper.fits_of_setLayout ready.sound.valid installed

/-- The machine answers calls one after the other as the mapper does, and without a fault. -/
lemma advance_all (wide : 2 ^ 64 ≤ limit) {calls : List Call} {session : Session}
    (room : 4 * (load + (calls.map callLoad).sum) ≤ limit) (ready : Ready objective load session.mapper)
    (faultless : ∀ fault, Failure.fault fault ∉ session.failures) :
    calls.foldl (advance limit objective) session = calls.foldl Session.call session ∧
      ∀ fault, Failure.fault fault ∉ (calls.foldl Session.call session).failures := by
  induction calls generalizing load session with
  | nil => exact ⟨rfl, faultless⟩
  | cons call rest ih =>
    rw [List.map_cons, List.sum_cons, ← Nat.add_assoc] at room
    obtain ⟨same, ready, sane⟩ := answer_runs wide (by omega : 4 * (load + callLoad call) ≤ limit) ready
    have first : advance limit objective session call = session.call call := by
      rw [advance, same]
      rfl
    rw [List.foldl_cons, List.foldl_cons, first]
    refine ih room ready ?_
    intro fault mem
    rcases List.mem_append.mp mem with old | new
    · exact faultless fault old
    · exact sane fault (Option.mem_toList.mp new)

/-! ### Configurations -/

/-- A table does not change what the search minimises. -/
lemma cost_withTable {router numbered : GridRouter} {pairs : List (Nat × QubitId)}
    (built : router.withTable pairs = .ok numbered) : numbered.cost = router.cost := by
  obtain ⟨table, _, built⟩ := Checked.bind_eq_ok.mp built
  obtain ⟨hardware, _, built⟩ := Checked.bind_eq_ok.mp built
  cases built
  rfl

/-- The router of a configuration minimises the objective of the configuration. -/
lemma cost_router {config : GridConfig} {router : GridRouter} (built : config.router = .ok router) :
    router.cost = config.objective.cost := by
  obtain ⟨plain, built, numbered⟩ := Checked.bind_eq_ok.mp built
  obtain ⟨numQubits, _, built⟩ := Checked.bind_eq_ok.mp (Failure.ofChecked_eq_ok.mp built)
  cases built
  split at numbered
  · cases numbered
    rfl
  · split at numbered
    · cases numbered
    case h_2 built =>
      cases numbered
      exact cost_withTable built

/-- The search of a configured mapper minimises the objective of the configuration. -/
lemma pursues_of_built {config : Config} (built : config.mapper = .ok mapper) :
    Pursues config.objective mapper.router := by
  cases config with
  | linear config =>
    rw [Config.mapper, LinearConfig.mapper] at built
    split at built
    · cases built
    · cases built
      exact trivial
  | grid config =>
    rw [Config.mapper, GridConfig.mapper] at built
    split at built
    · cases built
    · obtain ⟨router, found, same⟩ := Checked.bind_eq_ok.mp built
      cases same
      exact cost_router found

/-- A configured mapper can go on before anything was paid. -/
lemma ready_of_built {config : Config} (built : config.mapper = .ok mapper) :
    Ready config.objective 0 mapper := by
  have pursues := pursues_of_built built
  obtain ⟨router, storage, valid, rfl⟩ := Config.exists_router built
  refine ⟨⟨valid, fun here => by cases here⟩, pursues, ⟨0, Statistics.consistent_start⟩, ?_, ?_⟩
  · exact Nat.le_refl 0
  · exact Nat.le_refl 0

end Machine

/-- No sequence of calls breaks the machine down, whatever the commands and the layouts are: with every
operation checked, the mapper of a configuration does what it does without bounds, and no call ends in a
fault. The words for sizes have 64 bits at least, and room for the calls, the commands and their qubits. -/
theorem session_faultless {config : Config} {mapper : Mapper} (built : config.mapper = .ok mapper)
    (calls : List Call) {limit : Nat} (wide : 2 ^ 64 ≤ limit)
    (room : 4 * (calls.map Machine.callLoad).sum ≤ limit) :
    Machine.session limit config.objective mapper calls = mapper.session calls ∧
      ∀ fault, Failure.fault fault ∉ (Machine.session limit config.objective mapper calls).failures := by
  have room : 4 * (0 + (calls.map Machine.callLoad).sum) ≤ limit := by rwa [Nat.zero_add]
  obtain ⟨same, faultless⟩ : Machine.session limit config.objective mapper calls = mapper.session calls ∧
      ∀ fault, Failure.fault fault ∉ (mapper.session calls).failures :=
    Machine.advance_all wide room (Machine.ready_of_built built) fun _ => List.not_mem_nil
  refine ⟨same, ?_⟩
  rwa [same]

/-- Qubits allocated twice, released without need or never allocated do no harm, but words that hold no
more than the numbers up to three are too small for these calls. -/
theorem session_faultless_ill_formed :
    ∃ (mapper : Mapper) (calls : List Call),
      (Config.grid { rows := 2, columns := 3, storage := 2, objective := .swapCount }).mapper = .ok mapper ∧
      calls = [.install (.ofPairs [(⟨7⟩, ⟨5⟩), (⟨8⟩, ⟨0⟩)]),
        .receive [.allocate ⟨7⟩, .allocate ⟨8⟩, .allocate ⟨7⟩, .gate .cx [⟨7⟩, ⟨8⟩], .flush],
        .receive [.deallocate ⟨3⟩, .gate .swap [⟨7⟩, ⟨9⟩], .flush, .measure ⟨9⟩],
        .install (.ofPairs [(⟨1⟩, ⟨6⟩)])] ∧
      (Machine.session 4 .swapCount mapper calls).failures
        = [.fault .overflow, .fault .overflow, .error (.setting (.unknownQubit ⟨6⟩))] ∧
      4 * (calls.map Machine.callLoad).sum ≤ 2 ^ 64 ∧
      Machine.session (2 ^ 64) .swapCount mapper calls = mapper.session calls ∧
      ∀ fault, Failure.fault fault ∉ (Machine.session (2 ^ 64) .swapCount mapper calls).failures := by
  refine ⟨_, _, rfl, rfl, by decide, by decide, ?_⟩
  exact @session_faultless (.grid { rows := 2, columns := 3, storage := 2, objective := .swapCount }) _ rfl
    _ _ (Nat.le_refl _) (by decide)

end QubitRouting
