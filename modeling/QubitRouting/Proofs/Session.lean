import QubitRouting.Mapper
import QubitRouting.Proofs.Config
import QubitRouting.Proofs.Dispatch

/-!
# Sessions with a mapper

Whatever a mapper does in a session of calls is made of a few steps: it takes a command in, passes a
flush on with an empty buffer, dispatches its buffer, moves to another layout, or has a layout
installed. What every step keeps, every session keeps, whether its calls fail or not.
-/

namespace QubitRouting

open Dispatch (Pass)

/-! ### What happened in a session -/

/-- The command that was taken in. -/
def Event.accepted? : Event → Option Buffered
  | accepted buffered => some buffered
  | forwarded _ _ | inserted _ | flushed _ => none

/-- The command that was forwarded. -/
def Event.forwarded? : Event → Option Buffered
  | forwarded buffered _ => some buffered
  | accepted _ | inserted _ | flushed _ => none

namespace Log

/-- The commands taken in, in order of arrival. -/
def accepted (log : List Event) : List Buffered := log.filterMap Event.accepted?

/-- The commands forwarded, in order. -/
def forwarded (log : List Event) : List Buffered := log.filterMap Event.forwarded?

/-- What two logs took in is what the first did and then what the second did. -/
@[simp]
lemma accepted_append (log more : List Event) : accepted (log ++ more) = accepted log ++ accepted more :=
  List.filterMap_append

/-- What two logs forwarded is what the first did and then what the second did. -/
@[simp]
lemma forwarded_append (log more : List Event) :
    forwarded (log ++ more) = forwarded log ++ forwarded more :=
  List.filterMap_append

/-- What a single event took in. -/
lemma accepted_singleton (event : Event) : accepted [event] = event.accepted?.toList := by
  cases event <;> rfl

/-- What a single event forwarded. -/
lemma forwarded_singleton (event : Event) : forwarded [event] = event.forwarded?.toList := by
  cases event <;> rfl

/-- Handling the buffer takes nothing in. -/
lemma accepted_handled (handled : List Dispatch.Handled) :
    accepted (handled.filterMap Event.ofHandled?) = [] := by
  rw [accepted, List.filterMap_filterMap, List.filterMap_eq_nil_iff]
  rintro ⟨b, forwarded⟩ _
  cases forwarded <;> rfl

/-- Handling the buffer forwards the commands that are sent. -/
lemma forwarded_handled (handled : List Dispatch.Handled) :
    forwarded (handled.filterMap Event.ofHandled?) = Dispatch.sent handled := by
  induction handled with
  | nil => rfl
  | cons head rest ih =>
    obtain ⟨b, command⟩ := head
    cases command with
    | none => exact ih
    | some command => exact congrArg (b :: ·) ih

/-- Inserted commands are not taken in. -/
lemma accepted_inserted (commands : List Command) : accepted (commands.map .inserted) = [] := by
  rw [accepted, List.filterMap_map, List.filterMap_eq_nil_iff]
  exact fun _ _ => rfl

/-- Inserted commands are not forwarded ones. -/
lemma forwarded_inserted (commands : List Command) : forwarded (commands.map .inserted) = [] := by
  rw [forwarded, List.filterMap_map, List.filterMap_eq_nil_iff]
  exact fun _ _ => rfl

end Log

namespace Outcome

variable {outcome : Outcome} {next : Mapper → Outcome}

/-- After a success, what follows is done and its log added. -/
lemma andThen_of_ok (ok : outcome.failure = none) :
    outcome.andThen next
      = { next outcome.mapper with log := outcome.log ++ (next outcome.mapper).log } := by
  rw [andThen, ok]

/-- After a failure, nothing follows. -/
lemma andThen_of_failed {failure : Failure} (failed : outcome.failure = some failure) :
    outcome.andThen next = outcome := by
  rw [andThen, failed]

end Outcome

namespace Mapper

variable {mapper after final : Mapper} {log more past : List Event}

/-! ### Steps -/

/-- A valid router and a layout that stays on its device. -/
structure Sound (mapper : Mapper) : Prop where
  valid : mapper.router.Valid
  fits : ∀ {layout}, mapper.layout = some layout → layout.Fits mapper.router.numQubits

/-- The present layout, which is empty before the first round. -/
def current (mapper : Mapper) : Layout Nat := mapper.layout.getD ∅

/-- The layout that a plan leads to. -/
def next (mapper : Mapper) : Layout Nat :=
  mapper.router.next ⟨mapper.allocated, mapper.buffer, mapper.current⟩

/-- The commands inserted for the swaps of a plan, if it has any. -/
def swapEvents (mapper : Mapper) (swaps : List Swap) : List Event :=
  if swaps.isEmpty then []
  else (mapper.swapCommands mapper.current ⟨mapper.next, swaps⟩).map .inserted

/-- The commands that carry swaps out are inserted ones. -/
lemma swapEvents_eq (mapper : Mapper) (swaps : List Swap) :
    ∃ commands : List Command, mapper.swapEvents swaps = commands.map .inserted := by
  rw [swapEvents]
  split
  · exact ⟨[], rfl⟩
  · exact ⟨_, rfl⟩

/-- The statistics once the swaps of a plan are sent: only a plan with swaps counts. -/
def counted (mapper : Mapper) (swaps : List Swap) : Statistics :=
  if swaps.isEmpty then mapper.statistics else mapper.statistics.record swaps

/-- Moving to the next layout, by swaps between neighbours that carry all qubits there. -/
inductive Remap (mapper : Mapper) : List Event → Mapper → Prop
  | intro {swaps : List Swap} {router : Router} :
      mapper.router.SameDevice router → Move.Carries swaps mapper.current mapper.next →
      mapper.router.Neighbouring swaps →
      Remap mapper (mapper.swapEvents swaps)
        { mapper with router, statistics := mapper.counted swaps, layout := some mapper.next }

/-- A pass over the buffer under the present layout. -/
inductive Dispatched (mapper : Mapper) : List Event → Mapper → Prop
  | intro {layout : Layout Nat} {handled : List Dispatch.Handled} {state : Dispatch.State} :
      mapper.layout = some layout →
      Pass mapper.router (Dispatch.start layout mapper.allocated) mapper.buffer handled state →
      Dispatched mapper (handled.filterMap Event.ofHandled?)
        { mapper with
          buffer := Dispatch.kept handled
          layout := some state.layout
          allocated := state.allocated }

/-- What a mapper does to take commands in. -/
inductive Step (mapper : Mapper) : List Event → Mapper → Prop
  | accept {command : Command} {buffered : Buffered} : Buffered.classify command = .ok buffered →
      Step mapper [.accepted buffered] { mapper with buffer := mapper.buffer ++ [buffered] }
  | flush {command : Command} : command.isFlush = true → mapper.buffer = [] →
      Step mapper [.flushed command] mapper
  | dispatch {log : List Event} {after : Mapper} : Dispatched mapper log after → Step mapper log after
  | remap {log : List Event} {after : Mapper} : Remap mapper log after → Step mapper log after

/-- One step after the other, with all that happens on the way. -/
inductive Steps : Mapper → List Event → Mapper → Prop
  | refl {mapper : Mapper} : Steps mapper [] mapper
  | head {mapper after final : Mapper} {log more : List Event} : Step mapper log after →
      Steps after more final → Steps mapper (log ++ more) final

/-- A step is one of a number of steps. -/
lemma Steps.single (step : mapper.Step log after) : Steps mapper log after := by
  have := Steps.head step .refl
  rwa [List.append_nil] at this

/-- Steps can go on. -/
lemma Steps.trans (first : Steps mapper log after) (second : Steps after more final) :
    Steps mapper (log ++ more) final := by
  induction first with
  | refl => exact second
  | head step _ ih =>
    rw [List.append_assoc]
    exact .head step (ih second)

/-- The present layout of a sound mapper stays on its device. -/
lemma Sound.fits_current (sound : mapper.Sound) : mapper.current.Fits mapper.router.numQubits := by
  rw [current]
  cases layout : mapper.layout with
  | none => exact Layout.fits_empty _
  | some layout => exact sound.fits ‹_›

/-- A step does not change the device. -/
lemma Step.sameDevice (step : mapper.Step log after) : mapper.router.SameDevice after.router := by
  cases step with
  | accept => exact .refl _
  | flush => exact .refl _
  | dispatch step =>
    cases step
    exact .refl _
  | remap step =>
    cases step with
    | intro same => exact same

/-- A step keeps a mapper sound. -/
lemma Step.sound (step : mapper.Step log after) (sound : mapper.Sound) : after.Sound := by
  have valid := step.sameDevice.valid sound.valid
  refine ⟨valid, ?_⟩
  rw [step.sameDevice.numQubits_eq]
  cases step with
  | accept => exact sound.fits
  | flush => exact sound.fits
  | dispatch step =>
    cases step with
    | intro here pass =>
      rintro layout ⟨⟩
      exact pass.fits (sound.fits here)
  | remap step =>
    cases step with
    | intro =>
      rintro layout ⟨⟩
      exact sound.valid.regular.fits_next _

/-- Any number of steps keep a mapper sound. -/
lemma Steps.sound (run : Steps mapper log final) (sound : mapper.Sound) : final.Sound := by
  induction run with
  | refl => exact sound
  | head step _ ih => exact ih (step.sound sound)

/-- After a step the buffered commands still have the shapes they were given. -/
lemma Step.classified (step : mapper.Step log after) (classified : ∀ b ∈ mapper.buffer, b.Classified) :
    ∀ b ∈ after.buffer, b.Classified := by
  cases step with
  | accept new =>
    intro b mem
    rcases List.mem_append.mp mem with mem | mem
    · exact classified b mem
    · obtain rfl := List.mem_singleton.mp mem
      exact Buffered.classified_of_classify new
  | flush => exact classified
  | dispatch step =>
    cases step with
    | intro _ pass => exact fun b mem => classified b (pass.kept_sublist.subset mem)
  | remap step =>
    cases step
    exact classified

/-- What every step keeps, with all that happened so far, a run of steps keeps. -/
lemma Steps.keeps (Inv : List Event → Mapper → Prop)
    (step : ∀ {past log mapper after}, mapper.Sound → Inv past mapper → mapper.Step log after →
      Inv (past ++ log) after)
    (run : Steps mapper log final) (sound : mapper.Sound) (start : Inv past mapper) :
    Inv (past ++ log) final := by
  induction run generalizing past with
  | refl => rwa [List.append_nil]
  | head first _ ih =>
    rw [← List.append_assoc]
    exact ih (first.sound sound) (step sound start first)

/-! ### Rounds -/

/-- On a valid device dispatch is a pass over the buffer, without a failure. -/
lemma dispatch_eq (mapper : Mapper) (valid : mapper.router.Valid) (layout : Layout Nat) :
    ∃ log after, Dispatched { mapper with layout := some layout } log after ∧
      mapper.dispatch layout = { mapper := after, log } := by
  obtain ⟨state, handled, run, pass⟩ :=
    Dispatch.handle_eq valid (Dispatch.start layout mapper.allocated) mapper.buffer
  refine ⟨_, _, .intro rfl pass, ?_⟩
  rw [dispatch, run]

/-- The commands that carry swaps out only depend on the device and the qubits in use. -/
lemma swapCommands_congr (other : Mapper) (same : mapper.router.SameDevice other.router)
    (allocated : other.allocated = mapper.allocated) (current : Layout Nat) (plan : Plan) :
    other.swapCommands current plan = mapper.swapCommands current plan := by
  have idle_eq (layout : Layout Nat) : other.idle layout = mapper.idle layout := by
    unfold idle occupied
    rw [allocated, same.numQubits_eq]
  simp only [swapCommands, idle_eq, same.hardwareQubit_eq]

/-- What is inserted allocates positions, exchanges two of them or releases them. -/
lemma mem_swapCommands {current : Layout Nat} {plan : Plan} {command : Command}
    (mem : command ∈ mapper.swapCommands current plan) :
    (∃ q, command = .allocate q) ∨ (∃ a b, command = .gate .swap [a, b]) ∨ ∃ q, command = .deallocate q := by
  rw [swapCommands, List.mem_append, List.mem_append] at mem
  rcases mem with (mem | mem) | mem
  · obtain ⟨p, _, rfl⟩ := List.mem_map.mp mem
    exact .inl ⟨_, rfl⟩
  · obtain ⟨swap, _, rfl⟩ := List.mem_map.mp mem
    exact .inr (.inl ⟨_, _, rfl⟩)
  · obtain ⟨p, _, rfl⟩ := List.mem_map.mp mem
    exact .inr (.inr ⟨_, rfl⟩)

/-- Carry a plan out. -/
def execute (before : Nat) (current : Layout Nat) (plan : Plan) (mapper : Mapper) : Outcome :=
  ((mapper.emitSwaps current plan).andThen (dispatch plan.layout)).andThen (checkProgress before)

/-- A change of layout carries out the plan that is made. -/
lemma remap_of_plan {current : Layout Nat} {plan : Plan} (before : Nat)
    (planned : (mapper.router.plan ⟨mapper.allocated, mapper.buffer, current⟩).1 = .ok plan) :
    mapper.remap before current = execute before current plan
      { mapper with router := (mapper.router.plan ⟨mapper.allocated, mapper.buffer, current⟩).2 } := by
  rw [remap]
  generalize mapper.router.plan ⟨mapper.allocated, mapper.buffer, current⟩ = result at planned
  obtain ⟨result, router⟩ := result
  cases planned
  rfl

/-- How a round ends that started with so many commands in the buffer. -/
def progress (before : Nat) (mapper : Mapper) : Option Failure :=
  if mapper.buffer.length = before then some (.error (.noProgress mapper.buffer.length)) else none

/-- There always is a plan, and it is carried out. -/
lemma remap_eq (sound : mapper.Sound) (before : Nat) :
    ∃ log middle more after, Remap mapper log middle ∧ Dispatched middle more after ∧
      mapper.remap before mapper.current
        = { mapper := after, log := log ++ more, failure := after.progress before } := by
  obtain ⟨swaps, planned, carries, neighbouring⟩ : ∃ swaps,
      (mapper.router.plan ⟨mapper.allocated, mapper.buffer, mapper.current⟩).1
        = .ok ⟨mapper.next, swaps⟩ ∧
      Move.Carries swaps mapper.current mapper.next ∧ mapper.router.Neighbouring swaps :=
    sound.valid.regular.plan_eq sound.fits_current
  have same := mapper.router.sameDevice_plan ⟨mapper.allocated, mapper.buffer, mapper.current⟩
  rw [remap_of_plan before planned, execute]
  generalize (mapper.router.plan ⟨mapper.allocated, mapper.buffer, mapper.current⟩).2 = router at same
  -- the plan is sent, which only counts its swaps
  have sent : ({ mapper with router }).emitSwaps mapper.current ⟨mapper.next, swaps⟩
      = { mapper := { mapper with router, statistics := mapper.counted swaps }
          log := mapper.swapEvents swaps } := by
    rw [emitSwaps, swapEvents, counted]
    split
    · rfl
    · rw [swapCommands_congr { mapper with router } same rfl]
  obtain ⟨more, after, dispatched, run⟩ :=
    dispatch_eq { mapper with router, statistics := mapper.counted swaps } (same.valid sound.valid)
      mapper.next
  refine ⟨_, _, more, after, .intro same carries neighbouring, dispatched, ?_⟩
  simp only [sent, run, Outcome.andThen_of_ok, checkProgress, progress]
  split <;> simp

/-- A round dispatches if it can, and moves to the next layout if anything is left to dispatch. -/
lemma round_eq (sound : mapper.Sound) :
    (∃ log after, Dispatched mapper log after ∧ after.buffer = [] ∧
      mapper.round = { mapper := after, log }) ∨
    ∃ log first, (log = [] ∧ first = mapper ∨ Dispatched mapper log first ∧ first.buffer ≠ []) ∧
      ∃ moves middle more after, Remap first moves middle ∧ Dispatched middle more after ∧
        mapper.round = { mapper := after, log := log ++ (moves ++ more),
                         failure := after.progress mapper.buffer.length } := by
  rw [round]
  cases layout : mapper.layout with
  | none =>
    -- without a layout the round begins with a plan
    right
    refine ⟨[], mapper, .inl ⟨rfl, rfl⟩, ?_⟩
    obtain ⟨moves, middle, more, after, remapped, dispatched, run⟩ :=
      remap_eq sound mapper.buffer.length
    refine ⟨moves, middle, more, after, remapped, dispatched, ?_⟩
    rw [current, layout] at run
    exact run
  | some here =>
    obtain ⟨log, first, dispatched, run⟩ := dispatch_eq mapper sound.valid here
    have same : { mapper with layout := some here } = mapper := by rw [← layout]
    rw [same] at dispatched
    simp only [run, Outcome.andThen_of_ok]
    cases left : first.buffer with
    | nil =>
      left
      exact ⟨log, first, dispatched, left, by simp⟩
    | cons b rest =>
      right
      obtain ⟨moves, middle, more, after, remapped, dispatched', run'⟩ :=
        remap_eq ((Step.dispatch dispatched).sound sound) mapper.buffer.length
      refine ⟨log, first, .inr ⟨dispatched, left ▸ List.cons_ne_nil b rest⟩, moves, middle, more, after, remapped, dispatched', ?_⟩
      rw [current] at run'
      simp [run']

/-- A pass does not make the buffer longer. -/
lemma Dispatched.length_le (dispatched : Dispatched mapper log after) :
    after.buffer.length ≤ mapper.buffer.length := by
  cases dispatched with
  | intro _ pass => exact pass.kept_sublist.length_le

/-- A round that does not stop shrinks the buffer. -/
lemma round_shrinks (sound : mapper.Sound) (nonempty : mapper.buffer ≠ [])
    (ok : mapper.round.failure = none) :
    mapper.round.mapper.buffer.length < mapper.buffer.length := by
  rcases round_eq sound with ⟨log, after, _, empty, run⟩ |
    ⟨log, first, dispatched, moves, middle, more, after, remapped, last, run⟩
  · rw [run, empty]
    exact List.length_pos_iff.mpr nonempty
  · rw [run] at ok ⊢
    have first_le : first.buffer.length ≤ mapper.buffer.length := by
      rcases dispatched with ⟨_, rfl⟩ | ⟨dispatched, _⟩
      · exact Nat.le_refl _
      · exact dispatched.length_le
    have middle_le : middle.buffer.length ≤ first.buffer.length := by
      cases remapped
      exact Nat.le_refl _
    have last_le := last.length_le
    have moved : after.buffer.length ≠ mapper.buffer.length := by
      intro same
      rw [progress, if_pos same] at ok
      cases ok
    dsimp only
    omega

/-! ### Calls are made of steps -/

/-- What a mapper did led it from one state to the other. -/
def Follows (mapper : Mapper) (outcome : Outcome) : Prop := Steps mapper outcome.log outcome.mapper

/-- What leads from one state to another, and on to a third, leads to the third. -/
lemma Follows.andThen {outcome : Outcome} {next : Mapper → Outcome} (first : mapper.Follows outcome)
    (second : outcome.failure = none → outcome.mapper.Follows (next outcome.mapper)) :
    mapper.Follows (outcome.andThen next) := by
  cases ends : outcome.failure with
  | none =>
    rw [Outcome.andThen_of_ok ends]
    exact Steps.trans first (second ends)
  | some failure => rwa [Outcome.andThen_of_failed ends]

/-- A round goes step by step. -/
lemma follows_round (sound : mapper.Sound) : mapper.Follows mapper.round := by
  rcases round_eq sound with ⟨log, after, dispatched, _, run⟩ |
    ⟨log, first, dispatched, moves, middle, more, after, remapped, last, run⟩
  · rw [run]
    exact .single (.dispatch dispatched)
  · rw [run]
    refine Steps.trans ?_ ((Steps.single (.remap remapped)).trans (.single (.dispatch last)))
    rcases dispatched with ⟨rfl, rfl⟩ | ⟨dispatched, _⟩
    · exact .refl
    · exact .single (.dispatch dispatched)

/-- Draining the buffer goes step by step. -/
lemma follows_drain (sound : mapper.Sound) (rounds : Nat) : mapper.Follows (mapper.drain rounds) := by
  induction rounds generalizing mapper with
  | zero => exact .refl
  | succ rounds ih =>
    rw [drain]
    split
    · exact .refl
    · refine (follows_round sound).andThen fun _ => ih ?_
      exact Steps.sound (follows_round sound) sound

/-- As many rounds as there are commands empty the buffer, unless one of them stops. -/
lemma buffer_drain (sound : mapper.Sound) {rounds : Nat} (enough : mapper.buffer.length ≤ rounds)
    (ok : (mapper.drain rounds).failure = none) : (mapper.drain rounds).mapper.buffer = [] := by
  induction rounds generalizing mapper with
  | zero => exact List.length_eq_zero_iff.mp (Nat.le_zero.mp enough)
  | succ rounds ih =>
    rw [drain] at ok ⊢
    split
    case isTrue empty => exact List.isEmpty_iff.mp empty
    case isFalse nonempty =>
      rw [if_neg nonempty] at ok
      cases ends : mapper.round.failure with
      | some failure =>
        rw [Outcome.andThen_of_failed ends, ends] at ok
        cases ok
      | none =>
        -- the rounds left are as many as the commands left
        have shrinks := round_shrinks sound (fun empty => nonempty (List.isEmpty_iff.mpr empty)) ends
        rw [Outcome.andThen_of_ok ends] at ok ⊢
        exact ih ((follows_round sound).sound sound) (by omega) ok

/-- Accepting a command goes step by step. -/
lemma follows_accept (sound : mapper.Sound) (command : Command) :
    mapper.Follows (mapper.accept command) := by
  rw [accept]
  split
  case isTrue flush =>
    refine (follows_drain sound _).andThen fun ok => ?_
    exact .single (.flush flush (buffer_drain sound (Nat.le_refl _) ok))
  case isFalse =>
    split
    case h_1 => exact .refl
    case h_2 buffered classified => exact .single (.accept classified)

/-- Take commands in, with no round at the end. -/
def takeIn : List Command → Mapper → Outcome
  | [], mapper => { mapper }
  | command :: rest, mapper => (mapper.accept command).andThen (takeIn rest)

/-- A call takes its batch in and ends with a round if the buffer is full. -/
lemma receive_eq (commands : List Command) (mapper : Mapper) :
    mapper.receive commands = (mapper.takeIn commands).andThen roundIfFull := by
  induction commands generalizing mapper with
  | nil =>
    rw [receive, takeIn, Outcome.andThen_of_ok rfl]
    rfl
  | cons command rest ih =>
    rw [receive, takeIn]
    cases ends : (mapper.accept command).failure with
    | some failure =>
      simp only [Outcome.andThen_of_failed ends]
    | none =>
      simp only [Outcome.andThen_of_ok ends, ih]
      cases ends' : ((mapper.accept command).mapper.takeIn rest).failure with
      | some failure => simp [Outcome.andThen, ends']
      | none => simp [Outcome.andThen, ends']

/-- Taking a batch in goes step by step. -/
lemma follows_takeIn (sound : mapper.Sound) (commands : List Command) :
    mapper.Follows (mapper.takeIn commands) := by
  induction commands generalizing mapper with
  | nil => exact .refl
  | cons command rest ih =>
    refine (follows_accept sound command).andThen fun _ => ih ?_
    exact (follows_accept sound command).sound sound

/-- A call goes step by step. -/
lemma follows_receive (sound : mapper.Sound) (commands : List Command) :
    mapper.Follows (mapper.receive commands) := by
  rw [receive_eq]
  refine (follows_takeIn sound commands).andThen fun _ => ?_
  rw [roundIfFull]
  split
  · exact follows_round ((follows_takeIn sound commands).sound sound)
  · exact .refl

end Mapper

/-! ### Sessions -/

/-- What can be asked of a mapper. -/
inductive Call where
  /-- Take a batch of commands in. -/
  | receive (commands : List Command)
  /-- Install a layout on hardware qubits. -/
  | install (layout : Layout QubitId)

/-- A mapper answers a call. A layout that cannot be installed changes nothing. -/
def Mapper.call (mapper : Mapper) : Call → Outcome
  | .receive commands => mapper.receive commands
  | .install layout =>
    match mapper.setLayout layout with
    | .ok after => { mapper := after }
    | .error error => { mapper, failure := some (.error error) }

/-- A mapper after some calls, with all that it did and how calls failed. -/
structure Session where
  /-- The mapper as it is now. -/
  mapper : Mapper
  /-- What the mapper did so far. -/
  log : List Event := []
  /-- How calls failed so far. -/
  failures : List Failure := []

/-- One more call. The session goes on if the call fails. -/
def Session.call (session : Session) (call : Call) : Session :=
  let outcome := session.mapper.call call
  { mapper := outcome.mapper
    log := session.log ++ outcome.log
    failures := session.failures ++ outcome.failure.toList }

/-- A session in the middle of a call: some commands of a batch were taken in, and some rounds followed. -/
def Session.midway (session : Session) (commands : List Command) (rounds : Nat) : Session :=
  let outcome := (session.mapper.takeIn commands).andThen (Mapper.drain rounds)
  { mapper := outcome.mapper
    log := session.log ++ outcome.log
    failures := session.failures ++ outcome.failure.toList }

/-- The session of a mapper that answers calls one after the other. -/
def Mapper.session (mapper : Mapper) (calls : List Call) : Session :=
  calls.foldl Session.call { mapper }

namespace Mapper

variable {mapper after : Mapper}

/-- Installing a layout changes nothing but the layout. -/
lemma eq_of_setLayout {layout : Layout QubitId} (installed : mapper.setLayout layout = .ok after) :
    ∃ positions, after = { mapper with layout := some positions } := by
  obtain ⟨positions, _, same⟩ := Checked.bind_eq_ok.mp installed
  cases same
  exact ⟨positions, rfl⟩

/-- A layout that is installed stays on the device. -/
lemma fits_of_setLayout (valid : mapper.router.Valid) {layout : Layout QubitId} {positions : Layout Nat}
    (installed : mapper.setLayout layout = .ok { mapper with layout := some positions }) :
    positions.Fits mapper.router.numQubits := by
  obtain ⟨placed, mapped, same⟩ := Checked.bind_eq_ok.mp installed
  cases same
  obtain ⟨pairs, moved, same⟩ := Checked.bind_eq_ok.mp mapped
  cases same
  apply Layout.fits_ofPairs
  intro pair mem
  obtain ⟨⟨q, hardware⟩, _, found⟩ := Checked.exists_of_forall₂ (Checked.forall₂_of_mapM moved) mem
  obtain ⟨position, looked, same⟩ := Checked.bind_eq_ok.mp found
  cases same
  dsimp only at looked
  split at looked
  case h_1 p here =>
    cases looked
    exact (valid.position?_eq_some.mp here).1
  case h_2 => cases looked

/-- The last call of a session is answered after all others. -/
lemma session_concat (mapper : Mapper) (calls : List Call) (call : Call) :
    mapper.session (calls ++ [call]) = (mapper.session calls).call call := by
  rw [session, List.foldl_append]
  rfl

/-- What every step and every installed layout keeps, every session keeps. -/
lemma session_keeps (Inv : List Event → Mapper → Prop)
    (step : ∀ {past log mapper after}, mapper.Sound → Inv past mapper → mapper.Step log after →
      Inv (past ++ log) after)
    (install : ∀ {past mapper positions}, Inv past mapper →
      Inv past { mapper with layout := some positions })
    (sound : mapper.Sound) (start : Inv [] mapper) (calls : List Call) :
    (mapper.session calls).mapper.Sound ∧
      Inv (mapper.session calls).log (mapper.session calls).mapper := by
  induction calls using List.reverseRecOn with
  | nil => exact ⟨sound, start⟩
  | append_singleton calls call ih =>
    obtain ⟨sound, inv⟩ := ih
    rw [session_concat, Session.call]
    cases call with
    | receive commands =>
      have run := follows_receive sound commands
      exact ⟨run.sound sound, run.keeps Inv step sound inv⟩
    | install layout =>
      rw [Mapper.call]
      dsimp only
      cases installed : (mapper.session calls).mapper.setLayout layout with
      | error error =>
        rw [List.append_nil]
        exact ⟨sound, inv⟩
      | ok after =>
        rw [List.append_nil]
        obtain ⟨positions, rfl⟩ := eq_of_setLayout installed
        refine ⟨⟨sound.valid, ?_⟩, install inv⟩
        rintro _ ⟨⟩
        exact fits_of_setLayout sound.valid installed

/-- Layouts that are installed first are all that changes. -/
lemma session_installs (mapper : Mapper) (layouts : List (Layout QubitId)) :
    ∃ layout, (mapper.session (layouts.map .install)).mapper = { mapper with layout } ∧
      (mapper.session (layouts.map .install)).log = [] := by
  induction layouts using List.reverseRecOn with
  | nil => exact ⟨mapper.layout, rfl, rfl⟩
  | append_singleton layouts last ih =>
    obtain ⟨layout, same, empty⟩ := ih
    rw [List.map_append, List.map_singleton, session_concat, Session.call, Mapper.call]
    dsimp only
    cases installed : (mapper.session (layouts.map .install)).mapper.setLayout last with
    | error error => exact ⟨layout, same, by rw [empty]; rfl⟩
    | ok after =>
      obtain ⟨positions, rfl⟩ := eq_of_setLayout installed
      exact ⟨some positions, by rw [same], by rw [empty]; rfl⟩

/-- Batches in a row go step by step from where the calls before them end. -/
lemma steps_receives (calls : List Call) (sound : (mapper.session calls).mapper.Sound)
    (batches : List (List Command)) :
    ∃ log, (mapper.session (calls ++ batches.map .receive)).log = (mapper.session calls).log ++ log ∧
      Steps (mapper.session calls).mapper log (mapper.session (calls ++ batches.map .receive)).mapper := by
  induction batches using List.reverseRecOn with
  | nil =>
    rw [List.map_nil, List.append_nil]
    exact ⟨[], (List.append_nil _).symm, .refl⟩
  | append_singleton batches last ih =>
    obtain ⟨log, eq, run⟩ := ih
    rw [List.map_append, List.map_singleton, ← List.append_assoc, session_concat, Session.call]
    refine ⟨log ++ _, ?_, run.trans (follows_receive (run.sound sound) last)⟩
    rw [eq, List.append_assoc]
    rfl

/-- A call that is under way has taken steps. -/
lemma steps_midway {session : Session} (sound : session.mapper.Sound) (commands : List Command)
    (rounds : Nat) : ∃ log, (session.midway commands rounds).log = session.log ++ log ∧
      Steps session.mapper log (session.midway commands rounds).mapper := by
  have taken := follows_takeIn sound commands
  exact ⟨_, rfl, taken.andThen fun _ => follows_drain (taken.sound sound) rounds⟩

/-- A fresh mapper is sound. -/
lemma Fresh.sound (fresh : mapper.Fresh) : mapper.Sound := by
  refine ⟨fresh.valid, fun here => ?_⟩
  rw [fresh.layout_eq] at here
  cases here

end Mapper

end QubitRouting
