import QubitRouting.Proofs.Renaming.Plan
import QubitRouting.Proofs.Session

/-!
# Routing only depends on the order of the qubits

Mappers that take in corresponding commands stay in correspondence: they send the same commands to the
same hardware qubits, up to the logical qubits that these name, they fail alike, and they count the same
swaps.
-/

namespace QubitRouting

open List (Forall₂)

variable {R : QubitId → QubitId → Prop} {q q' : QubitId}

/-! ### Commands -/

/-- Commands that do the same to corresponding qubits. They name no logical qubits, and a flush has no
qubits at all. -/
structure Command.Rel (R : QubitId → QubitId → Prop) (command command' : Command) : Prop where
  kind : command.kind = command'.kind
  registers : Forall₂ (Forall₂ R) command.registers command'.registers
  controls : Forall₂ R command.controls command'.controls
  tags : command.tags = command'.tags
  unnamed : command.logicalTag? = none
  bare : command.isFlush = true → command.qubits = []

/-- Tags that name corresponding logical qubits, or have the same label. -/
inductive Tag.Rel (R : QubitId → QubitId → Prop) : Tag → Tag → Prop
  | logicalQubit {q q' : QubitId} : R q q' → Tag.Rel R (.logicalQubit q) (.logicalQubit q')
  | label (text : String) : Tag.Rel R (.label text) (.label text)

/-- The same commands on hardware qubits, up to the logical qubits that they name. -/
structure Command.SentRel (R : QubitId → QubitId → Prop) (command command' : Command) : Prop where
  kind : command.kind = command'.kind
  registers : command.registers = command'.registers
  controls : command.controls = command'.controls
  tags : Forall₂ (Tag.Rel R) command.tags command'.tags

/-- Refusals of corresponding commands for the same cause. -/
inductive CommandError.Rel (R : QubitId → QubitId → Prop) : CommandError → CommandError → Prop
  | qubitCountMismatch (name : String) (expected actual : Nat) :
      Rel R (.qubitCountMismatch name expected actual) (.qubitCountMismatch name expected actual)
  | duplicateQubit {q q' : QubitId} (name : String) : R q q' →
      Rel R (.duplicateQubit q name) (.duplicateQubit q' name)
  | emptyCommand (name : String) : Rel R (.emptyCommand name) (.emptyCommand name)

/-- Failures for the same cause. -/
inductive Failure.Rel (R : QubitId → QubitId → Prop) : Failure → Failure → Prop
  | fault (cause : Fault) : Rel R (.fault cause) (.fault cause)
  | command {cause cause' : CommandError} : CommandError.Rel R cause cause' →
      Rel R (.error (.command cause)) (.error (.command cause'))
  | malformed {command command' : Command} : Command.Rel R command command' →
      Rel R (.error (.malformed command)) (.error (.malformed command'))
  | noProgress (remaining : Nat) : Rel R (.error (.noProgress remaining)) (.error (.noProgress remaining))

namespace Command.Rel

variable {command command' : Command}

/-- Corresponding commands have corresponding targets. -/
lemma targets (rel : Command.Rel R command command') : Forall₂ R command.targets command'.targets :=
  List.rel_flatten rel.registers

/-- Corresponding commands act on corresponding qubits. -/
lemma qubits (rel : Command.Rel R command command') : Forall₂ R command.qubits command'.qubits :=
  List.rel_append rel.controls rel.targets

/-- Corresponding commands have the same name. -/
lemma name_eq (rel : Command.Rel R command command') : command.name = command'.name := by
  rw [name, name, rel.kind]

/-- Corresponding commands are flushes alike. -/
lemma isFlush_eq (rel : Command.Rel R command command') : command.isFlush = command'.isFlush := by
  rw [isFlush, isFlush, rel.kind]

/-- The first repetitions in corresponding lists correspond. -/
lemma firstRepeated?_rel (keeps : KeepsOrder R) {seen seen' qubits qubits' : List QubitId}
    (before : Forall₂ R seen seen') (listed : Forall₂ R qubits qubits') :
    Option.Rel R (firstRepeated? seen qubits) (firstRepeated? seen' qubits') := by
  induction listed generalizing seen seen' with
  | nil => exact .none
  | cons head _ ih =>
    simp only [firstRepeated?, keeps.mem_iff head before]
    split
    · exact .some head
    · exact ih (.cons head before)

/-- The operands of corresponding commands pass their check alike, or are refused for the same cause. -/
lemma checkOperands (keeps : KeepsOrder R) (rel : Command.Rel R command command') (expected : Nat) :
    ResultRel (CommandError.Rel R) Eq (command.checkOperands expected) (command'.checkOperands expected) := by
  have repeated := firstRepeated?_rel keeps .nil rel.qubits
  rw [Command.checkOperands, Command.checkOperands, numQubits, numQubits, rel.qubits.length_eq, rel.name_eq,
    rel.targets.length_eq]
  split
  · exact .error (.emptyCommand _)
  · split
    · exact .error (.qubitCountMismatch _ _ _)
    · obtain ⟨none_found, none_found'⟩ | ⟨q, q', found, found', here⟩ := cases_of_rel repeated
      · rw [none_found, none_found']
        exact .ok rfl
      · rw [found, found']
        exact .error (.duplicateQubit _ here)

/-- Corresponding commands are well formed alike, or refused for the same cause. -/
lemma validate (keeps : KeepsOrder R) (rel : Command.Rel R command command') :
    ResultRel (CommandError.Rel R) Eq command.validate command'.validate := by
  have uncontrolled : command.controls.isEmpty = command'.controls.isEmpty := by
    cases command
    cases command'
    cases rel.controls <;> rfl
  rw [Command.validate, Command.validate, rel.kind, uncontrolled, numQubits, numQubits,
    rel.qubits.length_eq, rel.name_eq]
  split
  · exact .ok rfl
  · exact rel.checkOperands keeps _
  all_goals
    split
    · exact rel.checkOperands keeps _
    · exact .error (.qubitCountMismatch _ _ _)

end Command.Rel

/-- Corresponding commands in the buffer. The shape lists the qubits of the command. -/
structure Buffered.Rel (R : QubitId → QubitId → Prop) (b b' : Buffered) : Prop where
  command : Command.Rel R b.command b'.command
  shape : Shape.Rel R b.shape b'.shape
  operands : b.command.qubits = b.shape.qubits

/-- Corresponding commands are buffered alike, or refused for the same cause. -/
lemma classify_rel (keeps : KeepsOrder R) {command command' : Command}
    (rel : Command.Rel R command command') :
    ResultRel (fun cause cause' => Failure.Rel R (.error cause) (.error cause')) (Buffered.Rel R)
      (Buffered.classify command) (Buffered.classify command') := by
  have checked := rel.validate keeps
  have listed := rel.qubits
  rw [Buffered.classify, Buffered.classify, rel.isFlush_eq, rel.kind]
  split
  · exact .error (.malformed rel)
  · generalize operands : command.qubits = qubits, command'.qubits = qubits' at listed
    generalize command.validate = one, command'.validate = other at checked
    cases listed with
    | nil => exact .error (.malformed rel)
    | cons first rest =>
      cases rest with
      | nil =>
        cases checked with
        | error cause => exact .error (.command cause)
        | ok =>
          dsimp only
          split
          · exact .ok ⟨rel, .allocate first, operands⟩
          · exact .ok ⟨rel, .deallocate first, operands⟩
          · exact .ok ⟨rel, .single first, operands⟩
      | cons second rest =>
        cases rest with
        | nil =>
          cases checked with
          | error cause => exact .error (.command cause)
          | ok => exact .ok ⟨rel, .pair first second, operands⟩
        | cons => exact .error (.malformed rel)

/-! ### Dispatch -/

section Sending

variable {command command' : Command} {layout layout' : Layout Nat}

/-- Tags that name no logical qubits stay as they are. -/
lemma tags_rel {tags : List Tag}
    (unnamed : (tags.findSome? fun | .logicalQubit q => some q | .label _ => none) = none) :
    Forall₂ (Tag.Rel R) tags tags := by
  rw [List.forall₂_same]
  intro tag mem
  cases tag with
  | label text => exact .label text
  | logicalQubit q => cases List.findSome?_eq_none_iff.mp unnamed _ mem

/-- Names that agree for corresponding qubits carry corresponding commands to the same one. -/
lemma mapQubits_eq (rel : Command.Rel R command command') {f g : QubitId → QubitId}
    (same : ∀ q ∈ command.qubits, ∀ q', R q q' → f q = g q') :
    command.mapQubits f = command'.mapQubits g := by
  have registers : command.registers.map (fun register => register.map f)
      = command'.registers.map fun register => register.map g := by
    refine map_eq_of_rel rel.registers fun register mem register' listed => ?_
    refine map_eq_of_rel listed fun q inRegister => same q ?_
    exact List.mem_append_right _ (List.mem_flatten_of_mem mem inRegister)
  have controls : command.controls.map f = command'.controls.map g :=
    map_eq_of_rel rel.controls fun q mem => same q (List.mem_append_left _ mem)
  rw [Command.mapQubits, Command.mapQubits, registers, controls, rel.kind, rel.tags]

/-- The logical qubit that a measurement names. -/
def Command.measured (command : Command) : List Tag :=
  if command.isMeasure then command.firstTarget?.toList.map .logicalQubit else []

/-- A command that names no logical qubit goes out with its qubits renamed, a measurement with a tag. -/
lemma onHardware_of_unnamed (unnamed : command.logicalTag? = none) (router : Router) :
    Dispatch.onHardware router layout command
      = { command.mapQubits (Dispatch.rename router layout) with tags := command.tags ++ command.measured } := by
  rw [Dispatch.onHardware, Command.measured]
  dsimp only
  split
  case h_1 q measure target _ =>
    rw [measure, target]
    rfl
  case h_2 other =>
    cases measure : command.isMeasure with
    | false => exact congrArg _ (List.append_nil _).symm
    | true =>
      cases target : command.firstTarget? with
      | none => exact congrArg _ (List.append_nil _).symm
      | some q => exact absurd unnamed (other q measure target)

/-- A command whose qubits all have positions is sent to the same hardware qubits as its partner. -/
lemma onHardware_rel (keeps : KeepsOrder R) (rel : Command.Rel R command command')
    (same : Layout.Rel R layout layout') (placed : ∀ q ∈ command.qubits, ∃ p, layout.position? q = some p)
    (router : Router) :
    Command.SentRel R (Dispatch.onHardware router layout command)
      (Dispatch.onHardware router layout' command') := by
  have renamed : command.mapQubits (Dispatch.rename router layout)
      = command'.mapQubits (Dispatch.rename router layout') := by
    refine mapQubits_eq rel fun q mem q' here => ?_
    obtain ⟨p, found⟩ := placed q mem
    rw [Dispatch.rename_eq found, Dispatch.rename_eq ((same.position?_eq keeps here).symm.trans found)]
  have measured : Forall₂ (Tag.Rel R) command.measured command'.measured := by
    rw [Command.measured, Command.measured, Command.isMeasure, Command.isMeasure, rel.kind]
    split
    · obtain ⟨missing, missing'⟩ | ⟨q, q', found, found', here⟩ := cases_of_rel (head?_rel rel.targets)
      · rw [Command.firstTarget?, Command.firstTarget?, missing, missing']
        exact .nil
      · rw [Command.firstTarget?, Command.firstTarget?, found, found']
        exact .cons (.logicalQubit here) .nil
    · exact .nil
  have unnamed : command'.logicalTag? = none := by
    rw [Command.logicalTag?, ← rel.tags]
    exact rel.unnamed
  rw [onHardware_of_unnamed rel.unnamed, onHardware_of_unnamed unnamed, renamed, rel.tags]
  exact ⟨rfl, rfl, rfl, List.rel_append (tags_rel unnamed) measured⟩

end Sending

namespace Dispatch

variable {state state' : State} {b b' : Buffered}

/-- Corresponding qubits, placed and active alike. -/
structure State.Rel (R : QubitId → QubitId → Prop) (state state' : State) : Prop where
  layout : Layout.Rel R state.layout state'.layout
  allocated : OrderedSet.Rel R state.allocated state'.allocated
  active : OrderedSet.Rel R state.active state'.active

/-- Passes under corresponding layouts start from corresponding states. -/
lemma State.Rel.start (keeps : KeepsOrder R) {layout layout' : Layout Nat}
    {allocated allocated' : OrderedSet QubitId} (rel : Layout.Rel R layout layout')
    (same : OrderedSet.Rel R allocated allocated') :
    State.Rel R (start layout allocated) (start layout' allocated') :=
  ⟨rel, same, same.insertAll keeps rel.qubits⟩

/-- Corresponding commands can run alike. -/
lemma executable_eq (keeps : KeepsOrder R) (rel : State.Rel R state state') {shape shape' : Shape}
    (same : Shape.Rel R shape shape') (router : Router) :
    executable router state shape = executable router state' shape' := by
  have ready : (shape.qubits.all fun q => state.active.contains q && state.layout.contains q)
      = shape'.qubits.all fun q => state'.active.contains q && state'.layout.contains q := by
    refine all_eq_of_rel same.qubits fun q q' here => ?_
    rw [rel.active.contains_eq keeps here, rel.layout.contains_eq keeps here]
  unfold executable
  rw [ready]
  cases same with
  | allocate | deallocate | single => rfl
  | pair first second =>
    simp only [rel.layout.position?_eq keeps first, rel.layout.position?_eq keeps second]

/-- The qubits of a command that can run have positions. -/
lemma placed_of_executable {router : Router} {shape : Shape}
    (runs : executable router state shape = .ok true) {q : QubitId} (mem : q ∈ shape.qubits) :
    ∃ p, state.layout.position? q = some p := by
  unfold executable at runs
  split at runs
  case isTrue ready => exact (all_ready_iff.mp ready q mem).2
  case isFalse => cases runs

/-- What becomes of a command: the state, and what was forwarded. -/
def StepRel (R : QubitId → QubitId → Prop) (result result' : State × Option Command) : Prop :=
  State.Rel R result.1 result'.1 ∧ Option.Rel (Command.SentRel R) result.2 result'.2

/-- Corresponding commands are forwarded or kept alike. -/
lemma step_rel (keeps : KeepsOrder R) (rel : State.Rel R state state') (same : Buffered.Rel R b b')
    (router : Router) : ResultRel Eq (StepRel R) (step router state b) (step router state' b') := by
  have runs := executable_eq keeps rel same.shape router
  have sent (ok : executable router state b.shape = .ok true) :
      Command.SentRel R (onHardware router state.layout b.command)
        (onHardware router state'.layout b'.command) := by
    refine onHardware_rel keeps same.command rel.layout (fun q mem => ?_) router
    exact placed_of_executable ok (same.operands ▸ mem)
  have erased := rel.active.foldl_erase keeps same.shape.qubits
  obtain ⟨command, shape⟩ := b
  obtain ⟨command', shape'⟩ := b'
  obtain ⟨_, shapes, _⟩ := same
  dsimp only at shapes runs sent erased
  -- corresponding shapes are of the same kind, so both sides take the same branch
  cases shapes with
  | allocate here =>
    simp only [step, rel.layout.position?_eq keeps here]
    split
    · exact .ok ⟨{ rel with allocated := rel.allocated.insert keeps here },
        .some ⟨rfl, rfl, rfl, .cons (.logicalQubit here) .nil⟩⟩
    · exact .ok ⟨rel, .none⟩
  | deallocate here =>
    simp only [step, rel.layout.position?_eq keeps here, rel.active.contains_eq keeps here]
    split
    · exact .ok ⟨⟨rel.layout.erase keeps here, rel.allocated.erase keeps here, rel.active.erase keeps here⟩,
        .some ⟨rfl, rfl, rfl, .cons (.logicalQubit here) .nil⟩⟩
    · exact .ok ⟨rel, .none⟩
  | single | pair =>
    simp only [step, ← runs]
    split
    case h_1 => exact .error rfl
    case h_2 ok => exact .ok ⟨rel, .some (sent ok)⟩
    case h_3 => exact .ok ⟨{ rel with active := erased }, .none⟩

/-- Corresponding commands, kept or forwarded alike. -/
structure Handled.Rel (R : QubitId → QubitId → Prop) (handled handled' : Handled) : Prop where
  buffered : Buffered.Rel R handled.buffered handled'.buffered
  forwarded : Option.Rel (Command.SentRel R) handled.forwarded handled'.forwarded

/-- Corresponding buffers are handled alike. -/
lemma handle_rel (keeps : KeepsOrder R) (rel : State.Rel R state state') {buffer buffer' : List Buffered}
    (listed : Forall₂ (Buffered.Rel R) buffer buffer') (router : Router) :
    ResultRel Eq
      (fun result result' => State.Rel R result.1 result'.1 ∧ Forall₂ (Handled.Rel R) result.2 result'.2)
      (handle router state buffer) (handle router state' buffer') := by
  induction listed generalizing state state' with
  | nil => exact .ok ⟨rel, .nil⟩
  | cons head rest ih =>
    rw [handle, handle, rel.active.isEmpty_eq]
    split
    · exact .ok ⟨rel, List.rel_map (fun _ _ here => ⟨here, .none⟩) (.cons head rest)⟩
    · refine (step_rel keeps rel head router).bind fun _ _ after => ?_
      refine (ih after.1).bind fun _ _ later => ?_
      exact .ok ⟨later.1, .cons ⟨head, after.2⟩ later.2⟩

/-- What is kept of corresponding buffers corresponds. -/
lemma kept_rel {handled handled' : List Handled} (listed : Forall₂ (Handled.Rel R) handled handled') :
    Forall₂ (Buffered.Rel R) (kept handled) (kept handled') := by
  refine List.rel_map (fun _ _ here => here.buffered) (filter_rel listed ?_)
  intro one other here
  obtain ⟨missing, missing'⟩ | ⟨c, c', found, found', _⟩ := cases_of_rel here.forwarded
  · rw [missing, missing']
  · rw [found, found']
    rfl

end Dispatch

/-! ### Mappers -/

/-- Events that send the same command, up to the logical qubits that it names, or none. -/
def Event.Rel (R : QubitId → QubitId → Prop) (event event' : Event) : Prop :=
  Option.Rel (Command.SentRel R) event.sent? event'.sent?

/-- Mappers on the same device that took in corresponding commands. -/
structure Mapper.Rel (R : QubitId → QubitId → Prop) (mapper mapper' : Mapper) : Prop where
  router : mapper.router = mapper'.router
  storage : mapper.storage = mapper'.storage
  buffer : Forall₂ (Buffered.Rel R) mapper.buffer mapper'.buffer
  layout : Option.Rel (Layout.Rel R) mapper.layout mapper'.layout
  allocated : OrderedSet.Rel R mapper.allocated mapper'.allocated
  statistics : mapper.statistics = mapper'.statistics

/-- Calls that lead to corresponding mappers, send the same and fail alike. -/
structure Outcome.Rel (R : QubitId → QubitId → Prop) (outcome outcome' : Outcome) : Prop where
  mapper : Mapper.Rel R outcome.mapper outcome'.mapper
  log : Forall₂ (Event.Rel R) outcome.log outcome'.log
  failure : Option.Rel (Failure.Rel R) outcome.failure outcome'.failure

/-- Outcomes that correspond in both parts correspond. -/
lemma Outcome.Rel.andThen {outcome outcome' : Outcome} {next next' : Mapper → Outcome}
    (rel : Outcome.Rel R outcome outcome')
    (more : Outcome.Rel R (next outcome.mapper) (next' outcome'.mapper)) :
    Outcome.Rel R (outcome.andThen next) (outcome'.andThen next') := by
  obtain ⟨ok, ok'⟩ | ⟨failure, failure', failed, failed', _⟩ := cases_of_rel rel.failure
  · rw [andThen_of_ok ok, andThen_of_ok ok']
    exact ⟨more.mapper, List.rel_append rel.log more.log, more.failure⟩
  · rw [andThen_of_failed failed, andThen_of_failed failed']
    exact rel

namespace Mapper

variable {mapper mapper' : Mapper} {layout layout' : Layout Nat}

/-- Corresponding mappers that do nothing correspond. -/
lemma Rel.rest (rel : Rel R mapper mapper') : Outcome.Rel R { mapper } { mapper := mapper' } :=
  ⟨rel, .nil, .none⟩

/-- Corresponding mappers have as many commands waiting. -/
lemma Rel.length_eq (rel : Rel R mapper mapper') : mapper.buffer.length = mapper'.buffer.length :=
  rel.buffer.length_eq

/-- Corresponding mappers have empty buffers alike. -/
lemma Rel.isEmpty_eq (rel : Rel R mapper mapper') : mapper.buffer.isEmpty = mapper'.buffer.isEmpty := by
  cases mapper
  cases mapper'
  cases rel.buffer <;> rfl

/-- Corresponding mappers dispatch alike. -/
lemma dispatch_rel (keeps : KeepsOrder R) (rel : Rel R mapper mapper') (same : Layout.Rel R layout layout') :
    Outcome.Rel R (mapper.dispatch layout) (mapper'.dispatch layout') := by
  have run := Dispatch.handle_rel keeps (.start keeps same rel.allocated) rel.buffer mapper'.router
  rw [dispatch, dispatch, rel.router]
  generalize Dispatch.handle mapper'.router (Dispatch.start layout mapper.allocated) mapper.buffer = one,
    Dispatch.handle mapper'.router (Dispatch.start layout' mapper'.allocated) mapper'.buffer = other at run
  cases run with
  | error fault =>
    cases fault
    exact ⟨rel, .nil, .some (.fault _)⟩
  | @ok result result' here =>
    obtain ⟨states, handled⟩ := here
    refine ⟨?_, ?_, .none⟩
    · exact ⟨rfl, rel.storage, Dispatch.kept_rel handled, .some states.layout, states.allocated,
        rel.statistics⟩
    · refine List.rel_filterMap ?_ handled
      intro one other here
      rw [Event.ofHandled?, Event.ofHandled?]
      obtain ⟨missing, missing'⟩ | ⟨c, c', found, found', sent⟩ := cases_of_rel here.forwarded
      · rw [missing, missing']
        exact .none
      · rw [found, found']
        exact .some (.some sent)

/-- Corresponding mappers have the same idle positions. -/
lemma idle_eq (keeps : KeepsOrder R) (rel : Rel R mapper mapper') (same : Layout.Rel R layout layout') :
    mapper.idle layout = mapper'.idle layout' := by
  have occupied_eq : mapper.occupied layout = mapper'.occupied layout' := by
    rw [occupied, occupied, ← List.forall₂_eq_eq_eq]
    refine List.rel_filterMap (fun q q' here => ?_) rel.allocated
    rw [same.position?_eq keeps here]
    cases layout'.position? q' with
    | none => exact .none
    | some p => exact .some rfl
  rw [idle, idle, occupied_eq, rel.router]

/-- Corresponding mappers send the same swaps. -/
lemma emitSwaps_rel (keeps : KeepsOrder R) (rel : Rel R mapper mapper') (same : Layout.Rel R layout layout')
    {plan plan' : Plan} (plans : Plan.Rel R plan plan') :
    Outcome.Rel R (mapper.emitSwaps layout plan) (mapper'.emitSwaps layout' plan') := by
  have commands : mapper.swapCommands layout plan = mapper'.swapCommands layout' plan' := by
    rw [swapCommands, swapCommands, idle_eq keeps rel same, idle_eq keeps rel plans.layout, rel.router,
      plans.swaps]
  rw [emitSwaps, emitSwaps, plans.swaps, commands]
  split
  · exact rel.rest
  · refine ⟨{ rel with statistics := congrArg (Statistics.record · _) rel.statistics }, ?_, .none⟩
    rw [List.forall₂_same]
    intro event mem
    obtain ⟨command, inPlan, rfl⟩ := List.mem_map.mp mem
    -- what is inserted has no tags
    refine .some ⟨rfl, rfl, rfl, ?_⟩
    rcases mem_swapCommands inPlan with ⟨q, rfl⟩ | ⟨a, b, rfl⟩ | ⟨q, rfl⟩ <;> exact .nil

/-- Corresponding mappers make progress alike. -/
lemma checkProgress_rel (rel : Rel R mapper mapper') (before : Nat) :
    Outcome.Rel R (mapper.checkProgress before) (mapper'.checkProgress before) := by
  rw [checkProgress, checkProgress, rel.length_eq]
  split
  · exact ⟨rel, .nil, .some (.noProgress _)⟩
  · exact rel.rest

/-- Corresponding mappers change layouts alike. -/
lemma remap_rel (keeps : KeepsOrder R) (rel : Rel R mapper mapper') (valid : mapper.router.Valid)
    (fits : layout.Fits mapper.router.numQubits) (same : Layout.Rel R layout layout') (before : Nat) :
    Outcome.Rel R (mapper.remap before layout) (mapper'.remap before layout') := by
  have input : PlanInput.Rel R ⟨mapper.allocated, mapper.buffer, layout⟩
      ⟨mapper'.allocated, mapper'.buffer, layout'⟩ :=
    ⟨rel.allocated, rel.buffer.imp fun _ _ here => here.shape, same⟩
  obtain ⟨plans, routers⟩ := mapper.router.plan_rel keeps input
  obtain ⟨swaps, planned, _⟩ : ∃ swaps, (mapper.router.plan ⟨mapper.allocated, mapper.buffer, layout⟩).1
      = .ok ⟨mapper.router.next ⟨mapper.allocated, mapper.buffer, layout⟩, swaps⟩ ∧ _ :=
    valid.regular.plan_eq fits
  have partner : ∃ plan', (mapper'.router.plan ⟨mapper'.allocated, mapper'.buffer, layout'⟩).1 = .ok plan' ∧
      Plan.Rel R ⟨mapper.router.next ⟨mapper.allocated, mapper.buffer, layout⟩, swaps⟩ plan' := by
    rw [planned] at plans
    rw [← rel.router]
    generalize (mapper.router.plan ⟨mapper'.allocated, mapper'.buffer, layout'⟩).1 = result at plans
    cases plans with
    | ok here => exact ⟨_, rfl, here⟩
  obtain ⟨plan', planned', plans⟩ := partner
  rw [remap_of_plan before planned, remap_of_plan before planned', ← rel.router, ← routers]
  have ready : Rel R
      { mapper with router := (mapper.router.plan ⟨mapper.allocated, mapper.buffer, layout⟩).2 }
      { mapper' with router := (mapper.router.plan ⟨mapper.allocated, mapper.buffer, layout⟩).2 } :=
    { rel with router := rfl }
  have emitted := emitSwaps_rel keeps ready same plans
  have sent := emitted.andThen (dispatch_rel keeps emitted.mapper plans.layout)
  exact sent.andThen (checkProgress_rel sent.mapper before)

/-- The present layouts of corresponding mappers correspond. -/
lemma Rel.current (rel : Rel R mapper mapper') : Layout.Rel R mapper.current mapper'.current := by
  rw [Mapper.current, Mapper.current]
  obtain ⟨missing, missing'⟩ | ⟨layout, layout', found, found', same⟩ := cases_of_rel rel.layout
  · rw [missing, missing']
    exact .empty
  · rw [found, found']
    exact same

/-- Dispatch leaves a sound mapper sound. -/
lemma sound_dispatch (sound : mapper.Sound) (here : mapper.layout = some layout) :
    (mapper.dispatch layout).mapper.Sound := by
  obtain ⟨log, after, dispatched, run⟩ := dispatch_eq mapper sound.valid layout
  have same : { mapper with layout := some layout } = mapper := by rw [← here]
  rw [same] at dispatched
  rw [run]
  exact (Step.dispatch dispatched).sound sound

/-- Corresponding mappers run rounds alike. -/
lemma round_rel (keeps : KeepsOrder R) (rel : Rel R mapper mapper') (sound : mapper.Sound) :
    Outcome.Rel R mapper.round mapper'.round := by
  rw [round, round, rel.length_eq]
  obtain ⟨missing, missing'⟩ | ⟨layout, layout', found, found', same⟩ := cases_of_rel rel.layout
  · rw [missing, missing']
    exact remap_rel keeps rel sound.valid (Layout.fits_empty _) .empty _
  · rw [found, found']
    have dispatched := dispatch_rel keeps rel same
    refine dispatched.andThen ?_
    rw [dispatched.mapper.isEmpty_eq]
    split
    · exact dispatched.mapper.rest
    · have after := sound_dispatch sound found
      exact remap_rel keeps dispatched.mapper after.valid after.fits_current dispatched.mapper.current _

/-- Corresponding mappers drain their buffers alike. -/
lemma drain_rel (keeps : KeepsOrder R) (rel : Rel R mapper mapper') (sound : mapper.Sound) (rounds : Nat) :
    Outcome.Rel R (mapper.drain rounds) (mapper'.drain rounds) := by
  induction rounds generalizing mapper mapper' with
  | zero => exact rel.rest
  | succ rounds ih =>
    rw [drain, drain, rel.isEmpty_eq]
    split
    · exact rel.rest
    · have first := round_rel keeps rel sound
      exact first.andThen (ih first.mapper ((follows_round sound).sound sound))

/-- A flush without qubits is passed on as it is. -/
lemma flushed_rel {command command' : Command} (rel : Command.Rel R command command')
    (flush : command.isFlush = true) : Command.SentRel R command command' := by
  obtain ⟨uncontrolled, untargeted⟩ := List.append_eq_nil_iff.mp (rel.bare flush)
  have registers : command.registers.map id = command'.registers.map id := by
    refine map_eq_of_rel rel.registers fun register mem register' listed => ?_
    obtain rfl := List.flatten_eq_nil_iff.mp untargeted register mem
    exact (List.forall₂_nil_left_iff.mp listed).symm
  have controls := rel.controls
  rw [uncontrolled, List.forall₂_nil_left_iff] at controls
  rw [List.map_id, List.map_id] at registers
  exact ⟨rel.kind, registers, uncontrolled.trans controls.symm, rel.tags ▸ tags_rel rel.unnamed⟩

/-- Corresponding mappers accept corresponding commands alike. -/
lemma accept_rel (keeps : KeepsOrder R) (rel : Rel R mapper mapper') (sound : mapper.Sound)
    {command command' : Command} (same : Command.Rel R command command') :
    Outcome.Rel R (mapper.accept command) (mapper'.accept command') := by
  rw [accept, accept, ← same.isFlush_eq, rel.length_eq]
  split
  case isTrue flush =>
    have drained := drain_rel keeps rel sound mapper'.buffer.length
    refine drained.andThen ⟨drained.mapper, .cons ?_ .nil, .none⟩
    exact .some (flushed_rel same flush)
  case isFalse =>
    have classified := classify_rel keeps same
    generalize Buffered.classify command = one, Buffered.classify command' = other at classified
    cases classified with
    | error cause => exact ⟨rel, .nil, .some cause⟩
    | ok here =>
      refine ⟨{ rel with buffer := List.rel_append rel.buffer (.cons here .nil) }, ?_, .none⟩
      exact .cons .none .nil

/-- Corresponding mappers end a call alike. -/
lemma roundIfFull_rel (keeps : KeepsOrder R) (rel : Rel R mapper mapper') (sound : mapper.Sound) :
    Outcome.Rel R mapper.roundIfFull mapper'.roundIfFull := by
  rw [roundIfFull, roundIfFull, rel.isEmpty_eq, rel.length_eq, rel.storage]
  split
  · exact round_rel keeps rel sound
  · exact rel.rest

/-- Calls with corresponding commands have corresponding outcomes. -/
lemma receive_rel (keeps : KeepsOrder R) (rel : Rel R mapper mapper') (sound : mapper.Sound)
    {commands commands' : List Command} (listed : Forall₂ (Command.Rel R) commands commands') :
    Outcome.Rel R (mapper.receive commands) (mapper'.receive commands') := by
  induction listed generalizing mapper mapper' with
  | nil => exact roundIfFull_rel keeps rel sound
  | cons head _ ih =>
    have first := accept_rel keeps rel sound head
    exact first.andThen (ih first.mapper ((follows_accept sound _).sound sound))

/-- Sessions of corresponding batches lead to corresponding mappers. -/
lemma session_rel (keeps : KeepsOrder R) (rel : Rel R mapper mapper') (sound : mapper.Sound)
    {batches batches' : List (List Command)} (listed : Forall₂ (Forall₂ (Command.Rel R)) batches batches') :
    Rel R (mapper.session (batches.map .receive)).mapper
      (mapper'.session (batches'.map .receive)).mapper := by
  have each {session session' : Session} (rel : Rel R session.mapper session'.mapper)
      (sound : session.mapper.Sound) :
      Rel R ((batches.map .receive).foldl Session.call session).mapper
        ((batches'.map .receive).foldl Session.call session').mapper := by
    induction listed generalizing session session' with
    | nil => exact rel
    | cons head _ ih =>
      exact ih (receive_rel keeps rel sound head).mapper ((follows_receive sound _).sound sound)
  exact each rel sound

end Mapper

/-! ### Renaming -/

section Renaming

variable {f : QubitId → QubitId} {ids : List QubitId}

/-- Rename the logical qubit that a tag names. -/
def Tag.rename (f : QubitId → QubitId) : Tag → Tag
  | logicalQubit q => logicalQubit (f q)
  | label text => label text

/-- Rename the logical qubits that a command names. The qubits it acts on stay. -/
def Command.renameTags (f : QubitId → QubitId) (command : Command) : Command :=
  { command with tags := command.tags.map (Tag.rename f) }

/-- Rename the qubits in the report of a command that is not well formed. -/
def CommandError.rename (f : QubitId → QubitId) : CommandError → CommandError
  | duplicateQubit q name => duplicateQubit (f q) name
  | cause => cause

/-- Rename the qubits in the report of a failure. -/
def Failure.rename (f : QubitId → QubitId) : Failure → Failure
  | error (.command cause) => error (.command (cause.rename f))
  | error (.malformed command) => error (.malformed (command.mapQubits f))
  | failure => failure

/-- A layout with its logical qubits renamed. -/
structure Layout.Renamed {P : Type} [Ranked P] (f : QubitId → QubitId) (layout renamed : Layout P) :
    Prop where
  positions : renamed.positions.entries = layout.positions.entries.map fun entry => (f entry.1, entry.2)
  occupants : renamed.occupants.entries = layout.occupants.entries.map fun entry => (entry.1, f entry.2)

/-- What can be seen of a call after the logical qubits were renamed: it fails for the same cause, sends
the same commands but for the logical qubits that they name, and leaves the renamed layout, the renamed
allocated qubits and the same statistics. -/
structure Outcome.Renamed (f : QubitId → QubitId) (outcome renamed : Outcome) : Prop where
  failure : renamed.failure = outcome.failure.map (Failure.rename f)
  sent : renamed.sent = outcome.sent.map (Command.renameTags f)
  layout : Option.Rel (Layout.Renamed f) outcome.mapper.hardwareLayout? renamed.mapper.hardwareLayout?
  allocated : renamed.mapper.allocated.toList = outcome.mapper.allocated.toList.map f
  statistics : renamed.mapper.statistics = outcome.mapper.statistics

/-- A qubit of a run and its new name. -/
def Renames (ids : List QubitId) (f : QubitId → QubitId) (q q' : QubitId) : Prop := q ∈ ids ∧ q' = f q

/-- A renaming that is increasing on the qubits of a run keeps their order. -/
lemma keepsOrder_renames (increasing : ∀ a ∈ ids, ∀ b ∈ ids, a < b → f a < f b) :
    KeepsOrder (Renames ids f) := by
  constructor
  rintro a b _ _ ⟨memA, rfl⟩ ⟨memB, rfl⟩
  refine ⟨increasing a memA b memB, fun less => ?_⟩
  rcases Nat.lt_trichotomy (rank a) (rank b) with before | same | after
  · exact before
  · rw [Ranked.rank_inj same] at less
    exact absurd less (Nat.lt_irrefl _)
  · exact absurd (increasing b memB a memA after) (Nat.lt_asymm less)

/-- A list that corresponds to another by a function is its image. -/
lemma eq_map_of_forall₂ {α β : Type} {S : α → β → Prop} {g : α → β} (only : ∀ {x y}, S x y → y = g x)
    {items : List α} {others : List β} (listed : Forall₂ S items others) : others = items.map g := by
  have := map_eq_of_rel (f := g) (g := id) listed fun x _ y here => (only here).symm
  rw [this, List.map_id]

/-- Known qubits correspond to their new names. -/
lemma forall₂_renames {qubits : List QubitId} (known : ∀ q ∈ qubits, q ∈ ids) :
    Forall₂ (Renames ids f) qubits (qubits.map f) := by
  rw [List.forall₂_map_right_iff, List.forall₂_same]
  exact fun q mem => ⟨known q mem, rfl⟩

/-- A command on known qubits corresponds to the renamed one. -/
lemma Command.rel_mapQubits {command : Command} (known : ∀ q ∈ command.qubits, q ∈ ids)
    (unnamed : command.logicalTag? = none) (bare : command.isFlush = true → command.qubits = []) :
    Command.Rel (Renames ids f) command (command.mapQubits f) := by
  refine ⟨rfl, ?_, ?_, rfl, unnamed, bare⟩
  · rw [mapQubits, List.forall₂_map_right_iff, List.forall₂_same]
    intro register mem
    refine forall₂_renames fun q inRegister => known q ?_
    exact List.mem_append_right _ (List.mem_flatten_of_mem mem inRegister)
  · exact forall₂_renames fun q mem => known q (List.mem_append_left _ mem)

/-- The command that corresponds to another is the renamed one. -/
lemma Command.Rel.eq_mapQubits {command command' : Command}
    (rel : Command.Rel (Renames ids f) command command') : command' = command.mapQubits f := by
  have registers := eq_map_of_forall₂ (eq_map_of_forall₂ And.right) rel.registers
  have controls := eq_map_of_forall₂ And.right rel.controls
  cases command
  cases command'
  cases rel.kind
  cases rel.tags
  cases registers
  cases controls
  rfl

/-- What is sent for corresponding commands is the same, up to renamed tags. -/
lemma Command.SentRel.eq_renameTags {command command' : Command}
    (rel : Command.SentRel (Renames ids f) command command') : command' = command.renameTags f := by
  have tags : command'.tags = command.tags.map (Tag.rename f) := by
    refine eq_map_of_forall₂ (fun here => ?_) rel.tags
    cases here with
    | logicalQubit here => rw [here.2, Tag.rename]
    | label => rfl
  cases command
  cases command'
  cases rel.kind
  cases rel.registers
  cases rel.controls
  cases tags
  rfl

/-- The failure that corresponds to another is the renamed one. -/
lemma Failure.Rel.eq_rename {failure failure' : Failure} (rel : Failure.Rel (Renames ids f) failure failure') :
    failure' = failure.rename f := by
  cases rel with
  | fault => rfl
  | command cause =>
    cases cause with
    | qubitCountMismatch => rfl
    | duplicateQubit name here => rw [here.2, Failure.rename, CommandError.rename]
    | emptyCommand => rfl
  | malformed here => rw [here.eq_mapQubits, Failure.rename]
  | noProgress => rfl

/-- The layout that corresponds to another is the renamed one. -/
lemma Layout.Rel.renamed {P : Type} [Ranked P] {layout layout' : Layout P}
    (rel : Layout.Rel (Renames ids f) layout layout') : Layout.Renamed f layout layout' := by
  refine ⟨eq_map_of_forall₂ (fun here => ?_) rel.positions, eq_map_of_forall₂ (fun here => ?_) rel.occupants⟩
  · exact Prod.ext here.1.2 here.2.symm
  · exact Prod.ext here.1.symm here.2.2

/-- The outcome that corresponds to another is the renamed one. -/
lemma Outcome.Rel.renamed (keeps : KeepsOrder (Renames ids f)) {outcome outcome' : Outcome}
    (rel : Outcome.Rel (Renames ids f) outcome outcome') : Outcome.Renamed f outcome outcome' := by
  refine ⟨?_, ?_, ?_, ?_, rel.mapper.statistics.symm⟩
  · obtain ⟨ok, ok'⟩ | ⟨failure, failure', failed, failed', here⟩ := cases_of_rel rel.failure
    · rw [ok, ok']
      rfl
    · rw [failed, failed', here.eq_rename]
      rfl
  · have sent : Forall₂ (Command.SentRel (Renames ids f)) outcome.sent outcome'.sent :=
      List.rel_filterMap (fun _ _ here => here) rel.log
    exact eq_map_of_forall₂ (fun here => here.eq_renameTags) sent
  · rw [Mapper.hardwareLayout?, Mapper.hardwareLayout?, rel.mapper.router]
    obtain ⟨missing, missing'⟩ | ⟨layout, layout', found, found', same⟩ := cases_of_rel rel.mapper.layout
    · rw [missing, missing']
      exact .none
    · rw [found, found']
      exact .some (same.mapPositions keeps _).renamed
  · exact eq_map_of_forall₂ And.right rel.mapper.allocated

/-- A fresh mapper corresponds to itself, under any correspondence. -/
lemma Mapper.Fresh.rel (fresh : mapper.Fresh) : Mapper.Rel R mapper mapper := by
  refine ⟨rfl, rfl, ?_, ?_, ?_, rfl⟩
  · rw [fresh.buffer_eq]
    exact .nil
  · rw [fresh.layout_eq]
    exact .none
  · rw [fresh.allocated_eq]
    exact .empty

end Renaming

/-- Routing only depends on the order of the logical qubits: if new names keep the order of all qubits of a
run, every call of the renamed run has the renamed outcome. The commands name no logical qubits of their
own, and flushes have no qubits; otherwise they may be anything. -/
theorem session_renamed {config : Config} {mapper : Mapper} (built : config.mapper = .ok mapper)
    {batches : List (List Command)} (unnamed : ∀ batch ∈ batches, ∀ command ∈ batch, command.logicalTag? = none)
    (bare : ∀ batch ∈ batches, ∀ command ∈ batch, command.isFlush = true → command.qubits = [])
    {f : QubitId → QubitId} (increasing : ∀ a ∈ batches.flatten.flatMap Command.qubits,
      ∀ b ∈ batches.flatten.flatMap Command.qubits, a < b → f a < f b) :
    ∀ before batch after, batches = before ++ batch :: after →
      Outcome.Renamed f ((mapper.session (before.map .receive)).mapper.receive batch)
        ((mapper.session ((before.map (List.map (Command.mapQubits f))).map .receive)).mapper.receive
          (batch.map (Command.mapQubits f))) := by
  have fresh := Config.fresh_mapper built
  have keeps := keepsOrder_renames increasing
  have related : ∀ batch ∈ batches, Forall₂ (Command.Rel (Renames (batches.flatten.flatMap Command.qubits) f))
      batch (batch.map (Command.mapQubits f)) := by
    intro batch given
    rw [List.forall₂_map_right_iff, List.forall₂_same]
    intro command mem
    refine Command.rel_mapQubits (fun q inCommand => ?_) (unnamed batch given command mem)
      (bare batch given command mem)
    exact List.mem_flatMap.mpr ⟨command, List.mem_flatten_of_mem given mem, inCommand⟩
  intro before batch after split
  have all_related : Forall₂
      (Forall₂ (Command.Rel (Renames (batches.flatten.flatMap Command.qubits) f))) before
      (before.map (List.map (Command.mapQubits f))) := by
    rw [List.forall₂_map_right_iff, List.forall₂_same]
    intro batch mem
    refine related batch ?_
    rw [split]
    exact List.mem_append_left _ mem
  have sound := (Mapper.session_keeps (fun _ _ => True) (fun _ _ _ => trivial) (fun _ => trivial) fresh.sound
    trivial (before.map .receive)).1
  refine (Mapper.receive_rel keeps (Mapper.session_rel keeps fresh.rel fresh.sound all_related) sound
    (related batch ?_)).renamed keeps
  rw [split]
  exact List.mem_append_right _ List.mem_cons_self

/-- Three qubits get distant names. One of them is allocated twice, swaps are needed, and a gate that acts on
one qubit twice is refused under its new name. -/
theorem session_renamed_ill_formed :
    ∃ mapper, (Config.linear { numQubits := 3, storage := 2 }).mapper = .ok mapper ∧
      ∃ outcome renamed : Outcome,
        outcome = (mapper.session [.receive [.allocate ⟨4⟩, .allocate ⟨9⟩, .allocate ⟨2⟩, .allocate ⟨4⟩,
          .gate .cx [⟨4⟩, ⟨2⟩]]]).mapper.receive
            [.gate .cx [⟨9⟩, ⟨2⟩], .gate .cx [⟨9⟩, ⟨4⟩], .measure ⟨9⟩, .flush, .gate .cx [⟨9⟩, ⟨9⟩]] ∧
        outcome.mapper.statistics.totalSwaps = 2 ∧
        renamed.failure = some (.error (.command (.duplicateQubit ⟨9007⟩ "cx"))) ∧
        Outcome.Renamed (fun q => ⟨1000 * q.index + 7⟩) outcome renamed := by
  have built : (Config.linear { numQubits := 3, storage := 2 }).mapper
      = .ok { router := .chain ⟨3, false⟩, storage := 2 } := rfl
  have renamed := @session_renamed _ _ built
    [[.allocate ⟨4⟩, .allocate ⟨9⟩, .allocate ⟨2⟩, .allocate ⟨4⟩, .gate .cx [⟨4⟩, ⟨2⟩]],
      [.gate .cx [⟨9⟩, ⟨2⟩], .gate .cx [⟨9⟩, ⟨4⟩], .measure ⟨9⟩, .flush, .gate .cx [⟨9⟩, ⟨9⟩]]]
    (by decide) (by decide) (fun q => ⟨1000 * q.index + 7⟩) (by decide)
  exact ⟨_, built, _, _, rfl, by decide, by decide, renamed [_] _ [] rfl⟩

end QubitRouting
