import QubitRouting.Proofs.Accounting
import QubitRouting.Proofs.Interaction
import QubitRouting.Proofs.Plan
import QubitRouting.Proofs.Straight

/-!
# Programs that are linear already

If the qubits of a program meet along paths, or around the ring of the device, the first layout makes all
pairs neighbours that ever meet. It is reached from the empty layout without a swap, and then one pass
forwards the program command by command, as it came.
-/

namespace QubitRouting

open Segments

/-- A command with every qubit at its place. Allocations and releases are made anew and name the logical
qubit, as a measurement does unless a tag names one already. -/
def Command.placed (place : QubitId → QubitId) (command : Command) : Command :=
  match command.kind, command.firstTarget?, command.logicalTag? with
  | .allocate, some q, _ => (allocate (place q)).withTag (.logicalQubit q)
  | .deallocate, some q, _ => (deallocate (place q)).withTag (.logicalQubit q)
  | .measure, some q, none => (command.mapQubits place).withTag (.logicalQubit q)
  | _, _, _ => command.mapQubits place

namespace Stream

variable {commands : List Command}

/-- Commands without a flush go to the buffer as they are. -/
lemma map_command_ofCommands (takes : ∀ command ∈ commands, Mapper.Takes command)
    (noFlush : ∀ command ∈ commands, command.isFlush = false) :
    (ofCommands commands).map Buffered.command = commands := by
  induction commands with
  | nil => rfl
  | cons command rest ih =>
    have notFlush := noFlush command List.mem_cons_self
    obtain ⟨b, classified⟩ := (takes command List.mem_cons_self).exists_classify notFlush
    have named := (Buffered.of_classify classified).1
    have more := ih (fun c mem => takes c (List.mem_cons_of_mem _ mem))
      fun c mem => noFlush c (List.mem_cons_of_mem _ mem)
    rw [← List.singleton_append, ofCommands_append, ofCommands_classified classified, List.map_append, more,
      List.map_singleton, named]

/-- The qubits of the buffered commands are those of the commands. -/
lemma flatMap_qubits_ofCommands (takes : ∀ command ∈ commands, Mapper.Takes command)
    (noFlush : ∀ command ∈ commands, command.isFlush = false) :
    (ofCommands commands).flatMap (·.shape.qubits) = commands.flatMap Command.qubits := by
  conv_rhs => rw [← map_command_ofCommands takes noFlush, List.flatMap_map]
  apply List.flatMap_congr
  intro b mem
  exact (classified_of_mem_ofCommands mem).describes.1.symm

end Stream

namespace Dispatch

variable {router : Router} {layout : Layout Nat} {state state' final : State} {b : Buffered} {q : QubitId}
  {before rest : List Buffered} {handled : List Handled} {command : Command}

/-! ### A pass that forwards everything -/

/-- Renaming only depends on the names of the qubits that a command acts on. -/
lemma mapQubits_congr {f g : QubitId → QubitId} (same : ∀ q ∈ command.qubits, f q = g q) :
    command.mapQubits f = command.mapQubits g := by
  have registers : command.registers.map (fun register => register.map f)
      = command.registers.map fun register => register.map g := by
    apply List.map_congr_left
    intro register mem
    apply List.map_congr_left
    intro q inRegister
    apply same
    exact List.mem_append_right _ (List.mem_flatten.mpr ⟨register, mem, inRegister⟩)
  have controls : command.controls.map f = command.controls.map g :=
    List.map_congr_left fun q mem => same q (List.mem_append_left _ mem)
  rw [Command.mapQubits, Command.mapQubits, registers, controls]

/-- A command other than an allocation or a release goes out with every qubit at its place. -/
lemma onHardware_eq_placed (notAllocate : command.kind ≠ .allocate) (notDeallocate : command.kind ≠ .deallocate)
    (same : ∀ q ∈ command.qubits, rename router state.layout q = rename router layout q) :
    onHardware router state.layout command = command.placed (rename router layout) := by
  have renamed : command.mapQubits (rename router state.layout) = command.mapQubits (rename router layout) :=
    mapQubits_congr same
  have tags (f : QubitId → QubitId) : (command.mapQubits f).logicalTag? = command.logicalTag? := rfl
  rw [onHardware, Command.placed, Command.isMeasure, tags]
  cases kind : command.kind with
  | allocate => exact absurd kind notAllocate
  | deallocate => exact absurd kind notDeallocate
  | measure =>
    cases command.firstTarget? with
    | none => exact renamed
    | some q =>
      -- only a measurement without a tag is given one
      cases command.logicalTag? with
      | none => exact congrArg (Command.withTag · (.logicalQubit q)) renamed
      | some tag => exact renamed
  | gate g => cases command.firstTarget? <;> cases command.logicalTag? <;> exact renamed
  | flush => cases command.firstTarget? <;> cases command.logicalTag? <;> exact renamed

/-- The qubits of a layout that were not released so far sit where they did, and are active. -/
def Untouched (layout : Layout Nat) (before : List Buffered) (state : State) : Prop :=
  ∀ {q p}, layout.position? q = some p → (∀ c ∈ before, c.shape ≠ .deallocate q) →
    state.layout.position? q = some p ∧ q ∈ state.active

/-- At the start of a pass all qubits of the layout sit where they do and are active. -/
lemma untouched_start (layout : Layout Nat) (allocated : OrderedSet QubitId) :
    Untouched layout [] (start layout allocated) := by
  intro q p placed _
  exact ⟨placed, OrderedSet.mem_insertAll.mpr (.inr (Layout.mem_qubits_iff.mpr ⟨p, placed⟩))⟩

/-- After a forwarded command the qubits that were not released still sit where they did. -/
lemma Untouched.step (untouched : Untouched layout before state)
    (step : Step router state b (some command) state') : Untouched layout (before ++ [b]) state' := by
  intro q p placed unreleased
  obtain ⟨here, active⟩ := untouched placed fun c mem => unreleased c (List.mem_append_left _ mem)
  cases step with
  | allocate => exact ⟨here, active⟩
  | @deallocate r _ shape =>
    have ne : r ≠ q := by
      rintro rfl
      exact unreleased b (by simp) shape
    exact ⟨(Layout.position?_erase_of_ne ne).trans here, OrderedSet.mem_erase.mpr ⟨active, ne.symm⟩⟩
  | single => exact ⟨here, active⟩
  | pair => exact ⟨here, active⟩

/-- A stream whose qubits all have a position, and whose pairs sit on neighbouring ones. -/
structure Suits (router : Router) (layout : Layout Nat) (stream : List Buffered) : Prop where
  wellFormed : Stream.WellFormed stream
  classified : ∀ b ∈ stream, b.Classified
  placed : ∀ q ∈ Stream.allocations stream, ∃ p, layout.position? q = some p
  adjacent : ∀ c ∈ stream, ∀ {x y}, c.shape = .pair x y → ∃ px py, layout.position? x = some px ∧
    layout.position? y = some py ∧ router.adjacent px py = .ok true

/-- The qubits of the next command of a suitable stream have their positions and are active. -/
lemma Suits.ready (suits : Suits router layout (before ++ b :: rest))
    (untouched : Untouched layout before state) (mem : q ∈ b.shape.qubits) :
    ∃ p, layout.position? q = some p ∧ state.layout.position? q = some p ∧ q ∈ state.active := by
  have known := suits.wellFormed.unreleased mem
  obtain ⟨p, here⟩ := suits.placed q known.1
  exact ⟨p, here, untouched here known.2⟩

section Places

variable {stream : List Buffered} {x y : QubitId} (suits : Suits router layout stream)
  (fits : layout.Fits router.numQubits)
include suits fits

/-- The qubits of a suitable stream stand for hardware qubits of the device. -/
lemma Suits.rename_lt (mem : x ∈ stream.flatMap (·.shape.qubits)) :
    ∃ p < router.numQubits, rename router layout x = router.hardwareQubit p := by
  obtain ⟨p, here⟩ := suits.placed x (suits.wellFormed.mem_allocations_iff.mpr mem)
  exact ⟨p, fits.lt here, rename_eq here⟩

/-- No two qubits of the stream share a place. -/
lemma Suits.rename_inj (valid : router.Valid) (memX : x ∈ stream.flatMap (·.shape.qubits))
    (memY : y ∈ stream.flatMap (·.shape.qubits)) (same : rename router layout x = rename router layout y) :
    x = y := by
  obtain ⟨px, hereX⟩ := suits.placed x (suits.wellFormed.mem_allocations_iff.mpr memX)
  obtain ⟨py, hereY⟩ := suits.placed y (suits.wellFormed.mem_allocations_iff.mpr memY)
  rw [rename_eq hereX, rename_eq hereY] at same
  obtain rfl := valid.hardwareQubit_inj (fits.lt hereX) (fits.lt hereY) same
  exact fits.consistent.inj hereX hereY

end Places

/-- The next command of a suitable stream can run. -/
lemma Suits.runnable (suits : Suits router layout (before ++ b :: rest))
    (untouched : Untouched layout before state) : Runnable router state b.shape := by
  have ready (q : QubitId) (mem : q ∈ b.shape.qubits) := suits.ready untouched mem
  cases shape : b.shape with
  | allocate q =>
    rw [shape] at ready
    obtain ⟨p, _, here, _⟩ := ready q (List.mem_singleton_self q)
    exact ⟨p, here⟩
  | deallocate q | single q =>
    rw [shape] at ready
    obtain ⟨p, _, here, active⟩ := ready q (List.mem_singleton_self q)
    exact ⟨active, p, here⟩
  | pair x y =>
    rw [shape] at ready
    obtain ⟨px, placedX, hereX, activeX⟩ := ready x List.mem_cons_self
    obtain ⟨py, placedY, hereY, activeY⟩ := ready y (List.mem_cons_of_mem x (List.mem_singleton_self y))
    obtain ⟨qx, qy, placedX', placedY', adjacent⟩ := suits.adjacent b (by simp) shape
    rw [placedX] at placedX'
    rw [placedY] at placedY'
    cases placedX'
    cases placedY'
    exact ⟨⟨activeX, activeY⟩, px, py, hereX, hereY, adjacent⟩

/-- The first target of a command other than a gate is its only qubit. -/
lemma firstTarget?_eq (fit : command.OperandsFit) (other : ∀ g, command.kind ≠ .gate g)
    (single : command.qubits = [q]) : command.firstTarget? = some q := by
  have uncontrolled : command.controls = [] := fit.uncontrolled.resolve_left fun ⟨g, kind⟩ => other g kind
  rw [Command.qubits, uncontrolled, List.nil_append] at single
  rw [Command.firstTarget?, single]
  rfl

/-- What is forwarded for a command is the command with its qubits at their places. -/
lemma Suits.forwarded_eq (suits : Suits router layout (before ++ b :: rest))
    (untouched : Untouched layout before state) (step : Step router state b (some command) state') :
    command = b.command.placed (rename router layout) := by
  have classified := suits.classified b (by simp)
  have fit := classified.operandsFit
  obtain ⟨qubits, kinds⟩ := classified.describes
  have same : ∀ q ∈ b.shape.qubits, rename router state.layout q = rename router layout q := by
    intro q mem
    obtain ⟨p, placed, here, _⟩ := suits.ready untouched mem
    rw [rename_eq placed, rename_eq here]
  cases step with
  | @allocate q p shape here =>
    rw [shape] at qubits kinds same
    have kind : b.command.kind = .allocate := kinds
    have target : b.command.firstTarget? = some q := firstTarget?_eq fit (by rw [kind]; exact nofun) qubits
    rw [← rename_eq here, same q (List.mem_singleton_self q), Command.placed, kind, target]
  | @deallocate q p shape _ here =>
    rw [shape] at qubits kinds same
    have kind : b.command.kind = .deallocate := kinds
    have target : b.command.firstTarget? = some q := firstTarget?_eq fit (by rw [kind]; exact nofun) qubits
    rw [← rename_eq here, same q (List.mem_singleton_self q), Command.placed, kind, target]
  | single shape =>
    rw [← qubits] at same
    rw [shape] at kinds
    exact onHardware_eq_placed kinds.1 kinds.2 same
  | pair shape =>
    rw [← qubits] at same
    rw [shape] at kinds
    exact onHardware_eq_placed kinds.1 kinds.2 same

/-- A pass over a suitable stream forwards every command with its qubits at their places. -/
lemma Suits.handled_eq (suits : Suits router layout (before ++ rest))
    (untouched : Untouched layout before state) (pass : Pass router state rest handled final) :
    handled = rest.map fun b => ⟨b, some (b.command.placed (rename router layout))⟩ := by
  induction pass generalizing before with
  | nil => rfl
  | @cons state next _ b forwarded rest handled step _ ih =>
    obtain ⟨command, rfl⟩ := Option.isSome_iff_exists.mp (step.isSome_of_runnable (suits.runnable untouched))
    rw [List.map_cons, ← suits.forwarded_eq untouched step]
    have more : Suits router layout (before ++ [b] ++ rest) := by rwa [List.append_assoc]
    rw [← ih more (untouched.step step)]
  | @idle state rest inactive =>
    cases rest with
    | nil => rfl
    | cons b rest =>
      obtain ⟨q, mem⟩ : ∃ q, q ∈ b.shape.qubits := by
        cases b.shape <;> simp [Shape.qubits]
      obtain ⟨_, _, _, active⟩ := suits.ready untouched mem
      exact absurd active (inactive q)

end Dispatch

namespace Router

variable {router : Router} {stream : List Buffered}

/-- The first layout is reached without a swap. -/
lemma Regular.plan_of_empty (regular : router.Regular) (allocated : OrderedSet QubitId)
    (commands : List Buffered) :
    (router.plan ⟨allocated, commands, ∅⟩).1 = .ok ⟨router.next ⟨allocated, commands, ∅⟩, []⟩ := by
  have fits := regular.fits_next ⟨allocated, commands, ∅⟩
  cases router with
  | chain c =>
    show Except.ok (Plan.mk _ (Move.chainSwaps c.numQubits ∅ _)) = _
    rw [Move.chainSwaps_empty]
    rfl
  | grid r =>
    rw [regular.plan_grid (Layout.fits_empty _)]
    have fits : ((grid r).next ⟨allocated, commands, ∅⟩).Fits (r.grid.rows * r.grid.columns) :=
      regular.2 ▸ fits
    rw [regular.1.optimalSwaps_of_empty fits]
    rfl

/-- The first layout suits a stream whose qubits meet along paths or around the ring. -/
lemma Regular.suits_next (regular : router.Regular)
    (linear : Stream.Linear router.numQubits router.cyclic stream)
    (wellFormed : Stream.WellFormed stream) (room : (Stream.allocations stream).length ≤ router.numQubits)
    (classified : ∀ b ∈ stream, b.Classified) :
    Dispatch.Suits router (router.next ⟨∅, stream, ∅⟩) stream := by
  have distinct : ∀ c ∈ stream, ∀ a b, c.shape = .pair a b → a ≠ b :=
    fun c mem a b shape => (classified c mem).distinct shape
  have fresh : AllocatesFresh ∅ stream :=
    ⟨wellFormed.allocatesFirst.nodup, fun q _ => OrderedSet.not_mem_empty q⟩
  have keeps := Builder.keeps_run linear wellFormed room distinct (List.prefix_refl stream)
  refine ⟨wellFormed, classified, ?_, ?_⟩
  · intro q mem
    apply (regular.next_iff (Nat.zero_le _) fresh distinct).mpr
    right
    rwa [List.take_of_length_le]
    exact room
  · intro c mem x y shape
    apply regular.next_linked (Nat.zero_le _) fresh distinct
    exact (keeps.recorded x y).mpr (keeps.linked ⟨c, mem, .inl shape⟩)

end Router

namespace Dispatch

variable {router other : Router} {layout : Layout Nat} {stream : List Buffered}

/-- Whether a stream suits a layout only depends on the device. -/
lemma Suits.of_sameDevice (suits : Suits router layout stream) (same : router.SameDevice other) :
    Suits other layout stream := by
  refine ⟨suits.wellFormed, suits.classified, suits.placed, ?_⟩
  rw [same.adjacent_eq]
  exact suits.adjacent

/-- If everything is forwarded, nothing is kept. -/
@[simp]
lemma kept_forwarded (send : Buffered → Command) (stream : List Buffered) :
    kept (stream.map fun b => ⟨b, some (send b)⟩) = [] := by
  induction stream with
  | nil => rfl
  | cons b rest ih => exact ih

/-- The hardware qubit of a qubit only depends on the device. -/
lemma rename_of_sameDevice (same : router.SameDevice other) : rename other layout = rename router layout := by
  funext q
  rw [rename, rename, same.hardwareQubit_eq]

end Dispatch

namespace Mapper

open Dispatch (Suits rename)

variable {mapper : Mapper}

/-- Draining an empty buffer does nothing. -/
lemma drain_of_empty (empty : mapper.buffer = []) (rounds : Nat) : mapper.drain rounds = { mapper } := by
  cases rounds with
  | zero => rfl
  | succ rounds => rw [drain, empty]; rfl

/-- A plan without swaps is carried out by dispatch alone. -/
lemma execute_of_noSwaps (before : Nat) (current layout : Layout Nat) (mapper : Mapper) :
    execute before current ⟨layout, []⟩ mapper = (mapper.dispatch layout).andThen (checkProgress before) :=
  rfl

/-- The buffer forwarded in order, each command with its qubits at their places in the next layout. -/
def verbatim (mapper : Mapper) : List Event :=
  mapper.buffer.map fun b => .forwarded b (b.command.placed (rename mapper.router mapper.next))

/-- All of the buffer is forwarded, and nothing else happens. -/
structure Forwards (mapper : Mapper) (outcome : Outcome) : Prop where
  ok : outcome.failure = none
  log_eq : outcome.log = mapper.verbatim
  empty : outcome.mapper.buffer = []
  statistics_eq : outcome.mapper.statistics = mapper.statistics

/-- An empty buffer forwards nothing. -/
lemma verbatim_of_empty (empty : mapper.buffer = []) : mapper.verbatim = [] := by
  rw [verbatim, empty]
  rfl

/-- An empty buffer is drained without anything else happening. -/
lemma forwards_of_empty (empty : mapper.buffer = []) :
    mapper.Forwards (mapper.drain mapper.buffer.length) := by
  rw [drain_of_empty empty]
  exact ⟨rfl, (verbatim_of_empty empty).symm, empty, rfl⟩

section First

variable (valid : mapper.router.Valid) (suits : Suits mapper.router mapper.next mapper.buffer)
include valid suits

/-- A pass under a layout that suits the buffer empties it. -/
lemma dispatch_of_suits {router : Router} (same : mapper.router.SameDevice router) :
    ∃ layout allocated, dispatch mapper.next { mapper with router } =
      { mapper := { mapper with router, layout, allocated, buffer := [] }, log := mapper.verbatim } := by
  obtain ⟨state, handled, run, pass⟩ := Dispatch.handle_eq (same.valid valid)
    (Dispatch.start mapper.next mapper.allocated) mapper.buffer
  have suits' : Suits router mapper.next ([] ++ mapper.buffer) := suits.of_sameDevice same
  have handled_eq := suits'.handled_eq (Dispatch.untouched_start _ _) pass
  rw [Dispatch.rename_of_sameDevice same] at handled_eq
  refine ⟨some state.layout, state.allocated, ?_⟩
  rw [dispatch, run, handled_eq]
  dsimp only
  rw [Dispatch.kept_forwarded, List.filterMap_map, verbatim, ← List.filterMap_eq_map]
  rfl

variable (unplaced : mapper.layout = none)
include unplaced

/-- The first round has no need of swaps. -/
lemma forwards_round (left : mapper.buffer ≠ []) : mapper.Forwards mapper.round := by
  have current : mapper.current = ∅ := by rw [Mapper.current, unplaced]; rfl
  have planned := valid.regular.plan_of_empty mapper.allocated mapper.buffer
  have same := mapper.router.sameDevice_plan ⟨mapper.allocated, mapper.buffer, ∅⟩
  have next : mapper.router.next ⟨mapper.allocated, mapper.buffer, ∅⟩ = mapper.next := by
    rw [Mapper.next, current]
  rw [next] at planned
  obtain ⟨layout, allocated, dispatched⟩ := dispatch_of_suits valid suits same
  have progress : 0 ≠ mapper.buffer.length := (List.length_pos_iff.mpr left).ne
  have first : mapper.round = mapper.remap mapper.buffer.length ∅ := by
    rw [round, unplaced]
  rw [first, remap_of_plan _ planned, execute_of_noSwaps, dispatched, Outcome.andThen_of_ok rfl, checkProgress]
  dsimp only [List.length_nil]
  rw [if_neg progress]
  exact ⟨rfl, List.append_nil _, rfl, rfl⟩

/-- Draining forwards all of the buffer. -/
lemma forwards_drain : mapper.Forwards (mapper.drain mapper.buffer.length) := by
  cases left : mapper.buffer with
  | nil => exact left ▸ forwards_of_empty left
  | cons b rest =>
    have nonempty : mapper.buffer ≠ [] := left ▸ List.cons_ne_nil b rest
    have forwards := forwards_round valid suits unplaced nonempty
    have notEmpty : ¬ mapper.buffer.isEmpty = true := by
      rw [left]
      exact Bool.false_ne_true
    rw [List.length_cons, drain_succ notEmpty, Outcome.andThen_of_ok forwards.ok, drain_of_empty forwards.empty]
    exact ⟨rfl, (List.append_nil _).trans forwards.log_eq, forwards.empty, forwards.statistics_eq⟩

end First

/-- No round follows if the buffer is empty. -/
lemma roundIfFull_of_empty (empty : mapper.buffer = []) : mapper.roundIfFull = { mapper } := by
  rw [roundIfFull, empty]
  rfl

/-- A batch can be taken in as two, with the end of the call after the second. -/
lemma receive_append (first second : List Command) (mapper : Mapper) :
    mapper.receive (first ++ second) = (mapper.takeIn first).andThen (receive second) := by
  rw [receive_eq, takeIn_append, Outcome.andThen_assoc]
  congr 1
  funext mapper
  exact (receive_eq second mapper).symm

variable {loaded : Mapper} {commands : List Command} {flush : Command}

/-- A flush drains the buffer and is passed on. -/
lemma receive_flush (isFlush : flush.isFlush = true)
    (forwards : mapper.Forwards (mapper.drain mapper.buffer.length)) :
    mapper.receive [flush] =
      { mapper := (mapper.drain mapper.buffer.length).mapper, log := mapper.verbatim ++ [.flushed flush] } := by
  rw [receive_eq, takeIn_singleton, accept, if_pos isFlush, Outcome.andThen_of_ok forwards.ok,
    Outcome.andThen_of_ok rfl]
  dsimp only
  rw [roundIfFull_of_empty forwards.empty, List.append_nil, forwards.log_eq]

/-- Two batches in two calls are answered one after the other. -/
lemma session_receive_receive (first second : List Command) (mapper : Mapper) :
    mapper.session [.receive first, .receive second] =
      { mapper := ((mapper.receive first).mapper.receive second).mapper
        log := (mapper.receive first).log ++ ((mapper.receive first).mapper.receive second).log
        failures := (mapper.receive first).failure.toList ++
          ((mapper.receive first).mapper.receive second).failure.toList } :=
  rfl

/-- A session that took a stream in, forwarded it as it came, and passed the flush on. -/
structure Relays (loaded : Mapper) (flush : Command) (session : Session) : Prop where
  failures_eq : session.failures = []
  log_eq : session.log = loaded.buffer.map .accepted ++ (loaded.verbatim ++ [.flushed flush])
  statistics_eq : session.mapper.statistics = loaded.statistics

namespace Relays

variable {session : Session}

/-- A session that relays a stream inserts no command. -/
lemma not_inserted (relays : loaded.Relays flush session) (command : Command) :
    .inserted command ∉ session.log := by
  rw [relays.log_eq, verbatim]
  simp

/-- A session that relays a stream sends its commands at their places, and then the flush. -/
lemma sent_eq (relays : loaded.Relays flush session) :
    session.log.filterMap Event.sent? = (loaded.buffer.map Buffered.command).map
      (Command.placed (rename loaded.router loaded.next)) ++ [flush] := by
  have accepted : (loaded.buffer.map Event.accepted).filterMap Event.sent? = [] := by
    simp [Event.sent?]
  have forwarded : loaded.verbatim.filterMap Event.sent? =
      (loaded.buffer.map Buffered.command).map (Command.placed (rename loaded.router loaded.next)) := by
    rw [verbatim, List.filterMap_map, List.map_map, ← List.filterMap_eq_map]
    rfl
  rw [relays.log_eq, List.filterMap_append, List.filterMap_append, accepted, forwarded, List.nil_append]
  rfl

end Relays

section Relays

variable (taken : mapper.takeIn commands = { mapper := loaded, log := loaded.buffer.map .accepted })
  (isFlush : flush.isFlush = true) (forwards : loaded.Forwards (loaded.drain loaded.buffer.length))
include taken isFlush forwards

/-- A stream and its flush in one batch are relayed. -/
lemma relays_of_whole : loaded.Relays flush (mapper.session [.receive (commands ++ [flush])]) := by
  have answer : mapper.receive (commands ++ [flush])
      = { mapper := (loaded.drain loaded.buffer.length).mapper
          log := loaded.buffer.map .accepted ++ (loaded.verbatim ++ [.flushed flush]) } := by
    rw [receive_append, taken, Outcome.andThen_of_ok rfl]
    dsimp only
    rw [receive_flush isFlush forwards]
  rw [session, List.foldl_cons, Session.call, Mapper.call, answer]
  exact ⟨rfl, rfl, forwards.statistics_eq⟩

/-- If the flush comes by itself, the buffer may have been forwarded already. -/
lemma relays_of_parts (first : loaded.buffer ≠ [] → loaded.Forwards loaded.round) :
    loaded.Relays flush (mapper.session [.receive commands, .receive [flush]]) := by
  have answer : mapper.receive commands
      = { loaded.roundIfFull with log := loaded.buffer.map .accepted ++ loaded.roundIfFull.log } := by
    rw [receive_eq, taken, Outcome.andThen_of_ok rfl]
  rw [session_receive_receive, answer, roundIfFull]
  split
  case isTrue full =>
    have left : loaded.buffer ≠ [] := by
      intro empty
      rw [empty] at full
      cases full
    have forwarded := first left
    have flushed := receive_flush isFlush (forwards_of_empty forwarded.empty)
    rw [verbatim_of_empty forwarded.empty, List.nil_append, drain_of_empty forwarded.empty] at flushed
    dsimp only
    rw [flushed, forwarded.ok, forwarded.log_eq]
    exact ⟨rfl, List.append_assoc _ _ _, forwarded.statistics_eq⟩
  case isFalse =>
    dsimp only
    rw [receive_flush isFlush forwards, List.append_nil]
    exact ⟨rfl, rfl, forwards.statistics_eq⟩

end Relays

end Mapper

/-- Programs that are linear already are forwarded as they are: if the interaction graph of a well-formed
stream is a disjoint union of simple paths, or on a ring a cycle through all positions, then no call fails,
nothing is inserted, the layout is never changed, and the commands are sent one by one in the order of the
stream, with every qubit at one hardware qubit all along, and the flush after them. -/
theorem session_verbatim {config : Config} {mapper : Mapper} (built : config.mapper = .ok mapper)
    {commands : List Command} (takes : ∀ command ∈ commands, Mapper.Takes command)
    (noFlush : ∀ command ∈ commands, command.isFlush = false)
    (wellFormed : Stream.WellFormed (Stream.ofCommands commands))
    (few : (commands.flatMap Command.qubits).dedup.length ≤ mapper.router.numQubits)
    (linear : Stream.MeetsOnPaths (Stream.ofCommands commands) ∨ mapper.router.cyclic = true ∧
      Stream.MeetsOnCycle mapper.router.numQubits (Stream.ofCommands commands))
    {flush : Command} (isFlush : flush.isFlush = true) {calls : List Call}
    (once : calls = [.receive (commands ++ [flush])] ∨ calls = [.receive commands, .receive [flush]]) :
    let session := mapper.session calls
    session.failures = [] ∧ session.mapper.statistics.numMappings = 0 ∧
    (∀ command, .inserted command ∉ session.log) ∧
    ∃ place : QubitId → QubitId,
      (∀ x ∈ commands.flatMap Command.qubits,
        ∃ p < mapper.router.numQubits, place x = mapper.router.hardwareQubit p) ∧
      (∀ x ∈ commands.flatMap Command.qubits, ∀ y ∈ commands.flatMap Command.qubits,
        place x = place y → x = y) ∧
      session.log.filterMap Event.sent? = commands.map (Command.placed place) ++ [flush] := by
  obtain ⟨router, storage, valid, rfl⟩ := Config.exists_router built
  -- the mapper with all of the stream in its buffer, before anything runs
  let loaded : Mapper := { router, storage, buffer := Stream.ofCommands commands }
  have named := Stream.map_command_ofCommands takes noFlush
  rw [← Stream.flatMap_qubits_ofCommands takes noFlush] at few ⊢
  have room : (Stream.allocations loaded.buffer).length ≤ router.numQubits := by
    refine Nat.le_trans (List.subperm_of_subset wellFormed.allocatesFirst.nodup ?_).length_le few
    intro q mem
    exact List.mem_dedup.mpr (wellFormed.mem_allocations_iff.mp mem)
  have suits : Dispatch.Suits router loaded.next loaded.buffer :=
    valid.regular.suits_next (linear.elim (·.linear) fun ⟨ring, meets⟩ => meets.linear ring)
      wellFormed room fun b => Stream.classified_of_mem_ofCommands
  have fits : loaded.next.Fits router.numQubits := valid.regular.fits_next _
  have taken : Mapper.takeIn commands { router, storage }
      = { mapper := loaded, log := loaded.buffer.map .accepted } :=
    Mapper.takeIn_of_noFlush takes noFlush _
  have unplaced : loaded.layout = none := rfl
  have forwards := Mapper.forwards_drain valid suits unplaced
  have relays : loaded.Relays flush (Mapper.session { router, storage } calls) := by
    rcases once with rfl | rfl
    · exact Mapper.relays_of_whole taken isFlush forwards
    · exact Mapper.relays_of_parts taken isFlush forwards (Mapper.forwards_round valid suits unplaced)
  refine ⟨relays.failures_eq, ?_, relays.not_inserted, Dispatch.rename router loaded.next, ?_, ?_, ?_⟩
  · rw [relays.statistics_eq]
  · exact fun x mem => suits.rename_lt fits mem
  · exact fun x memX y memY => suits.rename_inj fits valid memX memY
  · rw [relays.sent_eq, named]

/-- Four qubits that meet around a ring of four positions, in no particular order. -/
theorem session_verbatim_around_ring :
    let commands : List Command := [.allocate ⟨7⟩, .allocate ⟨3⟩, .allocate ⟨5⟩, .allocate ⟨1⟩,
      .gate .cx [⟨7⟩, ⟨3⟩], .gate .cx [⟨1⟩, ⟨5⟩], .gate .cx [⟨3⟩, ⟨5⟩], .deallocate ⟨3⟩, .gate .cx [⟨7⟩, ⟨1⟩],
      .measure ⟨7⟩, .gate .cx [⟨5⟩, ⟨1⟩]]
    ∃ mapper, (Config.linear { numQubits := 4, cyclic := true }).mapper = .ok mapper ∧
      (mapper.session [.receive commands, .receive [.flush]]).failures = [] ∧
      ∃ place : QubitId → QubitId, (mapper.session [.receive commands, .receive [.flush]]).log.filterMap
        Event.sent? = commands.map (Command.placed place) ++ [.flush] := by
  intro commands
  obtain ⟨mapper, built, four, ring⟩ : ∃ mapper,
      (Config.linear { numQubits := 4, cyclic := true }).mapper = .ok mapper ∧
        mapper.router.numQubits = 4 ∧ mapper.router.cyclic = true :=
    ⟨_, rfl, rfl, rfl⟩
  have shapes : (Stream.ofCommands commands).map Buffered.shape =
      [.allocate ⟨7⟩, .allocate ⟨3⟩, .allocate ⟨5⟩, .allocate ⟨1⟩, .pair ⟨7⟩ ⟨3⟩, .pair ⟨1⟩ ⟨5⟩, .pair ⟨3⟩ ⟨5⟩,
        .deallocate ⟨3⟩, .pair ⟨7⟩ ⟨1⟩, .single ⟨7⟩, .pair ⟨5⟩ ⟨1⟩] := by
    decide
  have meets : Stream.MeetsOnCycle 4 (Stream.ofCommands commands) := by
    refine ⟨[⟨7⟩, ⟨3⟩, ⟨5⟩, ⟨1⟩], by decide, rfl, ?_⟩
    intro x y
    rw [Stream.meets_iff, shapes]
    have inside (x y : QubitId) : [x, y] <:+: [⟨7⟩, ⟨3⟩, ⟨5⟩, ⟨1⟩] ↔
        x = ⟨7⟩ ∧ y = ⟨3⟩ ∨ x = ⟨3⟩ ∧ y = ⟨5⟩ ∨ x = ⟨5⟩ ∧ y = ⟨1⟩ := by
      simp [List.infix_cons_iff]
    have ends : Ends [⟨7⟩, ⟨3⟩, ⟨5⟩, ⟨1⟩] x y ↔ x = ⟨7⟩ ∧ y = ⟨1⟩ ∨ y = ⟨7⟩ ∧ x = ⟨1⟩ := by
      simp [Ends, eq_comm]
    rw [Beside, inside, inside, ends]
    simp only [List.mem_cons, List.not_mem_nil, reduceCtorEq, Shape.pair.injEq, false_or, or_false]
    grind
  obtain ⟨ok, _, _, place, _, _, sent⟩ := session_verbatim built (by decide) (by decide) (by decide)
    (by rw [four]; decide) (.inr ⟨ring, four ▸ meets⟩) (show Command.flush.isFlush = true from rfl) (.inr rfl)
  exact ⟨mapper, built, ok, place, sent⟩

end QubitRouting
