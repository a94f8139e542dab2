import QubitRouting.Circuit
import QubitRouting.Proofs.Accounting
import QubitRouting.Proofs.Legality
import QubitRouting.Proofs.Statistics
import QubitRouting.Report

/-!
# Circuits are routed to their end

A circuit that allocates its qubits, acts on them, releases them and asks for a flush can be routed on
every device with as many positions: the stream is well formed and fits, so no round gets stuck. Nothing
is left in the mapper afterwards, and the report tells how many swaps were inserted. The circuits of the
library are of this form for every size and every seed.
-/

namespace QubitRouting

open scoped List

namespace Stream

variable {n : Nat} {stream : List Buffered} {b : Buffered} {qubits : List QubitId}

/-- A well-formed stream stays so with one more command that is admissible after it. -/
lemma WellFormed.concat (wf : WellFormed stream) (admissible : Admissible stream b) :
    WellFormed (stream ++ [b]) := by
  intro i lt
  rw [List.length_append, List.length_singleton] at lt
  rcases Nat.lt_or_eq_of_le (Nat.le_of_lt_succ lt) with earlier | rfl
  · rw [List.take_append_of_le_length (Nat.le_of_lt earlier), List.getElem_append_left earlier]
    exact wf i earlier
  · rw [List.take_left, List.getElem_concat_length rfl]
    exact admissible

/-- There is room for a stream that never allocates more qubits than there are positions. -/
lemma WellFormed.fitting (wf : WellFormed stream) (few : (allocations stream).length ≤ n) :
    Fitting n stream := by
  refine ⟨wf, fun before mem => ?_⟩
  obtain ⟨after, rfl⟩ := (List.mem_inits _ _).mp mem
  rw [allocations_append, List.length_append] at few
  have sub : (live before).toList ⊆ allocations before := fun q inUse => mem_allocations_of_mem_live inUse
  have := ((live before).toList_nodup.subperm sub).length_le
  rw [OrderedSet.size]
  omega

/-- The allocation of a qubit, as it stands in the buffer. -/
def allocation (q : QubitId) : Buffered := ⟨.allocate q, .allocate q⟩

/-- The release of a qubit, as it stands in the buffer. -/
def release (q : QubitId) : Buffered := ⟨.deallocate q, .deallocate q⟩

/-- Allocating some qubits allocates just these, in order. -/
lemma allocations_allocation (qubits : List QubitId) : allocations (qubits.map allocation) = qubits := by
  rw [allocations, List.filterMap_map]
  exact List.filterMap_some

/-- A stream in which no command allocates has no allocations. -/
lemma allocations_eq_nil (none_allocates : ∀ b ∈ stream, ∀ q, b.shape ≠ .allocate q) :
    allocations stream = [] := by
  rw [allocations, List.filterMap_eq_nil_iff]
  intro b mem
  cases allocates : b.shape.allocates? with
  | none => rfl
  | some q => exact absurd (Shape.allocates?_eq_some.mp allocates) (none_allocates b mem q)

/-- Releasing qubits allocates none. -/
lemma allocations_release (qubits : List QubitId) : allocations (qubits.map release) = [] := by
  apply allocations_eq_nil
  intro b mem q shape
  obtain ⟨r, _, rfl⟩ := List.mem_map.mp mem
  cases shape

/-- Allocating different qubits is a well-formed stream. -/
lemma wellFormed_allocation (nodup : qubits.Nodup) : WellFormed (qubits.map allocation) := by
  induction qubits using List.reverseRecOn with
  | nil =>
    intro i lt
    cases lt
  | append_singleton qubits q ih =>
    obtain ⟨before, _, apart⟩ := List.nodup_append.mp nodup
    rw [List.map_append, List.map_singleton]
    refine (ih before).concat ?_
    change q ∉ allocations (qubits.map allocation)
    rw [allocations_allocation]
    exact fun mem => apart q mem q List.mem_cons_self rfl

/-- What may stand between the allocation and the release of some qubits. -/
def Inner (qubits : List QubitId) (b : Buffered) : Prop :=
  (∀ q ∈ b.shape.qubits, q ∈ qubits) ∧
    ∀ q, b.shape ≠ .allocate q ∧ b.shape ≠ .deallocate q

/-- A command on qubits that were allocated and not released is admissible. -/
lemma admissible_of_allocated (wf : WellFormed stream) (other : ∀ q, b.shape ≠ .allocate q)
    (known : ∀ q ∈ b.shape.qubits, q ∈ allocations stream ∧ ∀ c ∈ stream, c.shape ≠ .deallocate q) :
    Admissible stream b := by
  rw [Admissible]
  split
  case h_1 q shape => exact absurd shape (other q)
  case h_2 => exact fun q mem => wf.allocatesFirst.mem_live_iff.mpr (known q mem)

/-- Once some qubits are allocated and none is released, they can be used. -/
lemma WellFormed.inner (wf : WellFormed stream) (allocated : ∀ q ∈ qubits, q ∈ allocations stream)
    (unreleased : ∀ c ∈ stream, ∀ q, c.shape ≠ .deallocate q) {body : List Buffered}
    (inner : ∀ b ∈ body, Inner qubits b) : WellFormed (stream ++ body) := by
  induction body using List.reverseRecOn with
  | nil => rwa [List.append_nil]
  | append_singleton body b ih =>
    rw [← List.append_assoc]
    have before := ih fun c mem => inner c (List.mem_append_left _ mem)
    obtain ⟨touches, kind⟩ := inner b (List.mem_append_right _ List.mem_cons_self)
    refine before.concat (admissible_of_allocated before (fun q => (kind q).1) fun q mem => ⟨?_, ?_⟩)
    · rw [allocations_append]
      exact List.mem_append_left _ (allocated q (touches q mem))
    · intro c mem
      rcases List.mem_append.mp mem with mem | mem
      · exact unreleased c mem q
      · exact ((inner c (List.mem_append_left _ mem)).2 q).2

/-- Once some qubits are allocated and none is released, they can be released, each of them once. -/
lemma WellFormed.release (wf : WellFormed stream) (allocated : ∀ q ∈ qubits, q ∈ allocations stream)
    (unreleased : ∀ c ∈ stream, ∀ q, c.shape ≠ .deallocate q) (nodup : qubits.Nodup) :
    WellFormed (stream ++ qubits.map release) := by
  induction qubits using List.reverseRecOn with
  | nil => rwa [List.map_nil, List.append_nil]
  | append_singleton qubits q ih =>
    obtain ⟨earlier, _, apart⟩ := List.nodup_append.mp nodup
    rw [List.map_append, List.map_singleton, ← List.append_assoc]
    have before := ih (fun r mem => allocated r (List.mem_append_left _ mem)) earlier
    refine before.concat (admissible_of_allocated before nofun fun r mem => ?_)
    obtain rfl := List.mem_singleton.mp mem
    refine ⟨?_, ?_⟩
    · rw [allocations_append]
      exact List.mem_append_left _ (allocated r (List.mem_append_right _ List.mem_cons_self))
    · intro c mem
      rcases List.mem_append.mp mem with mem | mem
      · exact unreleased c mem r
      · obtain ⟨s, inQubits, rfl⟩ := List.mem_map.mp mem
        rintro ⟨⟩
        exact apart r inQubits r List.mem_cons_self rfl

/-- All qubits are allocated, then used, then released. -/
def wrapped (qubits : List QubitId) (body : List Buffered) : List Buffered :=
  qubits.map allocation ++ body ++ qubits.map release

section Wrapped

variable {body : List Buffered}

/-- The allocations of a wrapped circuit are those at its beginning. -/
lemma allocations_wrapped (inner : ∀ b ∈ body, Inner qubits b) :
    allocations (wrapped qubits body) = qubits := by
  have quiet : allocations body = [] := allocations_eq_nil fun b mem q => ((inner b mem).2 q).1
  rw [wrapped, allocations_append, allocations_append, allocations_allocation, quiet,
    allocations_release, List.append_nil, List.append_nil]

/-- A wrapped circuit on different qubits is well formed. -/
lemma wellFormed_wrapped (nodup : qubits.Nodup) (inner : ∀ b ∈ body, Inner qubits b) :
    WellFormed (wrapped qubits body) := by
  have start := wellFormed_allocation nodup
  have used : WellFormed (qubits.map allocation ++ body) := by
    refine start.inner (fun q mem => ?_) ?_ inner
    · rwa [allocations_allocation]
    · intro c mem q shape
      obtain ⟨r, _, rfl⟩ := List.mem_map.mp mem
      cases shape
  refine used.release (fun q mem => ?_) ?_ nodup
  · rw [allocations_append, allocations_allocation]
    exact List.mem_append_left _ mem
  · intro c mem q
    rcases List.mem_append.mp mem with mem | mem
    · obtain ⟨r, _, rfl⟩ := List.mem_map.mp mem
      nofun
    · exact ((inner c mem).2 q).2

/-- In the end no qubit is in use. -/
lemma live_wrapped (nodup : qubits.Nodup) (inner : ∀ b ∈ body, Inner qubits b) :
    live (wrapped qubits body) = ∅ := by
  apply OrderedSet.eq_empty_of_forall_not_mem
  intro q inUse
  rw [(wellFormed_wrapped nodup inner).allocatesFirst.mem_live_iff, allocations_wrapped inner] at inUse
  refine inUse.2 (release q) ?_ rfl
  exact List.mem_append_right _ (List.mem_map_of_mem inUse.1)

end Wrapped

end Stream

/-! ### Routing a whole circuit -/

/-- Whether the command is a swap. -/
def Command.isSwap (command : Command) : Bool := command.kind == .gate .swap

/-- A circuit was routed to its end. -/
structure Mapper.Completed (router : Router) (after : Mapper) (sent : List Command) (report : Report) :
    Prop where
  buffer_eq : after.buffer = []
  layout_eq : after.layout = some ∅
  allocated_eq : after.allocated = ∅
  /-- The flush is passed on last. -/
  flushed : ∃ earlier, sent = earlier ++ [.flush]
  /-- Two qubits only meet on neighbouring positions. -/
  adjacent : ∀ command ∈ sent, ∀ x y, command.qubits = [x, y] →
    ∃ px < router.numQubits, ∃ py < router.numQubits, router.hardwareQubit px = x ∧
      router.hardwareQubit py = y ∧ router.adjacent px py = .ok true
  insertedSwaps_eq : report.insertedSwaps = sent.countP Command.isSwap
  outputCommands_eq : report.outputCommands = sent.length

/-- A mapper routes a circuit to its end. -/
def Mapper.Routes (mapper : Mapper) (circuit : List Command) : Prop :=
  ∃ sent report, mapper.route circuit = .ok (sent, report) ∧
    Completed mapper.router (mapper.receive circuit).mapper sent report

/-- What is forwarded does the same as the command that was taken in, and flushes are only passed on. -/
def Event.Faithful : Event → Prop
  | accepted _ => True
  | forwarded b command => command.kind = b.command.kind ∧ command.isFlush = false
  | inserted command => command.isFlush = false
  | flushed command => command.isFlush = true

namespace Dispatch

variable {router : Router} {state final : State} {b : Buffered} {command : Command}
  {buffer : List Buffered} {handled : List Handled}

/-- A forwarded command does the same as the buffered one. -/
lemma Step.faithful {next : State} (step : Step router state b (some command) next)
    (classified : b.Classified) : (Event.forwarded b command).Faithful := by
  have describes := classified.describes.2
  have same : command.kind = b.command.kind := by
    cases step with
    | allocate shape =>
      rw [shape] at describes
      exact describes.symm
    | deallocate shape =>
      rw [shape] at describes
      exact describes.symm
    | single => exact kind_onHardware _ _ _
    | pair => exact kind_onHardware _ _ _
  refine ⟨same, ?_⟩
  rw [Command.isFlush, same]
  exact (Buffered.of_classify classified).2.1

/-- What a pass over the buffer forwards does the same as what was buffered. -/
lemma Pass.faithful (pass : Pass router state buffer handled final)
    (classified : ∀ b ∈ buffer, b.Classified) (mem : ⟨b, some command⟩ ∈ handled) :
    (Event.forwarded b command).Faithful := by
  induction pass with
  | nil => cases mem
  | cons step _ ih =>
    rcases List.mem_cons.mp mem with same | mem
    · cases same
      exact step.faithful (classified b List.mem_cons_self)
    · exact ih (fun c inRest => classified c (List.mem_cons_of_mem _ inRest)) mem
  | idle =>
    obtain ⟨c, _, same⟩ := List.mem_map.mp mem
    cases same

end Dispatch

namespace Mapper

open Log (accepted forwarded)

variable {n : Nat} {mapper after : Mapper} {past log : List Event} {commands : List Command}

/-- What is known of a mapper that has been routing. -/
structure Routing (past : List Event) (mapper : Mapper) : Prop where
  classified : ∀ b ∈ mapper.buffer, b.Classified
  faithful : ∀ event ∈ past, event.Faithful
  /-- Nothing is forwarded without a layout. -/
  placed : forwarded past = [] ∨ mapper.layout.isSome = true

/-- What is known of a mapper that has been routing holds after one more step. -/
lemma Routing.step (routing : Routing past mapper) (step : mapper.Step log after) :
    Routing (past ++ log) after := by
  have faithful (new : ∀ event ∈ log, event.Faithful) : ∀ event ∈ past ++ log, event.Faithful := by
    intro event mem
    exact (List.mem_append.mp mem).elim (routing.faithful event) (new event)
  refine ⟨step.classified routing.classified, faithful ?_, ?_⟩
  · intro event mem
    cases step with
    | accept =>
      obtain rfl := List.mem_singleton.mp mem
      trivial
    | flush flush =>
      obtain rfl := List.mem_singleton.mp mem
      exact flush
    | dispatch dispatched =>
      cases dispatched with
      | intro _ pass =>
        obtain ⟨⟨b, sent⟩, inPass, made⟩ := List.mem_filterMap.mp mem
        obtain ⟨command, rfl, rfl⟩ := Option.map_eq_some_iff.mp made
        exact pass.faithful routing.classified inPass
    | remap remapped =>
      cases remapped with
      | @intro swaps =>
        rw [swapEvents] at mem
        split at mem
        · cases mem
        · obtain ⟨command, inPlan, rfl⟩ := List.mem_map.mp mem
          rcases mem_swapCommands inPlan with ⟨q, rfl⟩ | ⟨a, b, rfl⟩ | ⟨q, rfl⟩ <;> rfl
  · -- a layout is chosen before anything is forwarded
    cases step with
    | accept =>
      rw [Log.forwarded_append]
      exact routing.placed.imp_left fun none_sent => by rw [none_sent]; rfl
    | flush =>
      rw [Log.forwarded_append]
      exact routing.placed.imp_left fun none_sent => by rw [none_sent]; rfl
    | dispatch dispatched =>
      cases dispatched
      exact .inr rfl
    | remap remapped =>
      cases remapped
      exact .inr rfl

/-- A fresh mapper has not routed anything yet. -/
lemma Fresh.routing (fresh : mapper.Fresh) : Routing [] mapper := by
  refine ⟨?_, ?_, .inl rfl⟩
  · intro b mem
    rw [fresh.buffer_eq] at mem
    cases mem
  · intro event mem
    cases mem

/-- If no swap was taken in, the swaps sent are those inserted. -/
lemma countP_sent_isSwap (faithful : ∀ event ∈ log, event.Faithful)
    (none_swap : ∀ b ∈ forwarded log, b.command.isSwap = false) :
    (log.filterMap Event.sent?).countP Command.isSwap = Log.insertedSwaps log := by
  rw [List.countP_filterMap, Log.insertedSwaps]
  apply List.countP_congr
  intro event mem
  have here := faithful event mem
  cases event with
  | accepted => rfl
  | inserted => rfl
  | forwarded b command =>
    have other : command.isSwap = false := by
      rw [Command.isSwap, here.1]
      exact none_swap b (List.mem_filterMap.mpr ⟨_, mem, rfl⟩)
    rw [Event.sent?, Option.map_some, Option.getD_some, other]
    rfl
  | flushed command =>
    have other : command.isSwap = false := by
      rw [Command.isSwap, eq_of_beq here]
      rfl
    rw [Event.sent?, Option.map_some, Option.getD_some, other]
    rfl

/-- A call that takes a flush in last and leaves nothing in the buffer passes the flush on last. -/
lemma receive_concat_flush (ok : (mapper.receive (commands ++ [.flush])).failure = none)
    (empty : (mapper.takeIn (commands ++ [.flush])).mapper.buffer = []) :
    (mapper.receive (commands ++ [.flush])).mapper.buffer = [] ∧
      ∃ earlier, (mapper.receive (commands ++ [.flush])).log = earlier ++ [.flushed .flush] := by
  have flush : Command.flush.isFlush = true := rfl
  rw [receive_eq] at ok ⊢
  have taken := (Outcome.ok_of_andThen ok).1
  have idle : (mapper.takeIn (commands ++ [.flush])).mapper.roundIfFull
      = { mapper := (mapper.takeIn (commands ++ [.flush])).mapper } := by
    rw [roundIfFull, empty]
    rfl
  rw [Outcome.andThen_of_ok taken, idle]
  refine ⟨empty, ?_⟩
  dsimp only
  rw [takeIn_concat] at taken ⊢
  obtain ⟨first, second⟩ := Outcome.ok_of_andThen taken
  rw [Outcome.andThen_of_ok first, List.append_nil]
  simp only [accept, if_pos flush] at second ⊢
  rw [Outcome.andThen_of_ok (Outcome.ok_of_andThen second).1]
  exact ⟨_, (List.append_assoc _ _ _).symm⟩

/-- Once the buffer is empty, the allocated qubits are those the stream has in use. -/
lemma Ready.mem_allocated_iff {k : Nat} (ready : Ready n k past mapper) (empty : mapper.buffer = [])
    {q : QubitId} : q ∈ mapper.allocated ↔ q ∈ Stream.live (accepted past) := by
  have order := ready.tracked.ordered.order q
  rw [empty, Stream.touching_nil, List.append_nil] at order
  rw [ready.tracked.allocated_eq, ← Stream.mem_live_touching, order, Stream.mem_live_touching]

/-- If nothing waits and no qubit is in use, no qubit has a position. -/
lemma Ready.current_eq_empty {k : Nat} (ready : Ready n k past mapper) (empty : mapper.buffer = [])
    (released : mapper.allocated = ∅) : mapper.current = ∅ := by
  refine ready.sound.fits_current.consistent.ext (Layout.fits_empty n).consistent fun q => ?_
  cases placed : mapper.current.position? q with
  | none => rfl
  | some p =>
    have inUse := ready.placed_iff.mp ⟨p, placed⟩
    rw [released, empty] at inUse
    rcases inUse with mem | mem
    · exact absurd mem (OrderedSet.not_mem_empty q)
    · exact absurd (List.mem_of_mem_take mem) List.not_mem_nil

/-- What a fresh mapper comes to that has taken in qubits' whole lives, no swaps and a flush. -/
lemma Steps.completed (run : Steps mapper log after) (fresh : mapper.Fresh)
    (unused : mapper.statistics = {}) (ready : Ready n 0 log after) (empty : after.buffer = [])
    (nonempty : accepted log ≠ []) (released : Stream.live (accepted log) = ∅)
    (none_swap : ∀ b ∈ accepted log, b.command.isSwap = false)
    (flushed_eq : Log.flushed log = [.flush]) (last : ∃ earlier, log = earlier ++ [.flushed .flush])
    {report : Report} (swaps : report.insertedSwaps = after.statistics.totalSwaps)
    (output : report.outputCommands = (log.filterMap Event.sent?).length) :
    Completed mapper.router after (log.filterMap Event.sent?) report := by
  have counts : mapper.statistics.Consistent (Log.insertedSwaps []) := by
    rw [unused]
    exact Statistics.consistent_start
  have routing := run.keeps Routing (fun _ => Routing.step) fresh.sound fresh.routing
  have lawful := run.keeps (Lawful mapper.router) Lawful.step fresh.sound fresh.lawful
  have counted := run.keeps (fun past mapper => mapper.statistics.Consistent (Log.insertedSwaps past))
    (fun _ consistent step => step.consistent consistent) fresh.sound counts
  rw [List.nil_append] at routing lawful counted
  have perm := run.accounts.perm
  rw [fresh.buffer_eq, empty, List.nil_append, List.nil_append] at perm
  have unallocated : after.allocated = ∅ := by
    apply OrderedSet.eq_empty_of_forall_not_mem
    intro q
    rw [ready.mem_allocated_iff empty, released]
    exact OrderedSet.not_mem_empty q
  refine ⟨empty, ?_, unallocated, ?_, ?_, ?_, output⟩
  · have placed := routing.placed.resolve_left fun none_sent => by
      rw [none_sent] at perm
      exact nonempty perm.nil_eq.symm
    obtain ⟨layout, here⟩ := Option.isSome_iff_exists.mp placed
    have unplaced := ready.current_eq_empty empty unallocated
    rw [current, here, Option.getD_some] at unplaced
    rw [here, unplaced]
  · obtain ⟨earlier, rfl⟩ := last
    exact ⟨_, List.filterMap_append⟩
  · intro command mem x y pair
    obtain ⟨event, mem, sent⟩ := List.mem_filterMap.mp mem
    refine (lawful.legal event mem command sent ?_).adjacent pair
    have faithful := routing.faithful event mem
    cases event with
    | accepted => cases sent
    | forwarded =>
      cases sent
      exact faithful.2
    | inserted =>
      cases sent
      exact faithful
    | flushed =>
      -- the flush acts on no qubits
      cases sent
      have listed : command ∈ Log.flushed log := List.mem_filterMap.mpr ⟨_, mem, rfl⟩
      rw [flushed_eq, List.mem_singleton] at listed
      rw [listed] at pair
      cases pair
  · rw [swaps, counted.totalSwaps_eq,
      countP_sent_isSwap routing.faithful fun b mem => none_swap b (perm.subset mem)]

/-- A program that fits, releases the qubits that it allocates and has no swaps is routed to its end. -/
lemma Fresh.routes (fresh : mapper.Fresh) (unused : mapper.statistics = {})
    (takes : ∀ command ∈ commands, Takes command) (noFlush : ∀ command ∈ commands, command.isFlush = false)
    (fitting : Stream.Fitting mapper.router.numQubits (Stream.ofCommands commands))
    (nonempty : Stream.ofCommands commands ≠ []) (released : Stream.live (Stream.ofCommands commands) = ∅)
    (none_swap : ∀ b ∈ Stream.ofCommands commands, b.command.isSwap = false) :
    mapper.Routes (commands ++ [.flush]) := by
  have stream : Stream.ofCommands (commands ++ [.flush]) = Stream.ofCommands commands := by
    rw [Stream.ofCommands_append, Stream.ofCommands_flush rfl, List.append_nil]
  have all_taken : ∀ command ∈ commands ++ [.flush], Takes command := by
    intro command mem
    rcases List.mem_append.mp mem with mem | mem
    · exact takes command mem
    · exact .inl (List.mem_singleton.mp mem ▸ rfl)
  rw [← stream] at fitting nonempty released none_swap
  have completes := fresh.ready.receive all_taken fitting
  obtain ⟨empty, last⟩ := receive_concat_flush completes.ok
    (fresh.ready.buffer_takeIn takes rfl fitting)
  rw [← completes.accepted_eq] at nonempty released none_swap
  have flushed_eq : Log.flushed (mapper.receive (commands ++ [.flush])).log = [.flush] := by
    obtain ⟨done, rest, split, took, whole⟩ := took_receive fresh.sound (commands ++ [.flush])
    rw [whole completes.ok, List.append_nil] at split
    rw [took.flushed_eq, ← split, List.filter_append, List.filter_eq_nil_iff.mpr]
    · rfl
    · intro command mem
      rw [noFlush command mem]
      exact Bool.false_ne_true
  rw [Routes, route, completes.ok]
  exact ⟨_, _, rfl, (follows_receive fresh.sound _).completed fresh unused completes.ready empty nonempty
    released none_swap flushed_eq last rfl rfl⟩

end Mapper

/-! ### The circuits of the library -/

namespace Circuit

variable {n : Nat} {mapper : Mapper} {qubits : List QubitId} {command : Command} {q r : QubitId}

/-- A command that may stand between the allocation and the release of some qubits: it can be buffered,
acts on them only and is a measurement or a gate other than a swap. -/
structure Inner (qubits : List QubitId) (command : Command) : Prop where
  fit : command.OperandsFit
  few : command.qubits.length ≤ 2
  known : ∀ q ∈ command.qubits, q ∈ qubits
  kind : command.kind = .measure ∨ ∃ g, command.kind = .gate g ∧ g ≠ .swap

/-- A measurement of one of the qubits may stand inside. -/
lemma inner_measure (mem : q ∈ qubits) : Inner qubits (.measure q) := by
  refine ⟨⟨List.cons_ne_nil _ _, rfl, .inr rfl, List.nodup_singleton q⟩, Nat.le_succ 1, ?_, .inl rfl⟩
  exact List.forall_mem_singleton.mpr mem

/-- A gate on one of the qubits may stand inside. -/
lemma inner_gate {g : Gate} (arity : g.arity = 1) (mem : q ∈ qubits) : Inner qubits (.gate g [q]) := by
  refine ⟨⟨List.cons_ne_nil _ _, arity.symm, .inr rfl, List.nodup_singleton q⟩, Nat.le_succ 1, ?_,
    .inr ⟨g, rfl, ?_⟩⟩
  · exact List.forall_mem_singleton.mpr mem
  · rintro rfl
    cases arity

/-- Two different qubits make a list without repetitions. -/
lemma nodup_pair (ne : q ≠ r) : [q, r].Nodup := by simpa

/-- What has both qubits has each of the pair. -/
lemma forall_mem_pair (memQ : q ∈ qubits) (memR : r ∈ qubits) : ∀ s ∈ [q, r], s ∈ qubits := by
  rw [List.forall_mem_cons, List.forall_mem_singleton]
  exact ⟨memQ, memR⟩

/-- A gate on one of the qubits, controlled by another one, may stand inside. -/
lemma inner_controlled {g : Gate} (arity : g.arity = 1) (ne : q ≠ r) (memQ : q ∈ qubits)
    (memR : r ∈ qubits) : Inner qubits (.controlled g [q] [r]) := by
  refine ⟨⟨List.cons_ne_nil _ _, arity.symm, .inl ⟨g, rfl⟩, nodup_pair ne⟩, Nat.le_refl 2,
    forall_mem_pair memQ memR, .inr ⟨g, rfl, ?_⟩⟩
  rintro rfl
  cases arity

/-- A controlled phase flip on two of the qubits may stand inside. -/
lemma inner_cz (ne : q ≠ r) (memQ : q ∈ qubits) (memR : r ∈ qubits) :
    Inner qubits (.gate .cz [q, r]) :=
  ⟨⟨List.cons_ne_nil _ _, rfl, .inr rfl, nodup_pair ne⟩, Nat.le_refl 2, forall_mem_pair memQ memR,
    .inr ⟨.cz, rfl, nofun⟩⟩

/-- What stands inside is no flush. -/
lemma Inner.isFlush (inner : Inner qubits command) : command.isFlush = false := by
  rw [Command.isFlush]
  rcases inner.kind with kind | ⟨g, kind, _⟩ <;> rw [kind] <;> rfl

/-- What stands inside is taken in. -/
lemma Inner.takes (inner : Inner qubits command) : Mapper.Takes command := by
  obtain ⟨b, classified⟩ := Buffered.exists_classify inner.isFlush inner.fit inner.few
  right
  rw [classified]
  rfl

/-- As it stands in the buffer, such a command still is of this kind. -/
lemma Inner.classified {b : Buffered} (inner : Inner qubits command)
    (classified : Buffered.classify command = .ok b) :
    Stream.Inner qubits b ∧ b.command.isSwap = false := by
  obtain ⟨rfl, _, _, operands, kind⟩ := Buffered.of_classify classified
  refine ⟨⟨?_, fun q => ⟨?_, ?_⟩⟩, ?_⟩
  · rw [← operands]
    exact inner.known
  · intro shape
    rw [shape] at kind
    rcases inner.kind with other | ⟨g, other, _⟩ <;> rw [other] at kind <;> cases kind
  · intro shape
    rw [shape] at kind
    rcases inner.kind with other | ⟨g, other, _⟩ <;> rw [other] at kind <;> cases kind
  · rw [Command.isSwap]
    rcases inner.kind with other | ⟨g, other, ne⟩
    · rw [other]
      rfl
    · rw [other, beq_eq_false_iff_ne]
      rintro ⟨⟩
      exact ne rfl

/-- What stands inside does so in the buffer too, and is no swap. -/
lemma Inner.of_mem_ofCommands {body : List Command} (inner : ∀ command ∈ body, Inner qubits command)
    {b : Buffered} (mem : b ∈ Stream.ofCommands body) : Stream.Inner qubits b ∧ b.command.isSwap = false := by
  obtain ⟨command, given, found⟩ := List.mem_filterMap.mp mem
  cases classified : Buffered.classify command with
  | error cause =>
    rw [classified] at found
    cases found
  | ok =>
    rw [classified] at found
    cases found
    exact (inner command given).classified classified

/-- The allocations of some qubits go to the buffer as they are. -/
lemma ofCommands_allocate (qubits : List QubitId) :
    Stream.ofCommands (qubits.map Command.allocate) = qubits.map Stream.allocation := by
  rw [Stream.ofCommands, List.filterMap_map, ← List.filterMap_eq_map]
  rfl

/-- The releases of some qubits go to the buffer as they are. -/
lemma ofCommands_deallocate (qubits : List QubitId) :
    Stream.ofCommands (qubits.map Command.deallocate) = qubits.map Stream.release := by
  rw [Stream.ofCommands, List.filterMap_map, ← List.filterMap_eq_map]
  rfl

/-- Numbers that fit a word are apart as qubits. -/
lemma ofNat_inj {a b : Nat} (ltA : a < 2 ^ 32) (ltB : b < 2 ^ 32) (same : QubitId.ofNat a = QubitId.ofNat b) :
    a = b := by
  rw [← QubitId.toNat_ofNat ltA, ← QubitId.toNat_ofNat ltB, same]

/-- A number below the bound is one of the first qubits. -/
lemma mem_firstQubits {i : Nat} (lt : i < n) : QubitId.ofNat i ∈ firstQubits n :=
  List.mem_map_of_mem (List.mem_range.mpr lt)

/-- The first qubits are all different if their number fits a word. -/
lemma firstQubits_nodup (small : n < 2 ^ 32) : (firstQubits n).Nodup := by
  refine List.nodup_range.map_on fun a memA b memB => ?_
  rw [List.mem_range] at memA memB
  exact ofNat_inj (Nat.lt_trans memA small) (Nat.lt_trans memB small)

/-- A circuit of any such commands is routed to its end. -/
lemma routes_wrap (fresh : mapper.Fresh) (unused : mapper.statistics = {}) (pos : 0 < n)
    (room : n ≤ mapper.router.numQubits) {body : List Command}
    (inner : ∀ command ∈ body, Inner (firstQubits n) command) : mapper.Routes (wrap n body) := by
  have nodup := firstQubits_nodup (Nat.lt_of_le_of_lt room fresh.valid.numQubits_lt)
  have inner_stream {b : Buffered} (mem : b ∈ Stream.ofCommands body) := Inner.of_mem_ofCommands inner mem
  have kinds : ∀ command ∈ (firstQubits n).map Command.allocate ++ body
      ++ (firstQubits n).map Command.deallocate, Mapper.Takes command ∧ command.isFlush = false := by
    intro command mem
    rw [List.mem_append, List.mem_append] at mem
    rcases mem with (mem | mem) | mem
    · obtain ⟨q, _, rfl⟩ := List.mem_map.mp mem
      exact ⟨.inr rfl, rfl⟩
    · exact ⟨(inner command mem).takes, (inner command mem).isFlush⟩
    · obtain ⟨q, _, rfl⟩ := List.mem_map.mp mem
      exact ⟨.inr rfl, rfl⟩
  have stream : Stream.ofCommands ((firstQubits n).map Command.allocate ++ body
      ++ (firstQubits n).map Command.deallocate)
        = Stream.wrapped (firstQubits n) (Stream.ofCommands body) := by
    rw [Stream.ofCommands_append, Stream.ofCommands_append, ofCommands_allocate, ofCommands_deallocate,
      Stream.wrapped]
  have all_inner : ∀ b ∈ Stream.ofCommands body, Stream.Inner (firstQubits n) b :=
    fun b mem => (inner_stream mem).1
  have allocations := Stream.allocations_wrapped all_inner
  have length : (firstQubits n).length = n := by rw [firstQubits, List.length_map, List.length_range]
  refine fresh.routes unused (fun c mem => (kinds c mem).1) (fun c mem => (kinds c mem).2) ?_ ?_ ?_ ?_
  · rw [stream]
    refine (Stream.wellFormed_wrapped nodup all_inner).fitting ?_
    rwa [allocations, length]
  · rw [stream]
    intro empty
    rw [empty] at allocations
    rw [← allocations] at length
    exact Nat.ne_of_lt pos length
  · rw [stream]
    exact Stream.live_wrapped nodup all_inner
  · rw [stream]
    intro b mem
    rw [Stream.wrapped, List.mem_append, List.mem_append] at mem
    rcases mem with (mem | mem) | mem
    · obtain ⟨q, _, rfl⟩ := List.mem_map.mp mem
      rfl
    · exact (inner_stream mem).2
    · obtain ⟨q, _, rfl⟩ := List.mem_map.mp mem
      rfl

/-! ### Entanglement and the Fourier transform -/

/-- The preparation of an entangled state is routed to its end. -/
lemma routes_ghz (fresh : mapper.Fresh) (unused : mapper.statistics = {}) (pos : 0 < n)
    (room : n ≤ mapper.router.numQubits) : mapper.Routes (ghz n) := by
  refine routes_wrap fresh unused pos room fun command mem => ?_
  have nodup := firstQubits_nodup (Nat.lt_of_le_of_lt room fresh.valid.numQubits_lt)
  rcases List.mem_append.mp mem with mem | mem
  · generalize firstQubits n = qubits at mem nodup
    cases qubits with
    | nil => cases mem
    | cons first others =>
      rcases List.mem_cons.mp mem with rfl | mem
      · exact inner_gate rfl List.mem_cons_self
      · obtain ⟨target, inOthers, rfl⟩ := List.mem_map.mp mem
        refine inner_controlled rfl ?_ List.mem_cons_self (List.mem_cons_of_mem _ inOthers)
        rintro rfl
        exact (List.nodup_cons.mp nodup).1 inOthers
  · obtain ⟨q, known, rfl⟩ := List.mem_map.mp mem
    exact inner_measure known

/-- The Fourier transform is routed to its end. -/
lemma routes_fourier (fresh : mapper.Fresh) (unused : mapper.statistics = {}) (pos : 0 < n)
    (room : n ≤ mapper.router.numQubits) : mapper.Routes (fourier n) := by
  have small := Nat.lt_of_le_of_lt room fresh.valid.numQubits_lt
  refine routes_wrap fresh unused pos room fun command mem => ?_
  obtain ⟨target, inRange, mem⟩ := List.mem_flatMap.mp mem
  rw [List.mem_range] at inRange
  rcases List.mem_cons.mp mem with rfl | mem
  · exact inner_gate rfl (mem_firstQubits inRange)
  · obtain ⟨control, later, rfl⟩ := List.mem_map.mp mem
    rw [List.mem_filter, List.mem_range, decide_eq_true_iff] at later
    obtain ⟨ltControl, less⟩ := later
    refine inner_controlled rfl ?_ (mem_firstQubits ltControl) (mem_firstQubits inRange)
    intro same
    exact Nat.ne_of_gt less (ofNat_inj (Nat.lt_trans ltControl small) (Nat.lt_trans inRange small) same)

end Circuit

namespace Random

/-- A scaled draw stays below its bound. -/
lemma scaledBelow_lt {bound : Nat} (pos : 0 < bound) (zone draws : Nat) (stream : Stream) :
    (scaledBelow bound zone draws stream).1 < bound := by
  induction draws generalizing stream with
  | zero => exact pos
  | succ draws ih =>
    rw [scaledBelow]
    dsimp only
    split
    · apply Nat.div_lt_of_lt_mul
      exact Nat.mul_lt_mul_of_pos_right stream.next32.1.toNat_lt pos
    · exact ih _

/-- A draw stays below its bound. -/
lemma below_lt {bound : Nat} (pos : 0 < bound) (stream : Stream) : (below bound stream).1 < bound :=
  scaledBelow_lt pos _ _ _

end Random

namespace Circuit

variable {n : Nat} {mapper : Mapper}

/-! ### Random circuits -/

/-- A random gate on a single qubit acts on one qubit. -/
lemma arity_randomSingle (stream : Random.Stream) : (randomSingle stream).1.arity = 1 := by
  rw [randomSingle]
  split <;> rfl

/-- A step of less than a whole turn around the qubits leads to another one. -/
lemma add_mod_ne {a step : Nat} (lt : a < n) (short : step < n - 1) : (a + (1 + step)) % n ≠ a := by
  rcases Nat.lt_or_ge (a + (1 + step)) n with within | around
  · rw [Nat.mod_eq_of_lt within]
    omega
  · rw [Nat.mod_eq_sub_mod around, Nat.mod_eq_of_lt (by omega)]
    omega

/-- Random gates act on qubits of the circuit, and on two different ones if on two. -/
lemma inner_randomCommand (pos : 0 < n) (small : n ≤ 2 ^ 31) (stream : Random.Stream) :
    ∃ command rest, randomCommand n stream = .ok (command, rest) ∧ Inner (firstQubits n) command := by
  have ltA := Random.below_lt pos stream
  rw [randomCommand]
  generalize Random.below n stream = drawn at ltA
  obtain ⟨a, stream⟩ := drawn
  dsimp only at ltA ⊢
  have known := mem_firstQubits ltA
  by_cases several : n ≥ 2
  · rw [if_pos several]
    obtain ⟨two, stream⟩ := Random.coin stream
    cases two with
    | true =>
      have ltStep : (Random.below (n - 1) stream).1 < n - 1 := Random.below_lt (by omega) stream
      generalize Random.below (n - 1) stream = drawn at ltStep
      obtain ⟨step, stream⟩ := drawn
      dsimp only at ltStep ⊢
      have sum : word32 (a + (1 + step)) = .ok (a + (1 + step)) := by
        apply word32_of_lt
        rw [UInt32.size]
        omega
      rw [if_pos rfl, sum]
      refine ⟨_, _, rfl, inner_cz ?_ known (mem_firstQubits (Nat.mod_lt _ pos))⟩
      intro same
      have ltSum := Nat.mod_lt (a + (1 + step)) pos
      exact add_mod_ne ltA ltStep (ofNat_inj (by omega) (by omega) same).symm
    | false => exact ⟨_, _, rfl, inner_gate (arity_randomSingle stream) known⟩
  · rw [if_neg several]
    exact ⟨_, _, rfl, inner_gate (arity_randomSingle stream) known⟩

/-- Random commands on the first qubits can be drawn, and all of them may stand inside. -/
lemma inner_randomCommands (pos : 0 < n) (small : n ≤ 2 ^ 31) (count : Nat) (stream : Random.Stream) :
    ∃ body, randomCommands n count stream = .ok body ∧ ∀ command ∈ body, Inner (firstQubits n) command := by
  induction count generalizing stream with
  | zero => exact ⟨[], rfl, nofun⟩
  | succ count ih =>
    obtain ⟨command, stream', drawn, inner⟩ := inner_randomCommand pos small stream
    obtain ⟨rest, later, inner_rest⟩ := ih stream'
    refine ⟨command :: rest, ?_, List.forall_mem_cons.mpr ⟨inner, inner_rest⟩⟩
    rw [randomCommands, drawn]
    change (do let rest ← randomCommands n count stream'; return command :: rest) = _
    rw [later]
    rfl

/-- A random circuit can be drawn and is routed to its end. -/
lemma routes_random (fresh : mapper.Fresh) (unused : mapper.statistics = {}) (pos : 0 < n)
    (room : n ≤ mapper.router.numQubits) (small : n ≤ 2 ^ 31) (numGates : Nat) (seed : UInt64) :
    ∃ circuit, random n numGates seed = .ok circuit ∧ mapper.Routes circuit := by
  obtain ⟨body, drawn, inner⟩ := inner_randomCommands pos small numGates (Random.Stream.ofSeed seed)
  refine ⟨wrap n body, ?_, routes_wrap fresh unused pos room inner⟩
  rw [random, if_neg (Nat.ne_of_gt pos), drawn]
  rfl

end Circuit

/-- Every circuit of the library is routed to its end on every device with as many positions. -/
theorem circuits_routed {config : Config} {mapper : Mapper} (built : config.mapper = .ok mapper) {n : Nat}
    (pos : 0 < n) (room : n ≤ mapper.router.numQubits) :
    mapper.Routes (Circuit.ghz n) ∧ mapper.Routes (Circuit.fourier n) ∧
      ∀ numGates seed, n ≤ 2 ^ 31 →
        ∃ circuit, Circuit.random n numGates seed = .ok circuit ∧ mapper.Routes circuit := by
  have fresh := Config.fresh_mapper built
  obtain ⟨router, storage, _, rfl⟩ := Config.exists_router built
  refine ⟨Circuit.routes_ghz fresh rfl pos room, Circuit.routes_fourier fresh rfl pos room, ?_⟩
  intro numGates seed small
  exact Circuit.routes_random fresh rfl pos room small numGates seed

/-- All pairs of five qubits interact on a grid of six positions. -/
theorem circuits_routed_on_grid :
    ∃ mapper, (Config.grid { rows := 2, columns := 3, storage := 2 }).mapper = .ok mapper ∧
      mapper.Routes (Circuit.fourier 5) ∧
      ∃ circuit, Circuit.random 5 20 7 = .ok circuit ∧ mapper.Routes circuit := by
  obtain ⟨mapper, built, six⟩ : ∃ mapper,
      (Config.grid { rows := 2, columns := 3, storage := 2 }).mapper = .ok mapper ∧
        mapper.router.numQubits = 6 :=
    ⟨_, rfl, rfl⟩
  obtain ⟨_, fourier, random⟩ := circuits_routed built (n := 5) (by decide) (by rw [six]; decide)
  exact ⟨mapper, built, fourier, random 20 7 (by decide)⟩

end QubitRouting
