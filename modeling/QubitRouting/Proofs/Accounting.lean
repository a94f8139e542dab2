import QubitRouting.Proofs.Completeness

/-!
# Every command is accounted for

Commands leave the buffer by being forwarded, and in no other way: the buffer after a call is what it was
before, with the commands taken in at its end and those forwarded taken out. A round that does not stop
shrinks the buffer, so the rounds of a flush come to an end. A call that fails says where it stopped: at
a round that forwarded nothing, or at a command that was refused.
-/

namespace QubitRouting

open scoped List
open Log (accepted forwarded)

/-- The flush that was passed on. -/
def Event.flushed? : Event → Option Command
  | flushed command => some command
  | accepted _ | forwarded _ _ | inserted _ => none

namespace Log

/-- The flushes passed on, in order. -/
def flushed (log : List Event) : List Command := log.filterMap Event.flushed?

/-- The flushes of two logs, one after the other, are those of the first and then those of the second. -/
@[simp]
lemma flushed_append (log more : List Event) : flushed (log ++ more) = flushed log ++ flushed more :=
  List.filterMap_append

/-- Handling the buffer passes no flush on. -/
lemma flushed_handled (handled : List Dispatch.Handled) :
    flushed (handled.filterMap Event.ofHandled?) = [] := by
  rw [flushed, List.filterMap_filterMap, List.filterMap_eq_nil_iff]
  rintro ⟨b, forwarded⟩ _
  cases forwarded <;> rfl

/-- Inserted commands are no flushes. -/
lemma flushed_inserted (commands : List Command) : flushed (commands.map .inserted) = [] := by
  rw [flushed, List.filterMap_map, List.filterMap_eq_nil_iff]
  exact fun _ _ => rfl

end Log

open Log (flushed)

/-- Going on twice is going on with both in turn. -/
lemma Outcome.andThen_assoc (outcome : Outcome) (next more : Mapper → Outcome) :
    (outcome.andThen next).andThen more = outcome.andThen fun mapper => (next mapper).andThen more := by
  cases ends : outcome.failure with
  | some failure => rw [andThen_of_failed ends, andThen_of_failed ends, andThen_of_failed ends]
  | none =>
    rw [andThen_of_ok ends, andThen_of_ok ends]
    cases later : (next outcome.mapper).failure with
    | some failure => simp [andThen, later]
    | none => simp [andThen, later]

/-- If what goes on succeeds, both parts succeed. -/
lemma Outcome.ok_of_andThen {outcome : Outcome} {next : Mapper → Outcome}
    (ok : (outcome.andThen next).failure = none) :
    outcome.failure = none ∧ (next outcome.mapper).failure = none := by
  cases ends : outcome.failure with
  | some failure =>
    rw [andThen_of_failed ends, ends] at ok
    cases ok
  | none =>
    rw [andThen_of_ok ends] at ok
    exact ⟨rfl, ok⟩

namespace Mapper

variable {mapper after final : Mapper} {log more : List Event} {outcome : Outcome}

/-! ### What leaves the buffer was forwarded -/

/-- The buffer keeps its order, and what left it was forwarded. -/
structure Accounts (mapper : Mapper) (log : List Event) (after : Mapper) : Prop where
  sublist : after.buffer <+ mapper.buffer ++ accepted log
  perm : after.buffer ++ forwarded log ~ mapper.buffer ++ accepted log

/-- Nothing has to be accounted for if nothing happens. -/
lemma Accounts.refl (mapper : Mapper) : Accounts mapper [] mapper := by
  refine ⟨?_, ?_⟩
  · exact List.sublist_append_left _ _
  · exact .refl _

/-- Accounts of two stretches add up. -/
lemma Accounts.trans (first : Accounts mapper log after) (second : Accounts after more final) :
    Accounts mapper (log ++ more) final := by
  refine ⟨?_, ?_⟩
  · rw [Log.accepted_append, ← List.append_assoc]
    exact second.sublist.trans (first.sublist.append_right _)
  · rw [Log.accepted_append, Log.forwarded_append]
    calc
      final.buffer ++ (forwarded log ++ forwarded more)
        ~ final.buffer ++ (forwarded more ++ forwarded log) := List.perm_append_comm.append_left _
      _ = final.buffer ++ forwarded more ++ forwarded log := (List.append_assoc _ _ _).symm
      _ ~ after.buffer ++ accepted more ++ forwarded log := second.perm.append_right _
      _ = after.buffer ++ (accepted more ++ forwarded log) := List.append_assoc _ _ _
      _ ~ after.buffer ++ (forwarded log ++ accepted more) := List.perm_append_comm.append_left _
      _ = after.buffer ++ forwarded log ++ accepted more := (List.append_assoc _ _ _).symm
      _ ~ mapper.buffer ++ accepted log ++ accepted more := first.perm.append_right _
      _ = mapper.buffer ++ (accepted log ++ accepted more) := List.append_assoc _ _ _

/-- One step keeps the buffer in order and forwards what leaves it. -/
lemma Step.accounts (step : mapper.Step log after) : Accounts mapper log after := by
  cases step with
  | @accept _ buffered _ =>
    refine ⟨.refl _, ?_⟩
    rw [Log.forwarded_singleton]
    exact .of_eq (List.append_nil _)
  | flush => exact ⟨List.sublist_append_left _ _, .refl _⟩
  | dispatch dispatched =>
    cases dispatched with
    | intro _ pass =>
      refine ⟨?_, ?_⟩
      · rw [Log.accepted_handled, List.append_nil]
        exact pass.kept_sublist
      · rw [Log.accepted_handled, Log.forwarded_handled, List.append_nil]
        exact List.perm_append_comm.trans pass.perm
  | remap remapped =>
    cases remapped with
    | @intro swaps =>
      obtain ⟨commands, events⟩ := mapper.swapEvents_eq swaps
      rw [events]
      refine ⟨List.sublist_append_left _ _, ?_⟩
      rw [Log.accepted_inserted, Log.forwarded_inserted]

/-- Any number of steps keep the buffer in order and forward what leaves it. -/
lemma Steps.accounts (run : Steps mapper log final) : Accounts mapper log final := by
  induction run with
  | refl => exact .refl _
  | head step _ ih => exact step.accounts.trans ih

/-! ### Rounds -/

/-- Nothing was taken in and no flush passed on. -/
def Quiet (log : List Event) : Prop := accepted log = [] ∧ flushed log = []

/-- Two quiet logs make a quiet one. -/
lemma Quiet.append (first : Quiet log) (second : Quiet more) : Quiet (log ++ more) := by
  refine ⟨?_, ?_⟩
  · rw [Log.accepted_append, first.1, second.1, List.append_nil]
  · rw [Log.flushed_append, first.2, second.2, List.append_nil]

/-- A pass over the buffer is quiet. -/
lemma Dispatched.quiet (dispatched : Dispatched mapper log after) : Quiet log := by
  cases dispatched
  exact ⟨Log.accepted_handled _, Log.flushed_handled _⟩

/-- A change of layout is quiet. -/
lemma Remap.quiet (remapped : Remap mapper log after) : Quiet log := by
  cases remapped with
  | @intro swaps =>
    obtain ⟨commands, events⟩ := mapper.swapEvents_eq swaps
    rw [events]
    exact ⟨Log.accepted_inserted commands, Log.flushed_inserted commands⟩

/-- A round is quiet. -/
lemma quiet_round (sound : mapper.Sound) : Quiet mapper.round.log := by
  rcases round_eq sound with ⟨log, after, dispatched, _, run⟩ |
    ⟨log, first, begins, moves, middle, more, after, remapped, last, run⟩
  · rw [run]
    exact dispatched.quiet
  · rw [run]
    have begins : Quiet log := by
      rcases begins with ⟨rfl, _⟩ | ⟨dispatched, _⟩
      · exact ⟨rfl, rfl⟩
      · exact dispatched.quiet
    exact begins.append (remapped.quiet.append last.quiet)

/-- A round that stops has forwarded nothing and left the buffer as it was. -/
lemma round_stopped (sound : mapper.Sound) {failure : Failure} (failed : mapper.round.failure = some failure) :
    failure = .error (.noProgress mapper.buffer.length) ∧ forwarded mapper.round.log = [] ∧
      mapper.round.mapper.buffer = mapper.buffer := by
  obtain ⟨sublist, perm⟩ := (follows_round sound).accounts
  rw [(quiet_round sound).1, List.append_nil] at sublist perm
  have stopped : mapper.round.mapper.buffer.length = mapper.buffer.length ∧
      failure = .error (.noProgress mapper.round.mapper.buffer.length) := by
    rcases round_eq sound with ⟨log, after, _, _, run⟩ | ⟨_, _, _, _, _, _, after, _, _, run⟩
    · rw [run] at failed
      cases failed
    · rw [run] at failed ⊢
      change after.progress mapper.buffer.length = some failure at failed
      rw [progress] at failed
      split at failed
      case isTrue same => exact ⟨same, (Option.some.inj failed).symm⟩
      case isFalse => cases failed
  have same := sublist.eq_of_length stopped.1
  rw [same] at perm stopped
  refine ⟨stopped.2, ?_, same⟩
  have length := perm.length_eq
  rw [List.length_append] at length
  exact List.length_eq_zero_iff.mp (by omega)

/-- Rounds for as long as there are commands in the buffer, with no bound on their number. -/
inductive Loop : Mapper → Nat → Outcome → Prop
  | done {mapper : Mapper} : mapper.buffer = [] → Loop mapper 0 { mapper }
  | stopped {mapper : Mapper} {failure : Failure} : mapper.buffer ≠ [] →
      mapper.round.failure = some failure → Loop mapper 1 mapper.round
  | next {mapper : Mapper} {rounds : Nat} {outcome : Outcome} : mapper.buffer ≠ [] →
      mapper.round.failure = none → Loop mapper.round.mapper rounds outcome →
      Loop mapper (rounds + 1) { outcome with log := mapper.round.log ++ outcome.log }

/-- The loop ends after at most as many rounds as there are commands in the buffer. -/
lemma loop_drain (sound : mapper.Sound) {bound : Nat} (enough : mapper.buffer.length ≤ bound) :
    ∃ rounds ≤ mapper.buffer.length, Loop mapper rounds (mapper.drain bound) := by
  induction bound generalizing mapper with
  | zero =>
    have empty : mapper.buffer = [] := List.length_eq_zero_iff.mp (Nat.le_zero.mp enough)
    exact ⟨0, Nat.zero_le _, .done empty⟩
  | succ bound ih =>
    rw [drain]
    split
    case isTrue empty => exact ⟨0, Nat.zero_le _, .done (List.isEmpty_iff.mp empty)⟩
    case isFalse left =>
      have nonempty : mapper.buffer ≠ [] := fun empty => left (List.isEmpty_iff.mpr empty)
      cases ends : mapper.round.failure with
      | some failure =>
        rw [Outcome.andThen_of_failed ends]
        exact ⟨1, List.length_pos_iff.mpr nonempty, .stopped nonempty ends⟩
      | none =>
        have shrinks := round_shrinks sound nonempty ends
        obtain ⟨rounds, few, loop⟩ := ih ((follows_round sound).sound sound) (by omega)
        rw [Outcome.andThen_of_ok ends]
        exact ⟨rounds + 1, by omega, .next nonempty ends loop⟩

/-- While commands are left, draining runs one round and goes on. -/
lemma drain_succ (left : ¬mapper.buffer.isEmpty = true) (rounds : Nat) :
    mapper.drain (rounds + 1) = mapper.round.andThen (drain rounds) := by
  rw [drain, if_neg left]

/-- Draining the buffer is quiet. -/
lemma quiet_drain (sound : mapper.Sound) (rounds : Nat) : Quiet (mapper.drain rounds).log := by
  induction rounds generalizing mapper with
  | zero => exact ⟨rfl, rfl⟩
  | succ rounds ih =>
    rw [drain]
    split
    · exact ⟨rfl, rfl⟩
    · cases ends : mapper.round.failure with
      | some failure =>
        rw [Outcome.andThen_of_failed ends]
        exact quiet_round sound
      | none =>
        rw [Outcome.andThen_of_ok ends]
        exact (quiet_round sound).append (ih ((follows_round sound).sound sound))

/-- Rounds that come to a stop are rounds that do not, and one more that does. -/
lemma drain_stopped {bound : Nat} {failure : Failure}
    (failed : (mapper.drain bound).failure = some failure) :
    ∃ rounds, (mapper.drain rounds).failure = none ∧
      (mapper.drain rounds).mapper.round.failure = some failure ∧
      mapper.drain bound = (mapper.drain rounds).andThen round := by
  induction bound generalizing mapper with
  | zero => cases failed
  | succ bound ih =>
    rw [drain] at failed
    split at failed
    case isTrue => cases failed
    case isFalse left =>
      cases ends : mapper.round.failure with
      | some cause =>
        rw [Outcome.andThen_of_failed ends, ends] at failed
        cases failed
        refine ⟨0, rfl, ends, ?_⟩
        rw [drain_succ left, Outcome.andThen_of_failed ends, Outcome.andThen_of_ok rfl]
        rfl
      | none =>
        rw [Outcome.andThen_of_ok ends] at failed
        obtain ⟨rounds, ok, stops, run⟩ := ih failed
        refine ⟨rounds + 1, ?_, ?_, ?_⟩
        · rw [drain_succ left, Outcome.andThen_of_ok ends]
          exact ok
        · rw [drain_succ left, Outcome.andThen_of_ok ends]
          exact stops
        · rw [drain_succ left, drain_succ left, Outcome.andThen_assoc, Outcome.andThen_of_ok ends,
            Outcome.andThen_of_ok ends, run]

/-! ### What a call takes in -/

/-- Commands that were taken in: each went to the buffer, or is a flush that was passed on. -/
structure Took (commands : List Command) (log : List Event) : Prop where
  takes : ∀ command ∈ commands, Takes command
  accepted_eq : accepted log = Stream.ofCommands commands
  flushed_eq : flushed log = commands.filter Command.isFlush

/-- What two logs took in, one after the other, makes up what both took in. -/
lemma Took.append {first second : List Command} (one : Took first log) (two : Took second more) :
    Took (first ++ second) (log ++ more) := by
  refine ⟨?_, ?_, ?_⟩
  · intro command mem
    rcases List.mem_append.mp mem with mem | mem
    · exact one.takes command mem
    · exact two.takes command mem
  · rw [Log.accepted_append, Stream.ofCommands_append, one.accepted_eq, two.accepted_eq]
  · rw [Log.flushed_append, List.filter_append, one.flushed_eq, two.flushed_eq]

/-- A quiet stretch takes nothing in. -/
lemma Took.quiet {commands : List Command} (took : Took commands log) (quiet : Quiet more) :
    Took commands (log ++ more) := by
  have nothing : Took [] more := ⟨nofun, quiet.1, quiet.2⟩
  have := took.append nothing
  rwa [List.append_nil] at this

/-- Accepting a command takes just this one in. -/
lemma took_accept (sound : mapper.Sound) {command : Command} (ok : (mapper.accept command).failure = none) :
    Took [command] (mapper.accept command).log := by
  rw [accept] at ok ⊢
  split
  case isTrue flush =>
    rw [if_pos flush] at ok
    rw [Outcome.andThen_of_ok (Outcome.ok_of_andThen ok).1]
    obtain ⟨none_accepted, none_flushed⟩ := quiet_drain sound mapper.buffer.length
    refine ⟨List.forall_mem_singleton.mpr (.inl flush), ?_, ?_⟩
    · rw [Log.accepted_append, none_accepted, Stream.ofCommands_flush flush]
      rfl
    · rw [Log.flushed_append, none_flushed, List.filter_cons_of_pos flush]
      rfl
  case isFalse notFlush =>
    rw [if_neg notFlush] at ok
    cases classified : Buffered.classify command with
    | error cause =>
      rw [classified] at ok
      cases ok
    | ok b =>
      refine ⟨List.forall_mem_singleton.mpr (.inr (by rw [classified]; rfl)), ?_, ?_⟩
      · rw [Stream.ofCommands_classified classified]
        rfl
      · rw [List.filter_cons_of_neg notFlush]
        rfl

/-- A batch can be taken in as two batches. -/
lemma takeIn_append (first second : List Command) (mapper : Mapper) :
    mapper.takeIn (first ++ second) = (mapper.takeIn first).andThen (takeIn second) := by
  induction first generalizing mapper with
  | nil =>
    rw [takeIn, Outcome.andThen_of_ok rfl]
    rfl
  | cons command rest ih =>
    rw [List.cons_append, takeIn, takeIn, Outcome.andThen_assoc]
    congr 1
    funext mapper
    exact ih mapper

/-- A batch of one command is accepting it. -/
lemma takeIn_singleton (command : Command) (mapper : Mapper) :
    mapper.takeIn [command] = mapper.accept command := by
  rw [takeIn]
  cases ends : (mapper.accept command).failure with
  | some failure => rw [Outcome.andThen_of_failed ends]
  | none =>
    rw [Outcome.andThen_of_ok ends, takeIn, List.append_nil, ← ends]

/-- The last command of a batch is accepted after all others. -/
lemma takeIn_concat (commands : List Command) (command : Command) (mapper : Mapper) :
    mapper.takeIn (commands ++ [command]) = (mapper.takeIn commands).andThen (accept command) := by
  rw [takeIn_append]
  congr 1
  funext mapper
  exact takeIn_singleton command mapper

/-- Commands are all taken in, or the first that cannot be ends the call. -/
lemma takeIn_ends (sound : mapper.Sound) (commands : List Command) :
    ((mapper.takeIn commands).failure = none ∧ Took commands (mapper.takeIn commands).log) ∨
    ∃ done command rest failure, commands = done ++ command :: rest ∧
      (mapper.takeIn done).failure = none ∧ Took done (mapper.takeIn done).log ∧
      ((mapper.takeIn done).mapper.accept command).failure = some failure ∧
      mapper.takeIn commands = (mapper.takeIn done).andThen (accept command) := by
  induction commands using List.reverseRecOn with
  | nil => exact .inl ⟨rfl, nofun, rfl, rfl⟩
  | append_singleton commands last ih =>
    rcases ih with ⟨ok, took⟩ | ⟨done, command, rest, failure, rfl, ok, took, failed, run⟩
    · have middle := (follows_takeIn sound commands).sound sound
      have grown := takeIn_concat commands last mapper
      cases ends : ((mapper.takeIn commands).mapper.accept last).failure with
      | some failure => exact .inr ⟨commands, last, [], failure, rfl, ok, took, ends, grown⟩
      | none =>
        left
        rw [grown, Outcome.andThen_of_ok ok]
        exact ⟨ends, took.append (took_accept middle ends)⟩
    · right
      refine ⟨done, command, rest ++ [last], failure, ?_, ok, took, failed, ?_⟩
      · rw [List.append_assoc, List.cons_append]
      · have stays : (mapper.takeIn (done ++ command :: rest)).failure = some failure := by
          rw [run, Outcome.andThen_of_ok ok]
          exact failed
        rw [takeIn_append, Outcome.andThen_of_failed stays, run]

/-- A command that is refused, or whose rounds stop, leaves a quiet log. -/
lemma quiet_of_refused (sound : mapper.Sound) {command : Command} {failure : Failure}
    (failed : (mapper.accept command).failure = some failure) : Quiet (mapper.accept command).log := by
  rw [accept] at failed ⊢
  split
  case isTrue flush =>
    rw [if_pos flush] at failed
    cases ends : (mapper.drain mapper.buffer.length).failure with
    | some cause =>
      rw [Outcome.andThen_of_failed ends]
      exact quiet_drain sound _
    | none =>
      rw [Outcome.andThen_of_ok ends] at failed
      cases failed
  case isFalse notFlush =>
    rw [if_neg notFlush] at failed
    cases classified : Buffered.classify command with
    | error cause => exact ⟨rfl, rfl⟩
    | ok b =>
      rw [classified] at failed
      cases failed

/-- The round at the end of a call is quiet. -/
lemma quiet_roundIfFull (sound : mapper.Sound) : Quiet mapper.roundIfFull.log := by
  rw [roundIfFull]
  split
  · exact quiet_round sound
  · exact ⟨rfl, rfl⟩

/-- A call takes in the commands of its batch from the first on, all of them unless it fails. -/
lemma took_receive (sound : mapper.Sound) (batch : List Command) :
    ∃ done rest, batch = done ++ rest ∧ Took done (mapper.receive batch).log ∧
      ((mapper.receive batch).failure = none → rest = []) := by
  rw [receive_eq]
  rcases takeIn_ends sound batch with ⟨ok, took⟩ | ⟨done, command, rest, failure, split, ok, took, failed, run⟩
  · refine ⟨batch, [], (List.append_nil _).symm, ?_, fun _ => rfl⟩
    rw [Outcome.andThen_of_ok ok]
    exact took.quiet (quiet_roundIfFull ((follows_takeIn sound batch).sound sound))
  · rw [Outcome.andThen_of_ok ok] at run
    have stopped : (mapper.takeIn batch).failure = some failure := by
      rw [run]
      exact failed
    refine ⟨done, command :: rest, split, ?_, ?_⟩
    · rw [Outcome.andThen_of_failed stopped, run]
      exact took.quiet (quiet_of_refused ((follows_takeIn sound done).sound sound) failed)
    · intro absurdity
      rw [Outcome.andThen_of_failed stopped, stopped] at absurdity
      cases absurdity

/-! ### Flushes -/

/-- A step that passes a flush on does nothing else, and the buffer is empty before it. -/
lemma Step.eq_of_flushed (step : mapper.Step log after) {command : Command}
    (mem : .flushed command ∈ log) : log = [.flushed command] ∧ mapper.buffer = [] := by
  have listed : command ∈ flushed log := List.mem_filterMap.mpr ⟨_, mem, rfl⟩
  cases step with
  | accept => cases listed
  | flush _ empty =>
    obtain rfl := List.mem_singleton.mp listed
    exact ⟨rfl, empty⟩
  | dispatch dispatched =>
    rw [dispatched.quiet.2] at listed
    cases listed
  | remap remapped =>
    rw [remapped.quiet.2] at listed
    cases listed

/-- A flush is passed on with an empty buffer. -/
lemma Steps.exists_flush {past rest : List Event} {command : Command}
    (run : Steps mapper (past ++ .flushed command :: rest) final) :
    ∃ now, Steps mapper past now ∧ now.buffer = [] := by
  generalize whole : past ++ .flushed command :: rest = log at run
  induction run generalizing past with
  | refl => cases (List.append_eq_nil_iff.mp whole).2
  | @head mapper after final log more step run ih =>
    rcases List.append_eq_append_iff.mp whole with ⟨early, eq, later⟩ | ⟨early, rfl, later⟩
    · cases early with
      | nil =>
        rw [List.append_nil] at eq
        obtain ⟨now, steps, empty⟩ := @ih [] later
        have both := (Steps.single step).trans steps
        rw [List.append_nil, eq] at both
        exact ⟨now, both, empty⟩
      | cons event early =>
        -- the flush is all that this step did
        obtain ⟨rfl, _⟩ := List.cons.inj later
        obtain ⟨only, empty⟩ := step.eq_of_flushed (eq ▸ List.mem_append_right _ List.mem_cons_self)
        rw [eq] at only
        obtain rfl : past = [] := by
          cases past with
          | nil => rfl
          | cons head tail => simp at only
        exact ⟨mapper, .refl, empty⟩
    · obtain ⟨now, steps, empty⟩ := ih later.symm
      exact ⟨now, .head step steps, empty⟩

/-- By the time a flush is passed on, all that was taken in has been forwarded. -/
lemma forwarded_of_flushed (run : mapper.Follows outcome) {past rest : List Event} {command : Command}
    (whole : outcome.log = past ++ .flushed command :: rest) :
    forwarded past ~ mapper.buffer ++ accepted past := by
  rw [Follows, whole] at run
  obtain ⟨now, steps, empty⟩ := run.exists_flush
  have perm := steps.accounts.perm
  rwa [empty, List.nil_append] at perm

/-- Once a flush is accepted, the buffer is empty. -/
lemma buffer_accept_flush (sound : mapper.Sound) {command : Command} (flush : command.isFlush = true)
    (ok : (mapper.accept command).failure = none) : (mapper.accept command).mapper.buffer = [] := by
  rw [accept, if_pos flush] at ok ⊢
  have drained := (Outcome.ok_of_andThen ok).1
  rw [Outcome.andThen_of_ok drained]
  exact buffer_drain sound (Nat.le_refl _) drained

/-- Right after a flush the buffer is empty. -/
lemma buffer_takeIn_flush (sound : mapper.Sound) {commands : List Command} {command : Command}
    (flush : command.isFlush = true) (ok : (mapper.takeIn (commands ++ [command])).failure = none) :
    (mapper.takeIn (commands ++ [command])).mapper.buffer = [] := by
  rw [takeIn_concat] at ok ⊢
  obtain ⟨before, accepted⟩ := Outcome.ok_of_andThen ok
  rw [Outcome.andThen_of_ok before]
  exact buffer_accept_flush ((follows_takeIn sound commands).sound sound) flush accepted

/-! ### How calls fail -/

/-- A round that begins where one outcome ends brings a call to its end: it forwards nothing, and the
buffer stays as it is. -/
structure StopsAt (begun outcome : Outcome) (remaining : Nat) : Prop where
  ok : begun.failure = none
  last : outcome = { begun.mapper.round with log := begun.log ++ begun.mapper.round.log }
  idle : forwarded begun.mapper.round.log = []
  buffer_eq : outcome.mapper.buffer = begun.mapper.buffer
  remaining_eq : remaining = outcome.mapper.buffer.length

/-- Commands without a flush that were taken in after others are in the buffer, and nothing else has
happened since. -/
structure Waits (begun outcome : Outcome) (recent : List Command) : Prop where
  ok : begun.failure = none
  noFlush : ∀ command ∈ recent, command.isFlush = false
  log_eq : outcome.log = begun.log ++ (Stream.ofCommands recent).map .accepted
  mapper_eq : outcome.mapper =
    { begun.mapper with buffer := begun.mapper.buffer ++ Stream.ofCommands recent }

/-- A round that fails after some others reports that there was no progress, and the call stops there. -/
lemma stopsAt_of_failed {begun : Outcome} (sound : begun.mapper.Sound) (ok : begun.failure = none)
    {failure : Failure} (failed : begun.mapper.round.failure = some failure) :
    ∃ remaining, failure = .error (.noProgress remaining) ∧
      StopsAt begun (begun.andThen round) remaining := by
  obtain ⟨cause, idle, same⟩ := round_stopped sound failed
  refine ⟨begun.mapper.buffer.length, cause, ?_⟩
  rw [Outcome.andThen_of_ok ok]
  exact ⟨ok, rfl, idle, same, congrArg List.length same.symm⟩

/-- A command fails either as a flush, in one of its rounds, or because it cannot be buffered. -/
lemma accept_failed {command : Command} {failure : Failure}
    (failed : (mapper.accept command).failure = some failure) :
    (command.isFlush = true ∧ ∃ rounds, (mapper.drain rounds).failure = none ∧
      (mapper.drain rounds).mapper.round.failure = some failure ∧
      mapper.accept command = (mapper.drain rounds).andThen round) ∨
    ∃ error, Buffered.classify command = .error error ∧ failure = .error error ∧
      mapper.accept command = { mapper, failure := some failure } := by
  rw [accept] at failed ⊢
  split
  case isTrue flush =>
    left
    rw [if_pos flush] at failed
    cases ends : (mapper.drain mapper.buffer.length).failure with
    | none =>
      rw [Outcome.andThen_of_ok ends] at failed
      cases failed
    | some cause =>
      rw [Outcome.andThen_of_failed ends] at failed ⊢
      exact ⟨flush, drain_stopped failed⟩
  case isFalse notFlush =>
    right
    rw [if_neg notFlush] at failed
    cases classified : Buffered.classify command with
    | ok b =>
      rw [classified] at failed
      cases failed
    | error error =>
      rw [classified] at failed
      cases failed
      exact ⟨error, rfl, rfl, rfl⟩

/-- The commands of a batch since its last flush. -/
lemma exists_last_flush (commands : List Command) :
    ∃ early recent, commands = early ++ recent ∧ (∀ command ∈ recent, command.isFlush = false) ∧
      (early = [] ∨ ∃ before flush, early = before ++ [flush] ∧ flush.isFlush = true) := by
  induction commands using List.reverseRecOn with
  | nil => exact ⟨[], [], rfl, nofun, .inl rfl⟩
  | append_singleton commands last ih =>
    cases flush : last.isFlush with
    | true => exact ⟨commands ++ [last], [], (List.append_nil _).symm, nofun, .inr ⟨commands, last, rfl, flush⟩⟩
    | false =>
      obtain ⟨early, recent, rfl, noFlush, begins⟩ := ih
      refine ⟨early, recent ++ [last], List.append_assoc _ _ _, ?_, begins⟩
      intro command mem
      rcases List.mem_append.mp mem with mem | mem
      · exact noFlush command mem
      · obtain rfl := List.mem_singleton.mp mem
        exact flush

/-- Commands without a flush go to the buffer. -/
lemma takeIn_of_noFlush {commands : List Command} (takes : ∀ command ∈ commands, Takes command)
    (noFlush : ∀ command ∈ commands, command.isFlush = false) (mapper : Mapper) :
    mapper.takeIn commands =
      { mapper := { mapper with buffer := mapper.buffer ++ Stream.ofCommands commands }
        log := (Stream.ofCommands commands).map .accepted } := by
  induction commands generalizing mapper with
  | nil =>
    change _ = Outcome.mk { mapper with buffer := mapper.buffer ++ [] } _ _
    rw [List.append_nil]
    rfl
  | cons command rest ih =>
    have notFlush := noFlush command List.mem_cons_self
    obtain ⟨b, classified⟩ := (takes command List.mem_cons_self).exists_classify notFlush
    have taken : mapper.accept command = { mapper := { mapper with buffer := mapper.buffer ++ [b] }
                                           log := [.accepted b] } := by
      rw [accept, if_neg (Bool.eq_false_iff.mp notFlush), classified]
    have listed : Stream.ofCommands (command :: rest) = [b] ++ Stream.ofCommands rest := by
      rw [← List.singleton_append, Stream.ofCommands_append, Stream.ofCommands_classified classified]
    have more := ih (fun c mem => takes c (List.mem_cons_of_mem _ mem))
      (fun c mem => noFlush c (List.mem_cons_of_mem _ mem))
    rw [takeIn, taken, Outcome.andThen_of_ok rfl, more, listed, List.map_append, ← List.append_assoc]
    rfl

/-- Draining without rounds changes nothing. -/
lemma andThen_drain_zero (outcome : Outcome) : outcome.andThen (drain 0) = outcome := by
  cases ends : outcome.failure with
  | some failure => rw [Outcome.andThen_of_failed ends]
  | none =>
    rw [Outcome.andThen_of_ok ends, drain, List.append_nil, ← ends]

/-- A flush that fails is stopped by one of its rounds. -/
lemma stopsAt_of_flush (sound : mapper.Sound) {rounds : Nat} (ok : outcome.failure = none)
    (follows : mapper.Follows outcome) {failure : Failure} {command : Command}
    (drained : (outcome.mapper.drain rounds).failure = none)
    (stops : (outcome.mapper.drain rounds).mapper.round.failure = some failure)
    (whole : outcome.mapper.accept command = (outcome.mapper.drain rounds).andThen round) :
    ∃ remaining, failure = .error (.noProgress remaining) ∧
      StopsAt (outcome.andThen (drain rounds)) (outcome.andThen (accept command)) remaining := by
  have begun : (outcome.andThen (drain rounds)).failure = none := by
    rw [Outcome.andThen_of_ok ok]
    exact drained
  have reached : mapper.Follows (outcome.andThen (drain rounds)) :=
    follows.andThen fun _ => follows_drain (follows.sound sound) rounds
  have stops : (outcome.andThen (drain rounds)).mapper.round.failure = some failure := by
    rw [Outcome.andThen_of_ok ok]
    exact stops
  have ends : outcome.andThen (accept command) = (outcome.andThen (drain rounds)).andThen round := by
    rw [Outcome.andThen_assoc, Outcome.andThen_of_ok ok, Outcome.andThen_of_ok ok, whole]
  rw [ends]
  exact stopsAt_of_failed (reached.sound sound) begun stops

/-- When a command is refused, those taken in since the last flush wait in the buffer. -/
lemma waits_of_refused (sound : mapper.Sound) {done : List Command} {command : Command} {failure : Failure}
    (ok : (mapper.takeIn done).failure = none) (takes : ∀ command ∈ done, Takes command)
    (refused : (mapper.takeIn done).mapper.accept command
      = { mapper := (mapper.takeIn done).mapper, failure := some failure }) :
    ∃ early recent, done = early ++ recent ∧
      (early = [] ∨ (∃ before flush, early = before ++ [flush] ∧ flush.isFlush = true) ∧
        (mapper.takeIn early).mapper.buffer = []) ∧
      Waits (mapper.takeIn early) ((mapper.takeIn done).andThen (accept command)) recent := by
  obtain ⟨early, recent, rfl, noFlush, begins⟩ := exists_last_flush done
  have recentTakes : ∀ command ∈ recent, Takes command :=
    fun command mem => takes command (List.mem_append_right _ mem)
  rw [Outcome.andThen_of_ok ok, refused]
  rw [takeIn_append] at ok
  have earlyOk := (Outcome.ok_of_andThen ok).1
  have since := takeIn_append early recent mapper
  rw [Outcome.andThen_of_ok earlyOk, takeIn_of_noFlush recentTakes noFlush] at since
  refine ⟨early, recent, rfl, ?_, earlyOk, noFlush, ?_, ?_⟩
  · rcases begins with empty | ⟨before, flush, rfl, isFlush⟩
    · exact .inl empty
    · exact .inr ⟨⟨before, flush, rfl, isFlush⟩, buffer_takeIn_flush sound isFlush earlyOk⟩
  · rw [since]
    exact List.append_nil _
  · rw [since]

/-- A call fails at a round without progress, asked for by a flush or at the end of the batch, or at a
command that is refused. -/
lemma receive_failed (sound : mapper.Sound) {batch : List Command} {failure : Failure}
    (failed : (mapper.receive batch).failure = some failure) :
    (∃ done rest rounds remaining, batch = done ++ rest ∧ failure = .error (.noProgress remaining) ∧
      (∀ command ∈ rest.head?, command.isFlush = true) ∧ Took done (mapper.receive batch).log ∧
      StopsAt ((mapper.takeIn done).andThen (drain rounds)) (mapper.receive batch) remaining) ∨
    ∃ early recent command rest error, batch = early ++ recent ++ command :: rest ∧
      Buffered.classify command = .error error ∧ failure = .error error ∧
      (early = [] ∨ (∃ before flush, early = before ++ [flush] ∧ flush.isFlush = true) ∧
        (mapper.takeIn early).mapper.buffer = []) ∧
      Waits (mapper.takeIn early) (mapper.receive batch) recent := by
  rw [receive_eq] at failed ⊢
  rcases takeIn_ends sound batch with ⟨ok, took⟩ | ⟨done, command, rest, cause, rfl, ok, took, refused, run⟩
  · -- the batch was taken in, so that the round at its end has stopped
    left
    have reached := (follows_takeIn sound batch).sound sound
    rw [Outcome.andThen_of_ok ok, roundIfFull] at failed ⊢
    split at failed
    case isFalse => cases failed
    case isTrue full =>
      rw [if_pos full]
      obtain ⟨remaining, rfl, stops⟩ := stopsAt_of_failed reached ok failed
      rw [Outcome.andThen_of_ok ok] at stops
      refine ⟨batch, [], 0, remaining, (List.append_nil _).symm, rfl, by simp,
        took.quiet (quiet_round reached), ?_⟩
      rw [andThen_drain_zero]
      exact stops
  · -- a command ended the batch: a flush that stopped, or one that was refused
    have reached := (follows_takeIn sound done).sound sound
    have stopped : (mapper.takeIn (done ++ command :: rest)).failure = some cause := by
      rw [run, Outcome.andThen_of_ok ok]
      exact refused
    rw [Outcome.andThen_of_failed stopped] at failed ⊢
    obtain rfl := Option.some.inj (failed.symm.trans stopped)
    rw [run]
    rcases accept_failed refused with ⟨flush, rounds, drained, stops, whole⟩ |
      ⟨error, classified, rfl, whole⟩
    · left
      obtain ⟨remaining, cause, stops⟩ :=
        stopsAt_of_flush sound ok (follows_takeIn sound done) drained stops whole
      refine ⟨done, command :: rest, rounds, remaining, rfl, cause, ?_, ?_, stops⟩
      · intro asked mem
        obtain rfl := Option.some.inj mem
        exact flush
      · rw [Outcome.andThen_of_ok ok]
        exact took.quiet (quiet_of_refused reached refused)
    · right
      obtain ⟨early, recent, rfl, begins, waits⟩ := waits_of_refused sound ok took.takes whole
      exact ⟨early, recent, command, rest, error, rfl, classified, rfl, begins, waits⟩

/-- Refusing a command is never reported as a lack of progress. -/
lemma classify_ne_noProgress (command : Command) (remaining : Nat) :
    Buffered.classify command ≠ .error (.noProgress remaining) := by
  intro classified
  rw [Buffered.classify] at classified
  split at classified
  · cases classified
  · split at classified
    · split at classified
      · cases classified
      · split at classified
        all_goals cases classified
    · split at classified
      all_goals cases classified
    · cases classified

/-- What holds of a call, whatever it returns: where its commands are, how its rounds and flushes went
and, if it failed, where it stopped. -/
structure Accounted (now : Mapper) (batch : List Command) (outcome : Outcome) : Prop where
  /-- The commands taken in are the first of the batch, and all of them unless the call fails. -/
  took : ∃ done rest, batch = done ++ rest ∧ Took done outcome.log ∧ (outcome.failure = none → rest = [])
  /-- The buffer keeps its order, and what left it is what was forwarded. -/
  accounts : Accounts now outcome.log outcome.mapper
  /-- A round that does not stop shrinks the buffer, at any moment of the call. -/
  shrinks : ∀ commands rounds midway, midway = ((now.takeIn commands).andThen (drain rounds)).mapper →
    midway.buffer ≠ [] → midway.round.failure = none →
      midway.round.mapper.buffer.length < midway.buffer.length
  /-- So a flush takes no more rounds than there are commands in the buffer. -/
  loops : ∀ commands rounds midway, midway = ((now.takeIn commands).andThen (drain rounds)).mapper →
    ∃ few ≤ midway.buffer.length, Loop midway few (midway.drain midway.buffer.length)
  /-- By the time a flush is passed on, all that came in was forwarded. -/
  flushes : ∀ past flush rest, outcome.log = past ++ .flushed flush :: rest →
    forwarded past ~ now.buffer ++ accepted past
  /-- Then the buffer is empty. -/
  empties : ∀ commands flush rest, batch = commands ++ flush :: rest → flush.isFlush = true →
    (now.takeIn (commands ++ [flush])).failure = none →
      (now.takeIn (commands ++ [flush])).mapper.buffer = []
  /-- A call without progress ends with a round that forwarded nothing and left the buffer as it was. A
  flush that asked for the round is the first command that was not taken in. -/
  stops : ∀ remaining, outcome.failure = some (.error (.noProgress remaining)) →
    ∃ done rest rounds, batch = done ++ rest ∧ (∀ asked ∈ rest.head?, asked.isFlush = true) ∧
      Took done outcome.log ∧ StopsAt ((now.takeIn done).andThen (drain rounds)) outcome remaining
  /-- A call fails in no other way than this and by refusing a command. Then no round has run since the
  last flush, after which the buffer was empty, and the commands taken in since wait in order. -/
  refuses : ∀ failure, outcome.failure = some failure →
    (∀ remaining, failure ≠ .error (.noProgress remaining)) →
    ∃ early recent command rest error, batch = early ++ recent ++ command :: rest ∧
      Buffered.classify command = .error error ∧ failure = .error error ∧
      (early = [] ∨ (∃ before flush, early = before ++ [flush] ∧ flush.isFlush = true) ∧
        (now.takeIn early).mapper.buffer = []) ∧
      Waits (now.takeIn early) outcome recent

end Mapper

/-- No command is lost, duplicated or reordered in the buffer, whatever calls came before and whatever
this one returns. -/
theorem receive_accounted {mapper : Mapper} (fresh : mapper.Fresh) (calls : List Call) {now : Mapper}
    (reached : now = (mapper.session calls).mapper) (batch : List Command) :
    now.Accounted batch (now.receive batch) := by
  have sound : now.Sound := by
    rw [reached]
    exact (Mapper.session_keeps (fun _ _ => True) (fun _ _ _ => trivial) (fun _ => trivial) fresh.sound
      trivial calls).1
  have follows := Mapper.follows_receive sound batch
  have midway (commands : List Command) (rounds : Nat) :
      ((now.takeIn commands).andThen (Mapper.drain rounds)).mapper.Sound := by
    have taken := Mapper.follows_takeIn sound commands
    exact (taken.andThen fun _ => Mapper.follows_drain (taken.sound sound) rounds).sound sound
  constructor
  case took => exact Mapper.took_receive sound batch
  case accounts => exact follows.accounts
  case shrinks =>
    rintro commands rounds _ rfl nonempty ok
    exact Mapper.round_shrinks (midway commands rounds) nonempty ok
  case loops =>
    rintro commands rounds _ rfl
    exact Mapper.loop_drain (midway commands rounds) (Nat.le_refl _)
  case flushes => exact fun past flush rest whole => Mapper.forwarded_of_flushed follows whole
  case empties => exact fun commands flush rest _ isFlush ok => Mapper.buffer_takeIn_flush sound isFlush ok
  case stops =>
    intro remaining failed
    rcases Mapper.receive_failed sound failed with ⟨done, rest, rounds, left, split, same, asked, took, stops⟩ |
      ⟨_, _, command, _, error, _, classified, same, _⟩
    · cases same
      exact ⟨done, rest, rounds, split, asked, took, stops⟩
    · cases same
      exact absurd classified (Mapper.classify_ne_noProgress command remaining)
  case refuses =>
    intro failure failed other
    rcases Mapper.receive_failed sound failed with ⟨_, _, _, left, _, same, _⟩ | refused
    · exact absurd same (other left)
    · exact refused

/-- A command on qubits that were never allocated waits for ever: the flush behind it is not passed on,
and the next call is refused its second command. -/
theorem receive_accounted_stuck :
    ∃ now : Mapper,
      now = (Mapper.session { router := .chain ⟨2, false⟩, storage := 4 }
        [.receive [.allocate ⟨5⟩, .gate .cx [⟨5⟩, ⟨6⟩], .flush]]).mapper ∧
      now.buffer.length = 1 ∧
      (now.receive [.measure ⟨5⟩, .gate .x []]).mapper.buffer.length = 2 ∧
      (now.receive [.measure ⟨5⟩, .gate .x []]).failure.isSome = true ∧
      now.Accounted [.measure ⟨5⟩, .gate .x []] (now.receive [.measure ⟨5⟩, .gate .x []]) := by
  have built : (Config.linear { numQubits := 2, cyclic := false, storage := 4 }).mapper
      = .ok { router := .chain ⟨2, false⟩, storage := 4 } := rfl
  refine ⟨_, rfl, by decide, by decide, by decide, ?_⟩
  exact receive_accounted (Config.fresh_mapper built) _ rfl _

end QubitRouting
