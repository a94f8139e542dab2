import QubitRouting.Proofs.Dispatch

/-!
# Which commands overtake others

A command overtakes an earlier one on a common qubit if it is forwarded although the earlier one was kept.
Dispatch keeps a command whose qubits are inactive, but it does not ask so of an allocation: that one is
forwarded whenever its qubit has a position. So allocations are the only commands that overtake others, and
the order of every qubit is kept exactly if none of them is reached too early.
-/

namespace QubitRouting.Dispatch

variable {router : Router} {state final : State} {q : QubitId} {buffer before after : List Buffered}
  {handled done rest : List Handled} {earlier later : Handled}

/-- A command is forwarded although an earlier one on a common qubit was kept. -/
def Handled.Overtakes (later earlier : Handled) : Prop :=
  later.forwarded.isSome ∧ earlier.forwarded.isNone ∧
    ∃ q ∈ earlier.buffered.shape.qubits, q ∈ later.buffered.shape.qubits

instance (later earlier : Handled) : Decidable (later.Overtakes earlier) :=
  inferInstanceAs (Decidable (_ ∧ _ ∧ _))

/-- No command overtakes another. -/
def InOrder (handled : List Handled) : Prop :=
  handled.Pairwise fun earlier later => ¬later.Overtakes earlier

instance (handled : List Handled) : Decidable (InOrder handled) :=
  inferInstanceAs (Decidable (handled.Pairwise _))

/-- A command on the qubit was kept. -/
def Held (handled : List Handled) (q : QubitId) : Prop :=
  ∃ earlier ∈ handled, earlier.forwarded.isNone ∧ q ∈ earlier.buffered.shape.qubits

/-- Whenever an allocation is reached although a command on its qubit was kept, the qubit has no position
any more, or no qubit is active any more. -/
def ReallocatesInTime (router : Router) (state : State) (buffer : List Buffered) : Prop :=
  ∀ before b after q mid done, buffer = before ++ b :: after → b.shape = .allocate q →
    handle router state before = .ok (mid, done) → Held done q →
    mid.layout.position? q = none ∨ mid.active.isEmpty

/-! ### The state in which a command is reached -/

/-- Commands that are all kept are the buffer. -/
lemma map_buffered_idle (buffer : List Buffered) :
    (buffer.map fun b => (⟨b, none⟩ : Handled)).map Handled.buffered = buffer := by
  rw [List.map_map]
  exact List.map_id buffer

/-- The commands are handled in the order of the buffer. -/
lemma Pass.map_buffered (pass : Pass router state buffer handled final) :
    handled.map Handled.buffered = buffer := by
  induction pass with
  | nil => rfl
  | cons _ _ ih => rw [List.map_cons, ih]
  | idle => exact map_buffered_idle _

/-- The first commands of a buffer are handled as if there were no others. -/
lemma handle_append (run : handle router state (before ++ after) = .ok (final, handled)) :
    ∃ mid done rest, handle router state before = .ok (mid, done) ∧
      handle router mid after = .ok (final, rest) ∧ handled = done ++ rest := by
  induction before generalizing state handled with
  | nil => exact ⟨state, [], handled, rfl, run, rfl⟩
  | cons b before ih =>
    rw [List.cons_append, handle] at run
    rw [handle]
    split at run
    case isTrue idle =>
      cases run
      rw [if_pos idle]
      refine ⟨_, _, after.map fun b => ⟨b, none⟩, rfl, ?_, ?_⟩
      · cases after with
        | nil => rfl
        | cons c after => rw [handle, if_pos idle]
      · rw [← List.cons_append, List.map_append]
    case isFalse active =>
      obtain ⟨⟨next, forwarded⟩, one, run⟩ := Checked.bind_eq_ok.mp run
      obtain ⟨⟨last, handled⟩, more, run⟩ := Checked.bind_eq_ok.mp run
      cases run
      obtain ⟨mid, done, rest, first, second, rfl⟩ := ih more
      refine ⟨mid, ⟨b, forwarded⟩ :: done, rest, ?_, second, rfl⟩
      rw [if_neg active]
      exact Checked.bind_eq_ok.mpr ⟨_, one, Checked.bind_eq_ok.mpr ⟨_, first, rfl⟩⟩

/-- A command is reached in the state that the commands before it lead to. It stays if no qubit is active
then. -/
lemma reached (run : handle router state buffer = .ok (final, done ++ later :: rest)) :
    ∃ mid, handle router state (done.map Handled.buffered) = .ok (mid, done) ∧
      (mid.active.isEmpty ∧ later.forwarded = none ∨
        ¬mid.active.isEmpty ∧ ∃ next, Step router mid later.buffered later.forwarded next) := by
  obtain ⟨b, forwarded⟩ := later
  have order := (Pass.of_run run).map_buffered
  rw [List.map_append, List.map_cons] at order
  rw [← order] at run
  obtain ⟨mid, done', rest', first, second, split⟩ := handle_append run
  have length : done.length = done'.length := by
    rw [← List.length_map Handled.buffered, ← (Pass.of_run first).map_buffered, List.length_map]
  obtain ⟨rfl, rfl⟩ := List.append_inj split length
  refine ⟨mid, first, ?_⟩
  rw [handle] at second
  split at second
  case isTrue idle =>
    obtain ⟨_, same⟩ := Prod.mk.inj (Except.ok.inj second)
    obtain ⟨head, _⟩ := List.cons.inj same
    cases head
    exact .inl ⟨idle, rfl⟩
  case isFalse active =>
    obtain ⟨result, one, second⟩ := Checked.bind_eq_ok.mp second
    obtain ⟨_, _, second⟩ := Checked.bind_eq_ok.mp second
    cases second
    exact .inr ⟨active, result.1, .of_run one⟩

/-! ### Qubits with a command that was kept -/

/-- A qubit whose commands cannot run is so after a pass. -/
lemma Pass.keeps_stuck (pass : Pass router state buffer handled final) (stuck : Stuck state q) :
    Stuck final q := by
  induction pass with
  | nil => exact stuck
  | cons step _ ih => exact ih (step.stuck stuck)
  | idle => exact stuck

/-- A qubit with a command that was kept is stuck. -/
lemma Pass.stuck_of_held (pass : Pass router state buffer handled final) (held : Held handled q) :
    Stuck final q := by
  obtain ⟨earlier, mem, stays, touches⟩ := held
  induction pass with
  | nil => cases mem
  | @cons _ _ _ b forwarded _ _ step pass ih =>
    rcases List.mem_cons.mp mem with rfl | mem
    · cases step with
      | stays _ stuck => exact pass.keeps_stuck (stuck q touches)
      | _ => cases stays
    · exact ih mem
  | idle none_active => exact .inr (none_active q)

/-- What is forwarded for a qubit with a command that was kept allocates it. -/
lemma allocates_of_held (run : handle router state buffer = .ok (final, done ++ later :: rest))
    (forwarded : later.forwarded.isSome) (touches : q ∈ later.buffered.shape.qubits)
    (held : Held done q) : later.buffered.shape = .allocate q := by
  obtain ⟨mid, first, ⟨_, stays⟩ | ⟨_, next, step⟩⟩ := reached run
  · rw [stays] at forwarded
    cases forwarded
  · by_contra other
    have stuck : Stuck mid q := (Pass.of_run first).stuck_of_held held
    obtain ⟨command, sent⟩ := Option.isSome_iff_exists.mp forwarded
    rw [sent] at step
    exact step.not_stuck touches other stuck

/-- An allocation that is reached while some qubit is active is forwarded exactly if its qubit has a
position. -/
lemma Step.allocate_iff {mid next : State} {b : Buffered} {forwarded : Option Command}
    (step : Step router mid b forwarded next) (shape : b.shape = .allocate q) :
    forwarded.isSome ↔ mid.layout.position? q ≠ none := by
  have runnable : Runnable router mid b.shape ↔ mid.layout.position? q ≠ none := by
    rw [shape, Runnable, Option.ne_none_iff_exists']
  constructor
  · intro sent
    cases step with
    | allocate here placed =>
      rw [shape] at here
      cases here
      rw [placed]
      exact Option.some_ne_none _
    | deallocate here => cases shape.symm.trans here
    | single here => cases shape.symm.trans here
    | pair here => cases shape.symm.trans here
    | stays => cases sent
  · exact fun placed => step.isSome_of_runnable (runnable.mpr placed)

/-! ### The order of every qubit -/

/-- Only allocations overtake. -/
lemma allocates_of_overtakes (run : handle router state buffer = .ok (final, handled)) :
    handled.Pairwise fun earlier later => later.Overtakes earlier → ∃ q, later.buffered.shape = .allocate q := by
  rw [pairwise_iff_forall_split]
  rintro done later rest rfl earlier mem ⟨forwarded, stays, q, touches, common⟩
  exact ⟨q, allocates_of_held run forwarded common ⟨earlier, mem, stays, touches⟩⟩

/-- No command overtakes another exactly if no allocation is reached too early. -/
lemma inOrder_iff_reallocatesInTime (run : handle router state buffer = .ok (final, handled)) :
    InOrder handled ↔ ReallocatesInTime router state buffer := by
  have order := (Pass.of_run run).map_buffered
  rw [InOrder, pairwise_iff_forall_split]
  constructor
  · intro inOrder before b after q mid done split shape first held
    rw [split, List.map_eq_append_iff] at order
    obtain ⟨done', rest, rfl, rfl, order⟩ := order
    obtain ⟨later, rest, rfl, rfl, rfl⟩ := List.map_eq_cons_iff.mp order
    obtain ⟨mid', first', ⟨idle, _⟩ | ⟨_, next, step⟩⟩ := reached run
    · cases first.symm.trans first'
      exact .inr idle
    · cases first.symm.trans first'
      left
      by_contra placed
      -- the allocation is forwarded, so it overtakes the command that was kept
      have forwarded := (step.allocate_iff shape).mpr placed
      obtain ⟨earlier, mem, stays, touches⟩ := held
      refine inOrder done later rest rfl earlier mem ⟨forwarded, stays, q, touches, ?_⟩
      rw [shape]
      exact List.mem_singleton_self q
  · rintro inTime done later rest rfl earlier mem ⟨forwarded, stays, q, touches, common⟩
    have held : Held done q := ⟨earlier, mem, stays, touches⟩
    have shape := allocates_of_held run forwarded common held
    obtain ⟨mid, first, ⟨_, kept⟩ | ⟨active, next, step⟩⟩ := reached run
    · rw [kept] at forwarded
      cases forwarded
    · rw [List.map_append, List.map_cons] at order
      rcases inTime _ _ _ q mid done order.symm shape first held with free | idle
      · exact (step.allocate_iff shape).mp forwarded free
      · exact active idle

/-- Dispatch handles the commands of a buffer in order, and the only commands that overtake others are
allocations. So the order of every qubit is kept exactly if, whenever an allocation is reached although a
command on its qubit was kept, the qubit has no position any more or no qubit is active any more. That is
so in particular if no qubit is allocated after another command on it. -/
theorem handle_inOrder_iff (router : Router) (layout : Layout Nat) (allocated : OrderedSet QubitId)
    (buffer : List Buffered) :
    (router.Valid → ∃ final handled, handle router (start layout allocated) buffer = .ok (final, handled)) ∧
    ∀ final handled, handle router (start layout allocated) buffer = .ok (final, handled) →
      handled.map Handled.buffered = buffer ∧
      (handled.Pairwise fun earlier later => later.Overtakes earlier →
        ∃ q, later.buffered.shape = .allocate q) ∧
      (InOrder handled ↔ ReallocatesInTime router (start layout allocated) buffer) ∧
      (Stream.AllocatesFirst buffer → InOrder handled) := by
  refine ⟨?_, ?_⟩
  · intro valid
    obtain ⟨final, handled, run, _⟩ := handle_eq valid (start layout allocated) buffer
    exact ⟨final, handled, run⟩
  · intro final handled run
    have order := (Pass.of_run run).map_buffered
    refine ⟨order, allocates_of_overtakes run, inOrder_iff_reallocatesInTime run, ?_⟩
    intro first
    rw [← order, Stream.AllocatesFirst, List.pairwise_map] at first
    refine (first.and (allocates_of_overtakes run)).imp ?_
    rintro earlier later ⟨apart, allocates⟩ overtakes
    obtain ⟨q, shape⟩ := allocates overtakes
    obtain ⟨_, _, r, touches, common⟩ := overtakes
    rw [shape] at common
    obtain rfl := List.mem_singleton.mp common
    exact apart r (Shape.allocates?_eq_some.mpr shape) touches

/-- A qubit that is released and allocated again waits for a position, and overtakes nothing. Nor does
anything else if no qubit is allocated again. -/
theorem handle_inOrder_iff_released :
    let layout : Layout Nat := .ofPairs [(⟨0⟩, 0), (⟨1⟩, 1), (⟨2⟩, 2)]
    let start := start layout (.ofList [⟨0⟩, ⟨1⟩, ⟨2⟩])
    let again : List Buffered := [⟨.gate .cx [⟨0⟩, ⟨1⟩], .pair ⟨0⟩ ⟨1⟩⟩, ⟨.deallocate ⟨0⟩, .deallocate ⟨0⟩⟩,
      ⟨.allocate ⟨0⟩, .allocate ⟨0⟩⟩, ⟨.gate .h [⟨0⟩], .single ⟨0⟩⟩, ⟨.gate .h [⟨1⟩], .single ⟨1⟩⟩]
    let once : List Buffered := [⟨.gate .cx [⟨0⟩, ⟨2⟩], .pair ⟨0⟩ ⟨2⟩⟩, ⟨.deallocate ⟨0⟩, .deallocate ⟨0⟩⟩]
    (∃ final handled, handle (.chain ⟨3, false⟩) start again = .ok (final, handled) ∧
      handled.map (·.forwarded.isSome) = [true, true, false, false, true] ∧
      ReallocatesInTime (.chain ⟨3, false⟩) start again) ∧
    Stream.AllocatesFirst once ∧
    ∃ final handled, handle (.chain ⟨3, false⟩) start once = .ok (final, handled) ∧
      handled.map (·.forwarded.isSome) = [false, false] ∧ InOrder handled := by
  intro layout start again once
  have first : Stream.AllocatesFirst once := by decide
  obtain ⟨_, inOrder⟩ := handle_inOrder_iff (.chain ⟨3, false⟩) layout (.ofList [⟨0⟩, ⟨1⟩, ⟨2⟩]) again
  obtain ⟨exists_once, inOrderOnce⟩ :=
    handle_inOrder_iff (.chain ⟨3, false⟩) layout (.ofList [⟨0⟩, ⟨1⟩, ⟨2⟩]) once
  refine ⟨⟨_, _, rfl, by decide, ?_⟩, first, ?_⟩
  · exact (inOrder _ _ rfl).2.2.1.mp (by decide)
  · obtain ⟨final, handled, run⟩ := exists_once ⟨by decide, by decide⟩
    refine ⟨final, handled, run, ?_, (inOrderOnce final handled run).2.2.2 first⟩
    cases run
    decide

/-- A qubit is released and allocated again behind a command that cannot run: the release is kept, but the
allocation overtakes both. -/
theorem handle_overtaken :
    let layout : Layout Nat := .ofPairs [(⟨0⟩, 0), (⟨1⟩, 1), (⟨2⟩, 2)]
    let commands : List Command := [.allocate ⟨0⟩, .allocate ⟨1⟩, .allocate ⟨2⟩, .gate .cx [⟨0⟩, ⟨1⟩],
      .gate .cx [⟨1⟩, ⟨2⟩], .gate .cx [⟨0⟩, ⟨2⟩], .deallocate ⟨0⟩, .allocate ⟨0⟩]
    ∃ buffer final handled, commands.mapM Buffered.classify = .ok buffer ∧
      handle (.chain ⟨3, false⟩) (start layout ∅) buffer = .ok (final, handled) ∧
      handled.map (·.forwarded.isSome) = [true, true, true, true, true, false, false, true] ∧
      ¬InOrder handled := by
  refine ⟨_, _, _, rfl, rfl, by decide, by decide⟩

end QubitRouting.Dispatch
