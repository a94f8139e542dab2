import QubitRouting.Dispatch
import QubitRouting.Proofs.Command
import QubitRouting.Proofs.Router
import QubitRouting.Proofs.Stream

/-!
# Dispatch keeps the order of every qubit

What dispatch can do with a command is said once, by the relation `Step`, and a whole pass over the
buffer is a `Pass` of steps. A qubit whose command had to stay is stuck: none of its later commands is
forwarded, unless one of them allocated it.
-/

namespace QubitRouting.Dispatch

open scoped List

variable {router : Router} {state state' : State} {b : Buffered} {q : QubitId}
  {forwarded : Option Command} {buffer : List Buffered} {handled : List Handled}

/-! ### One command -/

/-- Whether a command can run. -/
def Runnable (router : Router) (state : State) : Shape → Prop
  | .allocate q => ∃ p, state.layout.position? q = some p
  | .deallocate q | .single q => q ∈ state.active ∧ ∃ p, state.layout.position? q = some p
  | .pair a b => (a ∈ state.active ∧ b ∈ state.active) ∧ ∃ pa pb, state.layout.position? a = some pa ∧
      state.layout.position? b = some pb ∧ router.adjacent pa pb = .ok true

/-- A qubit whose commands cannot run, but for one that allocates it. -/
def Stuck (state : State) (q : QubitId) : Prop :=
  state.layout.position? q = none ∨ q ∉ state.active

/-- What dispatch does with a command: it forwards the command if it can run, and keeps it if not. -/
inductive Step (router : Router) (state : State) (b : Buffered) : Option Command → State → Prop
  | allocate {q : QubitId} {p : Nat} : b.shape = .allocate q → state.layout.position? q = some p →
      Step router state b
        (some ((Command.allocate (router.hardwareQubit p)).withTag (.logicalQubit q)))
        { state with allocated := state.allocated.insert q }
  | deallocate {q : QubitId} {p : Nat} : b.shape = .deallocate q → q ∈ state.active →
      state.layout.position? q = some p →
      Step router state b
        (some ((Command.deallocate (router.hardwareQubit p)).withTag (.logicalQubit q)))
        ⟨state.layout.erase q, state.allocated.erase q, state.active.erase q⟩
  | single {q : QubitId} {p : Nat} : b.shape = .single q → q ∈ state.active →
      state.layout.position? q = some p →
      Step router state b (some (onHardware router state.layout b.command)) state
  | pair {x y : QubitId} {px py : Nat} : b.shape = .pair x y → x ∈ state.active → y ∈ state.active →
      state.layout.position? x = some px → state.layout.position? y = some py →
      router.adjacent px py = .ok true →
      Step router state b (some (onHardware router state.layout b.command)) state
  | stays {active : OrderedSet QubitId} : ¬ Runnable router state b.shape →
      (∀ q ∈ b.shape.qubits, Stuck { state with active } q) → (∀ q ∈ active, q ∈ state.active) →
      (∀ q ∈ state.active, q ∉ b.shape.qubits → q ∈ active) →
      Step router state b none { state with active }

/-- The test of a list of qubits passes exactly if all of them are active and have positions. -/
lemma all_ready_iff {qubits : List QubitId} :
    (qubits.all fun q => state.active.contains q && state.layout.contains q) = true ↔
      ∀ q ∈ qubits, q ∈ state.active ∧ ∃ p, state.layout.position? q = some p := by
  simp only [List.all_eq_true, Bool.and_eq_true, OrderedSet.contains_iff, Layout.contains_iff]

/-- The test of a command on one qubit says whether the command can run. -/
lemma executable_single (router : Router) (state : State) (q : QubitId) :
    ∃ answer, executable router state (.single q) = .ok answer ∧
      (answer = true ↔ Runnable router state (.single q)) := by
  have ready : (∀ r ∈ (Shape.single q).qubits, r ∈ state.active ∧
      ∃ p, state.layout.position? r = some p) ↔ Runnable router state (.single q) := by
    simp [Shape.qubits, Runnable]
  unfold executable
  split
  case isTrue all => exact ⟨true, rfl, iff_of_true rfl (ready.mp (all_ready_iff.mp all))⟩
  case isFalse none =>
    refine ⟨false, rfl, iff_of_false Bool.false_ne_true ?_⟩
    exact fun runs => none (all_ready_iff.mpr (ready.mpr runs))

/-- If it comes out whether a command on two qubits can run, the answer is right. -/
lemma executable_pair_iff {x y : QubitId} {answer : Bool}
    (known : executable router state (.pair x y) = .ok answer) :
    answer = true ↔ Runnable router state (.pair x y) := by
  rw [executable] at known
  split at known
  case isTrue all =>
    have ready := all_ready_iff.mp all
    obtain ⟨activeX, px, placedX⟩ := ready x List.mem_cons_self
    obtain ⟨activeY, py, placedY⟩ := ready y (List.mem_cons_of_mem x List.mem_cons_self)
    simp only [placedX, placedY] at known
    simp [Runnable, activeX, activeY, placedX, placedY, known]
  case isFalse none =>
    cases known
    refine iff_of_false Bool.false_ne_true ?_
    rintro ⟨⟨activeX, activeY⟩, px, py, placedX, placedY, _⟩
    refine none (all_ready_iff.mpr ?_)
    intro q mem
    rcases List.mem_cons.mp mem with rfl | mem
    · exact ⟨activeX, px, placedX⟩
    · obtain rfl := List.mem_singleton.mp mem
      exact ⟨activeY, py, placedY⟩

/-- On a valid device the test of a command gives an answer. -/
lemma exists_executable (valid : router.Valid) (state : State) (shape : Shape) :
    ∃ answer, executable router state shape = .ok answer := by
  unfold executable
  split
  · split
    · split
      · exact valid.exists_adjacent _ _
      · exact ⟨false, rfl⟩
    · exact ⟨true, rfl⟩
  · exact ⟨false, rfl⟩

/-- A gate that cannot run makes its qubits inactive. -/
lemma Step.erases (notRunnable : ¬ Runnable router state b.shape) :
    Step router state b none
      { state with active := b.shape.qubits.foldl OrderedSet.erase state.active } := by
  refine .stays notRunnable ?_ ?_ ?_
  · intro q mem
    right
    exact fun active => (OrderedSet.mem_foldl_erase.mp active).2 mem
  · intro q active
    exact (OrderedSet.mem_foldl_erase.mp active).1
  · intro q active absent
    exact OrderedSet.mem_foldl_erase.mpr ⟨active, absent⟩

/-- Every command that is handled at all is handled in one of these ways. -/
lemma Step.of_run (run : step router state b = .ok (state', forwarded)) :
    Step router state b forwarded state' := by
  obtain ⟨command, shape⟩ := b
  cases shape with
  | allocate q =>
    rw [step] at run
    dsimp only at run
    cases placed : state.layout.position? q with
    | some p =>
      rw [placed] at run
      cases run
      exact .allocate rfl placed
    | none =>
      rw [placed] at run
      cases run
      -- the qubit is stuck for want of a position, and the active qubits stay as they are
      refine .stays ?_ ?_ (fun _ mem => mem) fun _ mem _ => mem
      · rintro ⟨p, here⟩
        rw [placed] at here
        cases here
      · intro r mem
        obtain rfl := List.mem_singleton.mp mem
        exact .inl placed
  | deallocate q =>
    rw [step] at run
    simp only at run
    split at run
    case h_1 p placed active =>
      cases run
      exact .deallocate rfl (OrderedSet.contains_iff.mp active) placed
    case h_2 missing =>
      cases run
      refine .stays ?_ ?_ (fun _ mem => mem) fun _ mem _ => mem
      · rintro ⟨active, p, placed⟩
        exact missing p placed (OrderedSet.contains_iff.mpr active)
      · intro r mem
        obtain rfl := List.mem_singleton.mp mem
        cases placed : state.layout.position? r with
        | none => exact .inl placed
        | some p => exact .inr fun active => missing p placed (OrderedSet.contains_iff.mpr active)
  | single q =>
    obtain ⟨answer, executes, runnable⟩ := executable_single router state q
    rw [step] at run
    simp only [executes] at run
    cases answer with
    | true =>
      cases run
      obtain ⟨active, p, placed⟩ := runnable.mp rfl
      exact .single rfl active placed
    | false =>
      cases run
      exact .erases fun runs => Bool.false_ne_true (runnable.mpr runs)
  | pair x y =>
    rw [step] at run
    cases executes : executable router state (.pair x y) with
    | error fault =>
      simp only [executes] at run
      cases run
    | ok answer =>
      have runnable := executable_pair_iff executes
      simp only [executes] at run
      cases answer with
      | true =>
        cases run
        obtain ⟨⟨activeX, activeY⟩, px, py, placedX, placedY, adjacent⟩ := runnable.mp rfl
        exact .pair rfl activeX activeY placedX placedY adjacent
      | false =>
        cases run
        exact .erases fun runs => Bool.false_ne_true (runnable.mpr runs)

/-- On a valid device dispatch does with a command what a step says. -/
lemma step_eq (valid : router.Valid) (state : State) (b : Buffered) :
    ∃ state' forwarded, step router state b = .ok (state', forwarded) ∧
      Step router state b forwarded state' := by
  suffices ∃ state' forwarded, step router state b = .ok (state', forwarded) by
    obtain ⟨state', forwarded, run⟩ := this
    exact ⟨state', forwarded, run, .of_run run⟩
  obtain ⟨answer, executes⟩ := exists_executable valid state b.shape
  rw [step]
  split
  · split
    · exact ⟨_, _, rfl⟩
    · exact ⟨_, _, rfl⟩
  · split
    · exact ⟨_, _, rfl⟩
    · exact ⟨_, _, rfl⟩
  · rw [executes]
    cases answer with
    | true => exact ⟨_, _, rfl⟩
    | false => exact ⟨_, _, rfl⟩

/-- What is forwarded acts on qubits that have positions. -/
lemma Step.placed {command : Command} (step : Step router state b (some command) state')
    (mem : q ∈ b.shape.qubits) : ∃ p, state.layout.position? q = some p := by
  cases step with
  | allocate shape placed =>
    rw [shape] at mem
    obtain rfl := List.mem_singleton.mp mem
    exact ⟨_, placed⟩
  | deallocate shape _ placed =>
    rw [shape] at mem
    obtain rfl := List.mem_singleton.mp mem
    exact ⟨_, placed⟩
  | single shape _ placed =>
    rw [shape] at mem
    obtain rfl := List.mem_singleton.mp mem
    exact ⟨_, placed⟩
  | pair shape _ _ placedX placedY =>
    rw [shape] at mem
    rcases List.mem_cons.mp mem with rfl | mem
    · exact ⟨_, placedX⟩
    · obtain rfl := List.mem_singleton.mp mem
      exact ⟨_, placedY⟩

/-- Only an allocation is forwarded for a stuck qubit. -/
lemma Step.not_stuck {command : Command} (step : Step router state b (some command) state')
    (mem : q ∈ b.shape.qubits) (other : b.shape ≠ .allocate q) : ¬ Stuck state q := by
  cases step with
  | allocate shape =>
    rw [shape] at mem other
    exact absurd (congrArg Shape.allocate (List.mem_singleton.mp mem).symm) other
  | deallocate shape active placed =>
    rw [shape] at mem
    obtain rfl := List.mem_singleton.mp mem
    rw [Stuck, placed]
    exact not_or.mpr ⟨nofun, not_not.mpr active⟩
  | single shape active placed =>
    rw [shape] at mem
    obtain rfl := List.mem_singleton.mp mem
    rw [Stuck, placed]
    exact not_or.mpr ⟨nofun, not_not.mpr active⟩
  | pair shape activeX activeY placedX placedY =>
    rw [shape] at mem
    rcases List.mem_cons.mp mem with rfl | mem
    · rw [Stuck, placedX]
      exact not_or.mpr ⟨nofun, not_not.mpr activeX⟩
    · obtain rfl := List.mem_singleton.mp mem
      rw [Stuck, placedY]
      exact not_or.mpr ⟨nofun, not_not.mpr activeY⟩

/-- A qubit whose commands cannot run is so after a step. -/
lemma Step.stuck (step : Step router state b forwarded state') (stuck : Stuck state q) :
    Stuck state' q := by
  cases step with
  | allocate => exact stuck
  | @deallocate r =>
    rcases stuck with free | inactive
    · left
      by_cases same : r = q
      · subst same
        exact Layout.position?_erase_self _ _
      · exact (Layout.position?_erase_of_ne same).trans free
    · exact .inr fun active => inactive (OrderedSet.mem_erase.mp active).1
  | single => exact stuck
  | pair => exact stuck
  | stays _ _ fewer => exact stuck.imp_right fun inactive active => inactive (fewer q active)

/-- A step changes the allocated qubits like the command that it forwards. -/
lemma Step.allocated_eq (step : Step router state b forwarded state') :
    state'.allocated = if forwarded.isSome then Stream.use state.allocated b else state.allocated := by
  cases step with
  | allocate shape => simp [Stream.use, shape]
  | deallocate shape => simp [Stream.use, shape]
  | single shape => simp [Stream.use, shape]
  | pair shape => simp [Stream.use, shape]
  | stays => rfl

/-- A step takes a qubit out of the layout if it releases it, and changes nothing else there. -/
lemma Step.layout_eq (step : Step router state b forwarded state') :
    state'.layout = state.layout ∨
      ∃ r, b.shape = .deallocate r ∧ forwarded.isSome ∧ state'.layout = state.layout.erase r := by
  cases step with
  | allocate => exact .inl rfl
  | deallocate shape => exact .inr ⟨_, shape, rfl, rfl⟩
  | single => exact .inl rfl
  | pair => exact .inl rfl
  | stays => exact .inl rfl

/-- A step keeps the layout on the device. -/
lemma Step.fits {n : Nat} (step : Step router state b forwarded state')
    (fits : state.layout.Fits n) : state'.layout.Fits n := by
  rcases step.layout_eq with same | ⟨r, _, _, erased⟩
  · rwa [same]
  · rw [erased]
    exact fits.erase r

/-- Allocated qubits have positions. -/
def Housed (layout : Layout Nat) (allocated : OrderedSet QubitId) : Prop :=
  ∀ q ∈ allocated, ∃ p, layout.position? q = some p

/-- After a step all allocated qubits still have positions. -/
lemma Step.housed (step : Step router state b forwarded state')
    (housed : Housed state.layout state.allocated) : Housed state'.layout state'.allocated := by
  cases step with
  | allocate shape placed =>
    intro q mem
    rcases OrderedSet.mem_insert.mp mem with rfl | mem
    · exact ⟨_, placed⟩
    · exact housed q mem
  | @deallocate r =>
    intro q mem
    obtain ⟨mem, ne⟩ := OrderedSet.mem_erase.mp mem
    obtain ⟨p, placed⟩ := housed q mem
    exact ⟨p, (Layout.position?_erase_of_ne (Ne.symm ne)).trans placed⟩
  | single => exact housed
  | pair => exact housed
  | stays => exact housed

/-- A step forwards a command that can run. -/
lemma Step.isSome_of_runnable (step : Step router state b forwarded state')
    (runnable : Runnable router state b.shape) : forwarded.isSome := by
  cases step with
  | allocate => rfl
  | deallocate => rfl
  | single => rfl
  | pair => rfl
  | stays notRunnable => exact absurd runnable notRunnable

/-! ### Commands on hardware qubits -/

/-- The hardware qubit that stands for a qubit of the layout. -/
def rename (router : Router) (layout : Layout Nat) (q : QubitId) : QubitId :=
  match layout.position? q with
  | some p => router.hardwareQubit p
  | none => q

/-- The hardware qubit of a placed qubit is that of its position. -/
lemma rename_eq {layout : Layout Nat} {p : Nat} (placed : layout.position? q = some p) :
    rename router layout q = router.hardwareQubit p := by
  rw [rename, placed]

/-- Only the tags tell a command on hardware qubits from its renaming. -/
lemma onHardware_eq (router : Router) (layout : Layout Nat) (command : Command) :
    ∃ tags, onHardware router layout command
      = { command.mapQubits (rename router layout) with tags } := by
  rw [onHardware]
  dsimp only
  split
  · exact ⟨_, rfl⟩
  · exact ⟨_, rfl⟩

/-- What a command does is the same on hardware. -/
lemma kind_onHardware (router : Router) (layout : Layout Nat) (command : Command) :
    (onHardware router layout command).kind = command.kind := by
  obtain ⟨tags, same⟩ := onHardware_eq router layout command
  rw [same]
  rfl

/-- A command on hardware acts on the hardware qubits of its own, in order. -/
lemma qubits_onHardware (router : Router) (layout : Layout Nat) (command : Command) :
    (onHardware router layout command).qubits = command.qubits.map (rename router layout) := by
  obtain ⟨tags, same⟩ := onHardware_eq router layout command
  rw [same, ← Command.qubits_mapQubits]
  rfl

/-- The operands of a command on hardware fit if all its qubits have positions. -/
lemma operandsFit_onHardware (valid : router.Valid) {layout : Layout Nat}
    (fits : layout.Fits router.numQubits) {command : Command} (fit : command.OperandsFit)
    (placed : ∀ q ∈ command.qubits, ∃ p, layout.position? q = some p) :
    (onHardware router layout command).OperandsFit := by
  obtain ⟨tags, same⟩ := onHardware_eq router layout command
  have renamed : (command.mapQubits (rename router layout)).OperandsFit := by
    apply fit.mapQubits
    intro x memX y memY equal
    obtain ⟨px, placedX⟩ := placed x memX
    obtain ⟨py, placedY⟩ := placed y memY
    rw [rename_eq placedX, rename_eq placedY] at equal
    obtain rfl := valid.hardwareQubit_inj (fits.lt placedX) (fits.lt placedY) equal
    exact fits.consistent.inj placedX placedY
  rw [same]
  exact ⟨renamed.nonempty, renamed.count, renamed.uncontrolled, renamed.nodup⟩

/-! ### A pass over the buffer -/

/-- One command after the other, until no qubit is active any more. -/
inductive Pass (router : Router) : State → List Buffered → List Handled → State → Prop
  | nil {state : State} : Pass router state [] [] state
  | cons {state next final : State} {b : Buffered} {forwarded : Option Command} {rest : List Buffered}
      {handled : List Handled} : Step router state b forwarded next →
      Pass router next rest handled final → Pass router state (b :: rest) (⟨b, forwarded⟩ :: handled) final
  | idle {state : State} {rest : List Buffered} : (∀ q, q ∉ state.active) →
      Pass router state rest (rest.map fun b => ⟨b, none⟩) state

/-- Handling the buffer is a pass over it. -/
lemma Pass.of_run {final : State} (run : handle router state buffer = .ok (final, handled)) :
    Pass router state buffer handled final := by
  induction buffer generalizing state handled with
  | nil =>
    cases run
    exact .nil
  | cons b rest ih =>
    rw [handle] at run
    split at run
    case isTrue idle =>
      cases run
      exact .idle (OrderedSet.isEmpty_iff.mp idle)
    case isFalse =>
      obtain ⟨⟨next, forwarded⟩, one, run⟩ := Checked.bind_eq_ok.mp run
      obtain ⟨⟨final, handled⟩, more, run⟩ := Checked.bind_eq_ok.mp run
      cases run
      exact .cons (.of_run one) (ih more)

/-- A pass never breaks down. -/
lemma handle_eq (valid : router.Valid) (state : State) (buffer : List Buffered) :
    ∃ final handled, handle router state buffer = .ok (final, handled) ∧
      Pass router state buffer handled final := by
  suffices ∃ final handled, handle router state buffer = .ok (final, handled) by
    obtain ⟨final, handled, run⟩ := this
    exact ⟨final, handled, run, .of_run run⟩
  induction buffer generalizing state with
  | nil => exact ⟨state, [], rfl⟩
  | cons b rest ih =>
    rw [handle]
    split
    case isTrue => exact ⟨_, _, rfl⟩
    case isFalse =>
      obtain ⟨next, forwarded, run, _⟩ := step_eq valid state b
      obtain ⟨final, handled, more⟩ := ih next
      refine ⟨final, ⟨b, forwarded⟩ :: handled, ?_⟩
      exact Checked.bind_eq_ok.mpr ⟨_, run, Checked.bind_eq_ok.mpr ⟨_, more, rfl⟩⟩

/-- The commands that were forwarded. -/
def sent (handled : List Handled) : List Buffered :=
  (handled.filter (·.forwarded.isSome)).map Handled.buffered

/-- A forwarded command is the first one sent. -/
@[simp]
lemma sent_cons_some (b : Buffered) (command : Command) (handled : List Handled) :
    sent (⟨b, some command⟩ :: handled) = b :: sent handled := rfl

/-- A command that is kept is not sent. -/
@[simp]
lemma sent_cons_none (b : Buffered) (handled : List Handled) :
    sent (⟨b, none⟩ :: handled) = sent handled := rfl

/-- A forwarded command is not kept. -/
@[simp]
lemma kept_cons_some (b : Buffered) (command : Command) (handled : List Handled) :
    kept (⟨b, some command⟩ :: handled) = kept handled := rfl

/-- A command that is not forwarded is the first one kept. -/
@[simp]
lemma kept_cons_none (b : Buffered) (handled : List Handled) :
    kept (⟨b, none⟩ :: handled) = b :: kept handled := rfl

/-- If nothing is forwarded, nothing is sent. -/
@[simp]
lemma sent_idle (buffer : List Buffered) : sent (buffer.map fun b => ⟨b, none⟩) = [] := by
  induction buffer with
  | nil => rfl
  | cons b rest ih => exact ih

/-- If nothing is forwarded, the buffer is kept. -/
@[simp]
lemma kept_idle (buffer : List Buffered) : kept (buffer.map fun b => ⟨b, none⟩) = buffer := by
  induction buffer with
  | nil => rfl
  | cons b rest ih => rw [List.map_cons, kept_cons_none, ih]

variable {final : State}

/-- Every command of the buffer is forwarded or stays. -/
lemma Pass.perm (pass : Pass router state buffer handled final) :
    sent handled ++ kept handled ~ buffer := by
  induction pass with
  | nil => exact .nil
  | @cons _ _ _ b forwarded rest handled _ _ ih =>
    cases forwarded with
    | some command => exact ih.cons b
    | none => exact List.perm_middle.trans (ih.cons b)
  | idle => rw [sent_idle, kept_idle, List.nil_append]

/-- What a pass keeps is in the order of the buffer. -/
lemma Pass.kept_sublist (pass : Pass router state buffer handled final) : kept handled <+ buffer := by
  induction pass with
  | nil => exact .slnil
  | @cons _ _ _ b forwarded rest handled _ _ ih =>
    cases forwarded with
    | some command => exact ih.cons b
    | none => exact ih.cons_cons b
  | idle => rw [kept_idle]

/-- The qubits in use after a pass are those that the commands sent leave in use. -/
lemma Pass.allocated_eq (pass : Pass router state buffer handled final) :
    final.allocated = (sent handled).foldl Stream.use state.allocated := by
  induction pass with
  | nil => rfl
  | @cons _ _ _ _ forwarded _ _ step _ ih =>
    rw [ih, step.allocated_eq]
    cases forwarded with
    | some command => rfl
    | none => rfl
  | idle => rw [sent_idle, List.foldl_nil]

/-- A pass keeps the layout on the device. -/
lemma Pass.fits {n : Nat} (pass : Pass router state buffer handled final)
    (fits : state.layout.Fits n) : final.layout.Fits n := by
  induction pass with
  | nil => exact fits
  | cons step _ ih => exact ih (step.fits fits)
  | idle => exact fits

/-- After a pass all allocated qubits still have positions. -/
lemma Pass.housed (pass : Pass router state buffer handled final)
    (housed : Housed state.layout state.allocated) : Housed final.layout final.allocated := by
  induction pass with
  | nil => exact housed
  | cons step _ ih => exact ih (step.housed housed)
  | idle => exact housed

/-- The commands of a stuck qubit stay. -/
lemma Pass.stuck (pass : Pass router state buffer handled final) (stuck : Stuck state q)
    (none_allocates : ∀ b ∈ buffer, b.shape ≠ .allocate q) :
    Stream.touching q (sent handled) = [] ∧
      Stream.touching q (kept handled) = Stream.touching q buffer := by
  induction pass with
  | nil => exact ⟨rfl, rfl⟩
  | @cons _ _ _ b forwarded rest handled step _ ih =>
    obtain ⟨none_sent, all_kept⟩ := ih (step.stuck stuck)
      fun c mem => none_allocates c (List.mem_cons_of_mem b mem)
    by_cases mem : q ∈ b.shape.qubits
    · cases forwarded with
      | some command =>
        exact absurd stuck (step.not_stuck mem (none_allocates b List.mem_cons_self))
      | none =>
        refine ⟨none_sent, ?_⟩
        rw [kept_cons_none, Stream.touching_cons_of_mem mem, Stream.touching_cons_of_mem mem, all_kept]
    · rw [Stream.touching_cons_of_not_mem mem]
      cases forwarded with
      | some command =>
        rw [sent_cons_some, Stream.touching_cons_of_not_mem mem]
        exact ⟨none_sent, all_kept⟩
      | none =>
        rw [kept_cons_none, Stream.touching_cons_of_not_mem mem]
        exact ⟨none_sent, all_kept⟩
  | idle => rw [sent_idle, kept_idle]; exact ⟨rfl, rfl⟩

/-- If every qubit is allocated first, a pass forwards the oldest commands of every qubit. -/
lemma Pass.order (pass : Pass router state buffer handled final)
    (first : Stream.AllocatesFirst buffer) (q : QubitId) :
    Stream.touching q (sent handled) ++ Stream.touching q (kept handled) = Stream.touching q buffer := by
  induction pass with
  | nil => rfl
  | @cons _ next _ b forwarded rest handled step pass ih =>
    obtain ⟨before, first⟩ := List.pairwise_cons.mp first
    by_cases mem : q ∈ b.shape.qubits
    · rw [Stream.touching_cons_of_mem mem]
      cases forwarded with
      | some command =>
        rw [sent_cons_some, kept_cons_some, Stream.touching_cons_of_mem mem, List.cons_append, ih first]
      | none =>
        -- the qubit is stuck from here on, and nothing allocates it any more
        have stuck : Stuck next q := by
          cases step with
          | stays _ stuck => exact stuck q mem
        have none_allocates : ∀ c ∈ rest, c.shape ≠ .allocate q := by
          intro c memC shape
          exact before c memC q (Shape.allocates?_eq_some.mpr shape) mem
        obtain ⟨none_sent, all_kept⟩ := pass.stuck stuck none_allocates
        rw [sent_cons_none, kept_cons_none, Stream.touching_cons_of_mem mem, none_sent, all_kept]
        rfl
    · rw [Stream.touching_cons_of_not_mem mem]
      cases forwarded with
      | some command =>
        rw [sent_cons_some, kept_cons_some, Stream.touching_cons_of_not_mem mem, ih first]
      | none =>
        rw [sent_cons_none, kept_cons_none, Stream.touching_cons_of_not_mem mem, ih first]
  | idle => rw [sent_idle, kept_idle]; rfl

end QubitRouting.Dispatch
