import QubitRouting.Proofs.Overtaking

/-!
# What is forwarded for a command

A gate or a measurement is forwarded with everything it has: only its qubits are replaced by hardware
qubits, and a measurement names its logical qubit if no tag did. An allocation or a release is made anew.
It acts on the right hardware qubit and names the logical one, but other tags and empty registers are lost.
-/

namespace QubitRouting

/-- A command in one register, without a tag or with one that names its qubit. -/
def Command.Bare (command : Command) : Prop :=
  command.registers = [command.qubits] ∧
    (command.tags = [] ∨ command.tags = command.qubits.map .logicalQubit)

instance (command : Command) : Decidable command.Bare :=
  inferInstanceAs (Decidable (_ ∧ _))

namespace Dispatch

variable {router : Router} {layout : Layout Nat} {state next : State} {b : Buffered} {command sent : Command}
  {q : QubitId} {p : Nat}

/-- A command goes out with everything it has, on the hardware qubits at the positions of its qubits. At
most one tag is added behind the others, to name the qubit of a command that is no gate. -/
structure Relayed (router : Router) (layout : Layout Nat) (command sent : Command) : Prop where
  placed : ∀ q ∈ command.qubits, ∃ p, layout.position? q = some p
  kind_eq : sent.kind = command.kind
  registers_eq : sent.registers = command.registers.map fun register => register.map (rename router layout)
  controls_eq : sent.controls = command.controls.map (rename router layout)
  tags_eq : sent.tags = command.tags ∨ ∃ q, sent.tags = command.tags ++ [.logicalQubit q]
  names_allocated : command.kind = .allocate ∨ command.kind = .deallocate →
    ∀ q ∈ command.qubits, .logicalQubit q ∈ sent.tags
  names_measured : command.kind = .measure → command.logicalTag? = none →
    ∀ q ∈ command.qubits, .logicalQubit q ∈ sent.tags
  adds_none : (∃ g, command.kind = .gate g) ∨ command.kind = .measure ∧ command.logicalTag? ≠ none →
    sent.tags = command.tags

/-! ### Gates and measurements -/

/-- A measurement that names no logical qubit goes out with a tag that names its own. -/
lemma onHardware_of_unnamed (measure : command.kind = .measure) (unnamed : command.logicalTag? = none)
    (first : command.firstTarget? = some q) :
    onHardware router layout command
      = (command.mapQubits (rename router layout)).withTag (.logicalQubit q) := by
  have renamed (f : QubitId → QubitId) : (command.mapQubits f).logicalTag? = none := unnamed
  rw [onHardware, Command.isMeasure, measure, first, renamed]
  rfl

/-- Any other command goes out with just its qubits renamed. -/
lemma onHardware_of_named (named : command.kind = .measure → command.logicalTag? ≠ none) :
    onHardware router layout command = command.mapQubits (rename router layout) := by
  rw [onHardware]
  split
  case h_1 measure _ unnamed => exact absurd unnamed (named (by simpa [Command.isMeasure] using measure))
  case h_2 => rfl

/-- A gate or a measurement goes out with everything it has. -/
lemma relayed_onHardware (fit : command.OperandsFit) (notAllocate : command.kind ≠ .allocate)
    (notDeallocate : command.kind ≠ .deallocate)
    (placed : ∀ q ∈ command.qubits, ∃ p, layout.position? q = some p) :
    Relayed router layout command (onHardware router layout command) := by
  have remains : ¬(command.kind = .allocate ∨ command.kind = .deallocate) :=
    not_or.mpr ⟨notAllocate, notDeallocate⟩
  -- only a measurement whose qubit no tag names is given one
  by_cases gains : command.kind = .measure ∧ command.logicalTag? = none
  · obtain ⟨measure, unnamed⟩ := gains
    have notGate (g : Gate) : command.kind ≠ .gate g := by simp [measure]
    obtain ⟨q, uncontrolled, target⟩ := fit.exists_targets_eq notGate
    have first : command.firstTarget? = some q := by rw [Command.firstTarget?, target, List.head?_cons]
    rw [onHardware_of_unnamed measure unnamed first]
    refine ⟨placed, rfl, rfl, rfl, .inr ⟨q, rfl⟩, fun anew => absurd anew remains, ?_, ?_⟩
    · intro _ _ r mem
      rw [Command.qubits, uncontrolled, target, List.nil_append, List.mem_singleton] at mem
      rw [mem]
      exact List.mem_append_right _ (List.mem_singleton_self _)
    · rintro (⟨g, gate⟩ | ⟨_, named⟩)
      · exact absurd gate (notGate g)
      · exact absurd unnamed named
  · rw [not_and] at gains
    rw [onHardware_of_named gains]
    exact ⟨placed, rfl, rfl, rfl, .inl rfl, fun anew => absurd anew remains,
      fun measure unnamed => absurd unnamed (gains measure), fun _ => rfl⟩

/-! ### Allocations and releases -/

/-- An allocation or a release made anew has everything of the old one exactly if that one was bare. -/
lemma relayed_anew_iff (fit : command.OperandsFit)
    (anew : command.kind = .allocate ∨ command.kind = .deallocate) (operands : command.qubits = [q])
    (placed : layout.position? q = some p) :
    Relayed router layout command
        { kind := command.kind, registers := [[router.hardwareQubit p]], tags := [.logicalQubit q] } ↔
      command.Bare := by
  have notGate (g : Gate) : command.kind ≠ .gate g := by
    intro gate
    simp [gate] at anew
  have notMeasure : command.kind ≠ .measure := by
    intro measure
    simp [measure] at anew
  obtain ⟨r, uncontrolled, target⟩ := fit.exists_targets_eq notGate
  obtain rfl : r = q := by simpa [Command.qubits, uncontrolled, target] using operands
  rw [Command.Bare, operands, List.map_singleton]
  constructor
  · intro relayed
    constructor
    · obtain ⟨register, single, _⟩ := List.map_eq_singleton_iff.mp relayed.registers_eq.symm
      rw [Command.targets, single, List.flatten_singleton] at target
      rw [single, target]
    · rcases relayed.tags_eq with same | ⟨named, more⟩
      · exact .inr same.symm
      · left
        -- the new command has one tag, so nothing stands before the one that was added
        have length := congrArg List.length more
        simpa using length
  · rintro ⟨single, tags⟩
    refine ⟨?_, rfl, ?_, ?_, ?_, ?_, fun measure => absurd measure notMeasure, ?_⟩
    · intro s mem
      rw [operands, List.mem_singleton] at mem
      rw [mem]
      exact ⟨p, placed⟩
    · rw [single, List.map_singleton, List.map_singleton, rename_eq placed]
    · rw [uncontrolled]
      rfl
    · rcases tags with none | same
      · exact .inr ⟨r, by rw [none, List.nil_append]⟩
      · exact .inl same.symm
    · intro _ s mem
      rw [operands] at mem
      rw [List.mem_singleton.mp mem]
      exact List.mem_singleton_self _
    · rintro (⟨g, gate⟩ | ⟨measure, _⟩)
      · exact absurd gate (notGate g)
      · exact absurd measure notMeasure

/-- An allocation or a release is made anew on the hardware qubit at its position. -/
lemma Step.made_anew (step : Step router state b (some sent) next) (classified : b.Classified)
    (anew : b.command.kind = .allocate ∨ b.command.kind = .deallocate) :
    ∃ q p, b.command.qubits = [q] ∧ state.layout.position? q = some p ∧
      sent = { kind := b.command.kind, registers := [[router.hardwareQubit p]], tags := [.logicalQubit q] } := by
  obtain ⟨operands, kind⟩ := classified.describes
  cases step with
  | @allocate q p shape placed =>
    rw [shape] at operands kind
    refine ⟨q, p, operands, placed, ?_⟩
    rw [kind]
    rfl
  | @deallocate q p shape _ placed =>
    rw [shape] at operands kind
    refine ⟨q, p, operands, placed, ?_⟩
    rw [kind]
    rfl
  | single shape =>
    rw [shape] at kind
    exact (anew.elim kind.1 kind.2).elim
  | pair shape =>
    rw [shape] at kind
    exact (anew.elim kind.1 kind.2).elim

/-! ### A whole pass -/

/-- A command that leaves the buffer keeps everything it has, unless it is an allocation or a release that is
not bare. -/
lemma Step.relayed_iff (step : Step router state b (some sent) next) (classified : b.Classified) :
    Relayed router state.layout b.command sent ↔
      (b.command.kind = .allocate ∨ b.command.kind = .deallocate → b.command.Bare) := by
  by_cases anew : b.command.kind = .allocate ∨ b.command.kind = .deallocate
  · obtain ⟨q, p, operands, placed, rfl⟩ := step.made_anew classified anew
    rw [relayed_anew_iff classified.operandsFit anew operands placed]
    exact (imp_iff_right anew).symm
  · refine iff_of_true ?_ fun shuffles => absurd shuffles anew
    obtain ⟨notAllocate, notDeallocate⟩ := not_or.mp anew
    obtain ⟨operands, kind⟩ := classified.describes
    have relayed : Relayed router state.layout b.command (onHardware router state.layout b.command) := by
      apply relayed_onHardware classified.operandsFit notAllocate notDeallocate
      rw [operands]
      exact fun r mem => step.placed mem
    cases step with
    | allocate shape =>
      rw [shape] at kind
      exact absurd kind notAllocate
    | deallocate shape =>
      rw [shape] at kind
      exact absurd kind notDeallocate
    | single => exact relayed
    | pair => exact relayed

/-- Dispatch forwards every gate and every measurement with all it has, on the hardware qubits where its
qubits sit at that moment. An allocation or a release is made anew on the right hardware qubit and names the
logical one. So a forwarded command has everything of the buffered one exactly if it is no allocation or
release, or was in one register and without any other tag. -/
theorem handle_relayed_iff (router : Router) (layout : Layout Nat) (allocated : OrderedSet QubitId)
    (buffer : List Buffered) (classified : ∀ b ∈ buffer, b.Classified) :
    (router.Valid → ∃ final handled, handle router (start layout allocated) buffer = .ok (final, handled)) ∧
    ∀ final done b sent rest,
      handle router (start layout allocated) buffer = .ok (final, done ++ ⟨b, some sent⟩ :: rest) →
      ∃ mid, handle router (start layout allocated) (done.map Handled.buffered) = .ok (mid, done) ∧
        (Relayed router mid.layout b.command sent ↔
          (b.command.kind = .allocate ∨ b.command.kind = .deallocate → b.command.Bare)) ∧
        (b.command.kind = .allocate ∨ b.command.kind = .deallocate →
          ∃ q p, b.command.qubits = [q] ∧ mid.layout.position? q = some p ∧
            sent = { kind := b.command.kind, registers := [[router.hardwareQubit p]],
                     tags := [.logicalQubit q] }) := by
  refine ⟨?_, ?_⟩
  · intro valid
    obtain ⟨final, handled, run, _⟩ := handle_eq valid (start layout allocated) buffer
    exact ⟨final, handled, run⟩
  · intro final done b sent rest run
    have known : b.Classified := by
      apply classified
      rw [← (Pass.of_run run).map_buffered, List.map_append]
      exact List.mem_append_right _ List.mem_cons_self
    obtain ⟨mid, first, ⟨_, stays⟩ | ⟨_, next, step⟩⟩ := reached run
    · cases stays
    · exact ⟨mid, first, step.relayed_iff known, step.made_anew known⟩

/-- A gate under a control and a measurement keep their labels, and a bare allocation loses nothing. -/
theorem handle_relayed_iff_labelled :
    let layout : Layout Nat := .ofPairs [(⟨0⟩, 2), (⟨1⟩, 1)]
    let flip : Command := (Command.controlled .x [⟨0⟩] [⟨1⟩]).withTag (.label "flip")
    let readout : Command := (Command.measure ⟨0⟩).withTag (.label "readout")
    ∃ buffer final handled, [.allocate ⟨0⟩, flip, readout].mapM Buffered.classify = .ok buffer ∧
      (∀ b ∈ buffer, b.Classified) ∧
      handle (.chain ⟨3, false⟩) (start layout ∅) buffer = .ok (final, handled) ∧
      handled.map Handled.forwarded =
        [some ((Command.allocate ⟨2⟩).withTag (.logicalQubit ⟨0⟩)),
          some ((Command.controlled .x [⟨2⟩] [⟨1⟩]).withTag (.label "flip")),
          some (((Command.measure ⟨2⟩).withTag (.label "readout")).withTag (.logicalQubit ⟨0⟩))] ∧
      Relayed (.chain ⟨3, false⟩) layout (.allocate ⟨0⟩)
        ((Command.allocate ⟨2⟩).withTag (.logicalQubit ⟨0⟩)) ∧
      Relayed (.chain ⟨3, false⟩) layout readout
        (((Command.measure ⟨2⟩).withTag (.label "readout")).withTag (.logicalQubit ⟨0⟩)) := by
  intro layout flip readout
  have classified : ∀ b ∈ [(⟨.allocate ⟨0⟩, .allocate ⟨0⟩⟩ : Buffered), ⟨flip, .pair ⟨0⟩ ⟨1⟩⟩,
      ⟨readout, .single ⟨0⟩⟩], b.Classified := by
    simp only [List.mem_cons, List.not_mem_nil, or_false]
    rintro b (rfl | rfl | rfl) <;> rfl
  obtain ⟨_, relayed⟩ := handle_relayed_iff (.chain ⟨3, false⟩) layout ∅ _ classified
  refine ⟨_, _, _, rfl, classified, rfl, by decide, ?_, ?_⟩
  · obtain ⟨mid, first, same, _⟩ := relayed _ [] ⟨.allocate ⟨0⟩, .allocate ⟨0⟩⟩ _ _ rfl
    cases first
    exact same.mpr (by decide)
  · obtain ⟨mid, first, same, _⟩ := relayed _ [_, _] ⟨readout, .single ⟨0⟩⟩ _ [] rfl
    cases first
    exact same.mpr (by decide)

/-- An allocation is forwarded without its label, and a release without its empty register. -/
theorem handle_not_relayed :
    let layout : Layout Nat := .ofPairs [(⟨0⟩, 0)]
    let ancilla : Command := (Command.allocate ⟨0⟩).withTag (.label "ancilla")
    let release : Command := { Command.deallocate ⟨0⟩ with registers := [[], [⟨0⟩]] }
    ∃ first second final sent freed, Buffered.classify ancilla = .ok first ∧
      Buffered.classify release = .ok second ∧
      handle (.chain ⟨1, false⟩) (start layout ∅) [first, second]
        = .ok (final, [⟨first, some sent⟩, ⟨second, some freed⟩]) ∧
      ¬Relayed (.chain ⟨1, false⟩) layout ancilla sent ∧
      ¬Relayed (.chain ⟨1, false⟩) layout release freed := by
  intro layout ancilla release
  refine ⟨_, _, _, _, _, rfl, rfl, rfl, ?_, ?_⟩
  · intro relayed
    rcases relayed.tags_eq with same | ⟨q, more⟩
    · simp [ancilla, Command.withTag, Command.allocate] at same
    · simp [ancilla, Command.withTag, Command.allocate] at more
  · intro relayed
    have length := congrArg List.length relayed.registers_eq
    simp [release, Command.withTag, Command.deallocate] at length

end Dispatch

end QubitRouting
