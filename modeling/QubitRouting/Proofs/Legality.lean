import QubitRouting.Proofs.Session

/-!
# Whatever a mapper sends is legal

Every command that a mapper sends, but for a flush, passes its check, acts on hardware qubits of the
device, and on two qubits only if they are neighbours. The layout is one to one and stays on the device.
No condition is put on the calls: commands may come in any order, and calls may fail.
-/

namespace QubitRouting

open Dispatch (Pass)

/-- A command that the device can carry out. -/
structure Router.Legal (router : Router) (command : Command) : Prop where
  valid : command.validate = .ok ()
  classified : ∃ b, Buffered.classify command = .ok b
  onDevice : ∀ q ∈ command.qubits, ∃ p < router.numQubits, router.hardwareQubit p = q
  adjacent : ∀ {x y}, command.qubits = [x, y] → ∃ px < router.numQubits, ∃ py < router.numQubits,
    router.hardwareQubit px = x ∧ router.hardwareQubit py = y ∧ router.adjacent px py = .ok true

namespace Router

variable {router other : Router} {command : Command} {p px py : Nat}

/-- What is legal only depends on the device. -/
lemma SameDevice.legal (same : router.SameDevice other) (legal : other.Legal command) :
    router.Legal command := by
  obtain ⟨valid, classified, onDevice, adjacent⟩ := legal
  rw [same.numQubits_eq, same.hardwareQubit_eq] at onDevice
  rw [same.numQubits_eq, same.hardwareQubit_eq, same.adjacent_eq] at adjacent
  exact ⟨valid, classified, onDevice, adjacent⟩

/-- A command on one hardware qubit of the device is legal. -/
lemma legal_single (notFlush : command.isFlush = false) (fit : command.OperandsFit)
    (lt : p < router.numQubits) (operands : command.qubits = [router.hardwareQubit p]) :
    router.Legal command := by
  refine ⟨(Command.validate_eq_ok notFlush).mpr fit, Buffered.exists_classify notFlush fit ?_, ?_, ?_⟩
  · rw [operands]
    exact Nat.le_succ 1
  · intro q mem
    rw [operands] at mem
    exact ⟨p, lt, (List.mem_singleton.mp mem).symm⟩
  · intro x y pair
    rw [operands] at pair
    cases pair

/-- A command on two hardware qubits at neighbouring positions is legal. -/
lemma legal_pair (notFlush : command.isFlush = false) (fit : command.OperandsFit)
    (ltX : px < router.numQubits) (ltY : py < router.numQubits)
    (operands : command.qubits = [router.hardwareQubit px, router.hardwareQubit py])
    (adjacent : router.adjacent px py = .ok true) : router.Legal command := by
  refine ⟨(Command.validate_eq_ok notFlush).mpr fit, Buffered.exists_classify notFlush fit ?_, ?_, ?_⟩
  · rw [operands]
    exact Nat.le_refl 2
  · intro q mem
    rw [operands] at mem
    rcases List.mem_cons.mp mem with rfl | mem
    · exact ⟨px, ltX, rfl⟩
    · exact ⟨py, ltY, (List.mem_singleton.mp mem).symm⟩
  · intro x y pair
    rw [operands] at pair
    cases pair
    exact ⟨px, ltX, py, ltY, rfl, rfl, adjacent⟩

end Router

namespace Dispatch

variable {router : Router} {state final : State} {b : Buffered} {command : Command}
  {buffer : List Buffered} {handled : List Handled}

/-- What dispatch forwards is legal. -/
lemma Step.legal {next : State} (step : Step router state b (some command) next) (valid : router.Valid)
    (fits : state.layout.Fits router.numQubits) (classified : b.Classified) : router.Legal command := by
  obtain ⟨operands, kind⟩ := classified.describes
  have notFlush : (onHardware router state.layout b.command).isFlush = false := by
    rw [Command.isFlush, kind_onHardware]
    exact (Buffered.of_classify classified).2.1
  have fit : (onHardware router state.layout b.command).OperandsFit := by
    apply operandsFit_onHardware valid fits classified.operandsFit
    rw [operands]
    exact fun r mem => step.placed mem
  cases step with
  | @allocate q p shape placed =>
    exact Router.legal_single rfl ((Command.operandsFit_allocate _).withTag _) (fits.lt placed) rfl
  | @deallocate q p shape active placed =>
    exact Router.legal_single rfl ((Command.operandsFit_deallocate _).withTag _) (fits.lt placed) rfl
  | @single q p shape active placed =>
    rw [shape] at operands
    refine Router.legal_single notFlush fit (fits.lt placed) ?_
    rw [qubits_onHardware, operands, ← rename_eq placed]
    rfl
  | @pair x y px py shape activeX activeY placedX placedY adjacent =>
    rw [shape] at operands
    refine Router.legal_pair notFlush fit (fits.lt placedX) (fits.lt placedY) ?_ adjacent
    rw [qubits_onHardware, operands, ← rename_eq placedX, ← rename_eq placedY]
    rfl

/-- What a pass over the buffer forwards is legal. -/
lemma Pass.legal (pass : Pass router state buffer handled final) (valid : router.Valid)
    (fits : state.layout.Fits router.numQubits) (classified : ∀ b ∈ buffer, b.Classified)
    (mem : ⟨b, some command⟩ ∈ handled) : router.Legal command := by
  induction pass with
  | nil => cases mem
  | @cons _ _ _ c forwarded rest handled step _ ih =>
    rcases List.mem_cons.mp mem with same | mem
    · cases same
      exact step.legal valid fits (classified b List.mem_cons_self)
    · exact ih (step.fits fits) (fun c inRest => classified c (List.mem_cons_of_mem _ inRest)) mem
  | idle =>
    obtain ⟨c, _, same⟩ := List.mem_map.mp mem
    cases same

end Dispatch

namespace Mapper

variable {mapper after : Mapper} {log : List Event} {router : Router}

/-- Idle positions are on the device. -/
lemma lt_of_mem_idle {layout : Layout Nat} {p : Nat} (mem : p ∈ mapper.idle layout) :
    p < mapper.router.numQubits :=
  List.mem_range.mp (List.mem_of_mem_filter mem)

/-- The commands that carry out a plan are legal. -/
lemma legal_of_mem_swapCommands (valid : mapper.router.Valid) {swaps : List Swap}
    (neighbouring : mapper.router.Neighbouring swaps) {current next : Layout Nat} {command : Command}
    (mem : command ∈ mapper.swapCommands current ⟨next, swaps⟩) : mapper.router.Legal command := by
  rw [swapCommands, List.mem_append, List.mem_append] at mem
  rcases mem with (mem | mem) | mem
  · obtain ⟨p, idle, rfl⟩ := List.mem_map.mp mem
    exact Router.legal_single rfl (Command.operandsFit_allocate _) (lt_of_mem_idle idle) rfl
  · obtain ⟨swap, inPlan, rfl⟩ := List.mem_map.mp mem
    obtain ⟨adjacent, lt1, lt2⟩ := neighbouring swap inPlan
    refine Router.legal_pair rfl (Command.operandsFit_swap ?_) lt1 lt2 (Command.qubits_swap _ _) adjacent
    exact fun same => valid.ne_of_adjacent adjacent (valid.hardwareQubit_inj lt1 lt2 same)
  · obtain ⟨p, idle, rfl⟩ := List.mem_map.mp mem
    exact Router.legal_single rfl (Command.operandsFit_deallocate _) (lt_of_mem_idle idle) rfl

/-- What a step of a mapper sends is legal, flushes apart. -/
lemma Step.legal (step : mapper.Step log after) (sound : mapper.Sound)
    (classified : ∀ b ∈ mapper.buffer, b.Classified) {event : Event} (mem : event ∈ log)
    {command : Command} (sent : event.sent? = some command) (notFlush : command.isFlush = false) :
    mapper.router.Legal command := by
  -- only a pass and a change of layout send anything but a flush
  cases step with
  | accept =>
    obtain rfl := List.mem_singleton.mp mem
    cases sent
  | flush flush =>
    obtain rfl := List.mem_singleton.mp mem
    cases sent
    rw [flush] at notFlush
    cases notFlush
  | dispatch step =>
    cases step with
    | intro here pass =>
      obtain ⟨⟨b, forwarded⟩, inPass, made⟩ := List.mem_filterMap.mp mem
      obtain ⟨command', rfl, rfl⟩ := Option.map_eq_some_iff.mp made
      cases sent
      exact pass.legal sound.valid (sound.fits here) classified inPass
  | remap step =>
    cases step with
    | intro _ _ neighbouring =>
      rw [swapEvents] at mem
      split at mem
      · cases mem
      · obtain ⟨command', inPlan, rfl⟩ := List.mem_map.mp mem
        cases sent
        exact legal_of_mem_swapCommands sound.valid neighbouring inPlan

/-- All commands sent so far were legal, and those in the buffer were checked. -/
structure Lawful (router : Router) (past : List Event) (mapper : Mapper) : Prop where
  sameDevice : router.SameDevice mapper.router
  classified : ∀ b ∈ mapper.buffer, b.Classified
  legal : ∀ event ∈ past, ∀ command, event.sent? = some command → command.isFlush = false →
    router.Legal command

/-- After one more step all that was sent is still legal. -/
lemma Lawful.step {past : List Event} (sound : mapper.Sound) (lawful : Lawful router past mapper)
    (step : mapper.Step log after) : Lawful router (past ++ log) after := by
  refine ⟨lawful.sameDevice.trans step.sameDevice, step.classified lawful.classified, ?_⟩
  intro event mem command sent notFlush
  rcases List.mem_append.mp mem with old | new
  · exact lawful.legal event old command sent notFlush
  · exact lawful.sameDevice.legal (step.legal sound lawful.classified new sent notFlush)

/-- A fresh mapper has sent nothing that is not legal. -/
lemma Fresh.lawful (fresh : mapper.Fresh) : Lawful mapper.router [] mapper := by
  refine ⟨.refl _, ?_, ?_⟩
  · intro b mem
    rw [fresh.buffer_eq] at mem
    cases mem
  · intro event mem
    cases mem

end Mapper

/-- After any calls the layout is one to one on positions of the device, and all that was sent, but for
flushes, is legal. -/
theorem session_legal {config : Config} {mapper : Mapper} (built : config.mapper = .ok mapper)
    (calls : List Call) :
    (∀ layout, (mapper.session calls).mapper.layout = some layout →
      layout.Consistent ∧ ∀ q p, layout.position? q = some p → p < mapper.router.numQubits) ∧
    ∀ event ∈ (mapper.session calls).log, ∀ command, event.sent? = some command →
      command.isFlush = false → mapper.router.Legal command := by
  have fresh := Config.fresh_mapper built
  obtain ⟨sound, lawful⟩ := Mapper.session_keeps (Mapper.Lawful mapper.router)
    Mapper.Lawful.step (fun inv => ⟨inv.sameDevice, inv.classified, inv.legal⟩) fresh.sound
    fresh.lawful calls
  refine ⟨?_, lawful.legal⟩
  intro layout here
  have fits := sound.fits here
  rw [lawful.sameDevice.numQubits_eq] at fits
  exact ⟨fits.consistent, fun _ _ placed => fits.lt placed⟩

/-- A grid with a table of hardware qubits, and calls that make little sense. -/
theorem session_legal_of_any_calls :
    ∃ mapper, (Config.grid { rows := 2, columns := 2, storage := 1, hardware := some (.ofList
        [(0, ⟨30⟩), (1, ⟨10⟩), (2, ⟨20⟩), (3, ⟨0⟩)]) }).mapper = .ok mapper ∧
      ∀ event ∈ (mapper.session [.receive [.gate .cx [⟨1⟩, ⟨2⟩], .allocate ⟨1⟩, .allocate ⟨1⟩],
          .install (.ofPairs [(⟨5⟩, ⟨30⟩), (⟨6⟩, ⟨0⟩)]), .receive [.gate .cx [⟨5⟩, ⟨6⟩], .deallocate ⟨6⟩],
          .receive [.gate .cx [⟨5⟩, ⟨5⟩], .flush]]).log,
        ∀ command, event.sent? = some command → command.isFlush = false → mapper.router.Legal command := by
  obtain ⟨mapper, built⟩ :
      ∃ mapper, (Config.grid { rows := 2, columns := 2, storage := 1, hardware := some (.ofList
        [(0, ⟨30⟩), (1, ⟨10⟩), (2, ⟨20⟩), (3, ⟨0⟩)]) }).mapper = .ok mapper :=
    ⟨_, rfl⟩
  exact ⟨mapper, built, (session_legal built _).2⟩

end QubitRouting
