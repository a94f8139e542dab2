import QubitRouting.Proofs.Allocation

/-!
# Runs on a device

A device has a slot for every hardware qubit. A slot is free, or allocated with or without a logical
qubit in it. Replaying all that a mapper sent on a device whose slots are free never goes wrong, if the
mapper was given a well-formed stream: the slots hold the qubits in use where the mapper believes them
to be, and while qubits are moved all other slots of the device are allocated as well.
-/

namespace QubitRouting

/-! ### Devices -/

/-- What a slot holds. -/
inductive Slot where
  /-- It is not allocated. -/
  | free
  /-- It is allocated and holds no logical qubit. -/
  | blank
  /-- It holds a logical qubit. -/
  | holds (q : QubitId)
deriving DecidableEq

/-- What an allocation puts into a slot: the logical qubit that its tag names, if it names one. -/
def Slot.ofTag : Option QubitId → Slot
  | none => blank
  | some q => holds q

/-- What the slot of each hardware qubit holds. -/
abbrev Device := QubitId → Slot

/-- Whether two hardware qubits stand for neighbouring positions. -/
def Router.coupled (router : Router) (a b : QubitId) : Bool :=
  match router.position? a, router.position? b with
  | some pa, some pb => decide (router.adjacent pa pb = .ok true)
  | _, _ => false

namespace Device

/-- A device with free slots only. -/
def empty : Device := fun _ => .free

/-- An allocation needs a free slot. -/
def allocate (device : Device) (command : Command) : Option Device :=
  match command.qubits with
  | [slot] =>
    if device slot = .free then some (Function.update device slot (.ofTag command.logicalTag?)) else none
  | _ => none

/-- A release needs a slot with the logical qubit that its tag names, or with none if it has no tag. -/
def release (device : Device) (command : Command) : Option Device :=
  match command.qubits with
  | [slot] =>
    if device slot = .ofTag command.logicalTag? then some (Function.update device slot .free) else none
  | _ => none

/-- A swap between slots needs two neighbours that are allocated. -/
def exchange (router : Router) (device : Device) (command : Command) : Option Device :=
  match command.qubits with
  | [a, b] =>
    if device a ≠ .free ∧ device b ≠ .free ∧ router.coupled a b then some (device ∘ Equiv.swap a b)
    else none
  | _ => none

/-- A command of the stream needs slots with its own operands, in order, and two of them side by side. -/
def perform (router : Router) (device : Device) (b : Buffered) (command : Command) : Option Device :=
  match command.qubits with
  | [x] => if [device x] = b.command.qubits.map .holds then some device else none
  | [x, y] =>
    if [device x, device y] = b.command.qubits.map .holds ∧ router.coupled x y then some device else none
  | _ => none

/-- What an event does on a device, unless the device cannot do it. -/
def step (router : Router) (device : Device) : Event → Option Device
  | .accepted _ | .flushed _ => some device
  | .inserted command =>
    if command.logicalTag? = none then
      match command.kind with
      | .allocate => device.allocate command
      | .deallocate => device.release command
      | .gate .swap => device.exchange router command
      | _ => none
    else none
  | .forwarded b command =>
    if command.kind = b.command.kind then
      match command.kind with
      | .allocate =>
        if command.logicalTag?.toList = b.command.qubits then device.allocate command else none
      | .deallocate =>
        if command.logicalTag?.toList = b.command.qubits then device.release command else none
      | .gate _ | .measure => device.perform router b command
      | .flush => none
    else none

/-- Replay what happened on a device. -/
def replay (router : Router) (device : Device) (log : List Event) : Option Device :=
  log.foldlM (step router) device

/-- Replaying nothing leaves the device as it is. -/
@[simp]
lemma replay_nil (router : Router) (device : Device) : replay router device [] = some device := rfl

/-- Replaying a log is replaying its first event and then the others. -/
lemma replay_cons (router : Router) (device : Device) (event : Event) (log : List Event) :
    replay router device (event :: log) = (step router device event).bind (replay router · log) :=
  rfl

/-- Two logs are replayed one after the other. -/
lemma replay_append (router : Router) (device : Device) (log more : List Event) :
    replay router device (log ++ more) = (replay router device log).bind (replay router · more) :=
  List.foldlM_append

/-! What the device does with each command that a mapper sends. -/

variable {router : Router} {device : Device} {b : Buffered} {command : Command} {slot x y q : QubitId}

/-- Allocating a free slot for a qubit puts the qubit there. -/
lemma step_allocate (kind : b.command.kind = .allocate) (operands : b.command.qubits = [q])
    (free : device slot = .free) :
    step router device (.forwarded b ((Command.allocate slot).withTag (.logicalQubit q)))
      = some (Function.update device slot (.holds q)) := by
  change (if CommandKind.allocate = b.command.kind then
    if [q] = b.command.qubits then if device slot = .free then _ else none else none else none) = _
  rw [if_pos kind.symm, if_pos operands.symm, if_pos free]
  rfl

/-- Releasing a slot that holds the qubit named frees it. -/
lemma step_deallocate (kind : b.command.kind = .deallocate) (operands : b.command.qubits = [q])
    (held : device slot = .holds q) :
    step router device (.forwarded b ((Command.deallocate slot).withTag (.logicalQubit q)))
      = some (Function.update device slot .free) := by
  change (if CommandKind.deallocate = b.command.kind then
    if [q] = b.command.qubits then if device slot = .holds q then _ else none else none else none) = _
  rw [if_pos kind.symm, if_pos operands.symm, if_pos held]

/-- A forwarded command that neither allocates nor releases is performed on the slots. -/
lemma step_perform (kind : command.kind = b.command.kind) (notFlush : command.isFlush = false)
    (notAllocate : command.kind ≠ .allocate) (notDeallocate : command.kind ≠ .deallocate) :
    step router device (.forwarded b command) = device.perform router b command := by
  rw [step, if_pos kind]
  cases does : command.kind with
  | gate => rfl
  | measure => rfl
  | allocate => exact absurd does notAllocate
  | deallocate => exact absurd does notDeallocate
  | flush =>
    rw [Command.isFlush, does] at notFlush
    cases notFlush

/-- An inserted allocation puts nobody into a free slot. -/
lemma step_blank (free : device slot = .free) :
    step router device (.inserted (.allocate slot)) = some (Function.update device slot .blank) := by
  change (if device slot = .free then _ else none) = _
  rw [if_pos free]
  rfl

/-- An inserted release frees a slot that nobody is in. -/
lemma step_unblank (blank : device slot = .blank) :
    step router device (.inserted (.deallocate slot)) = some (Function.update device slot .free) := by
  change (if device slot = .blank then _ else none) = _
  rw [if_pos blank]

/-- An inserted swap exchanges two neighbouring slots that are in use. -/
lemma step_swap (first : device x ≠ .free) (second : device y ≠ .free) (coupled : router.coupled x y) :
    step router device (.inserted (.gate .swap [x, y])) = some (device ∘ Equiv.swap x y) := by
  change (if device x ≠ .free ∧ device y ≠ .free ∧ router.coupled x y then _ else none) = _
  rw [if_pos ⟨first, second, coupled⟩]

end Device

namespace Router

variable {router other : Router} {a b : QubitId} {pa pb : Nat}

/-- Routers for the same device replay alike. -/
lemma SameDevice.step_eq (same : router.SameDevice other) : Device.step other = Device.step router := by
  have coupled_eq : other.coupled = router.coupled := by
    funext a b
    rw [coupled, coupled, same.position?_eq, same.adjacent_eq]
  funext device event
  cases event with
  | accepted => rfl
  | flushed => rfl
  | inserted command =>
    rw [Device.step, Device.step]
    simp only [Device.exchange, coupled_eq]
  | forwarded b command =>
    rw [Device.step, Device.step]
    simp only [Device.perform, coupled_eq]

/-- The hardware qubits of neighbouring positions are coupled. -/
lemma Valid.coupled_eq (valid : router.Valid) (ltA : pa < router.numQubits) (ltB : pb < router.numQubits)
    (adjacent : router.adjacent pa pb = .ok true) :
    router.coupled (router.hardwareQubit pa) (router.hardwareQubit pb) = true := by
  rw [coupled, valid.position?_eq_some.mpr ⟨ltA, rfl⟩, valid.position?_eq_some.mpr ⟨ltB, rfl⟩]
  exact decide_eq_true adjacent

/-- To swap two slots is to swap the positions that they stand for. -/
lemma Valid.swap_hardwareQubit (valid : router.Valid) {p : Nat} (ltA : pa < router.numQubits)
    (ltB : pb < router.numQubits) (lt : p < router.numQubits) :
    Equiv.swap (router.hardwareQubit pa) (router.hardwareQubit pb) (router.hardwareQubit p)
      = router.hardwareQubit (Equiv.swap pa pb p) := by
  by_cases first : p = pa
  · rw [first, Equiv.swap_apply_left, Equiv.swap_apply_left]
  · by_cases second : p = pb
    · rw [second, Equiv.swap_apply_right, Equiv.swap_apply_right]
    · rw [Equiv.swap_apply_of_ne_of_ne first second, Equiv.swap_apply_of_ne_of_ne]
      · exact fun same => first (valid.hardwareQubit_inj lt ltA same)
      · exact fun same => second (valid.hardwareQubit_inj lt ltB same)

end Router

/-! ### What a device shows of a layout -/

/-- The slots of the device hold the qubits in use at their positions. All other slots of the device are
alike, and there are no slots beyond. -/
structure Shows (router : Router) (layout : Layout Nat) (allocated : OrderedSet QubitId) (idle : Slot)
    (device : Device) : Prop where
  held : ∀ {q p}, q ∈ allocated → layout.position? q = some p →
    device (router.hardwareQubit p) = .holds q
  idle : ∀ {p}, p < router.numQubits → (∀ q ∈ allocated, layout.position? q ≠ some p) →
    device (router.hardwareQubit p) = idle
  beyond : ∀ {slot}, (∀ p < router.numQubits, router.hardwareQubit p ≠ slot) → device slot = .free

namespace Shows

variable {router other : Router} {layout next : Layout Nat} {allocated : OrderedSet QubitId}
  {before after : Slot} {device : Device}

/-- What a device shows does not depend on which router for it is meant. -/
lemma congr (same : router.SameDevice other) :
    Shows other layout allocated before device ↔ Shows router layout allocated before device := by
  constructor
  · rintro ⟨held, idle, beyond⟩
    rw [same.hardwareQubit_eq] at held
    rw [same.hardwareQubit_eq, same.numQubits_eq] at idle beyond
    exact ⟨held, idle, beyond⟩
  · rintro ⟨held, idle, beyond⟩
    rw [← same.hardwareQubit_eq] at held
    rw [← same.hardwareQubit_eq, ← same.numQubits_eq] at idle beyond
    exact ⟨held, idle, beyond⟩

/-- An empty device shows that no qubit is in use. -/
lemma empty (none_used : ∀ q, q ∉ allocated) :
    Shows router layout allocated .free Device.empty :=
  ⟨fun mem _ => absurd mem (none_used _), fun _ _ => rfl, fun _ => rfl⟩

/-- Putting a qubit into the slot of its position shows that it is in use. -/
lemma insert (seen : Shows router layout allocated before device) (valid : router.Valid)
    (fits : layout.Fits router.numQubits) {q : QubitId} {p : Nat} (placed : layout.position? q = some p) :
    Shows router layout (allocated.insert q) before
      (Function.update device (router.hardwareQubit p) (.holds q)) := by
  refine ⟨?_, ?_, ?_⟩
  · intro r s mem here
    by_cases same : s = p
    · subst same
      rw [Function.update_self, fits.consistent.inj placed here]
    · have other : r ∈ allocated := by
        rcases OrderedSet.mem_insert.mp mem with rfl | mem
        · exact absurd (Option.some.inj (here.symm.trans placed)) same
        · exact mem
      rw [Function.update_of_ne]
      · exact seen.held other here
      · exact fun equal => same (valid.hardwareQubit_inj (fits.lt here) (fits.lt placed) equal)
  · intro s lt unoccupied
    have ne : s ≠ p := by
      rintro rfl
      exact unoccupied q (OrderedSet.mem_insert.mpr (.inl rfl)) placed
    rw [Function.update_of_ne]
    · exact seen.idle lt fun r mem => unoccupied r (OrderedSet.mem_insert.mpr (.inr mem))
    · exact fun equal => ne (valid.hardwareQubit_inj lt (fits.lt placed) equal)
  · intro slot outside
    rw [Function.update_of_ne]
    · exact seen.beyond outside
    · exact fun equal => outside p (fits.lt placed) equal.symm

/-- Emptying the slot of a qubit shows that it is out of use and has no position. -/
lemma erase (seen : Shows router layout allocated before device) (valid : router.Valid)
    (fits : layout.Fits router.numQubits) {q : QubitId} {p : Nat} (placed : layout.position? q = some p) :
    Shows router (layout.erase q) (allocated.erase q) before
      (Function.update device (router.hardwareQubit p) before) := by
  refine ⟨?_, ?_, ?_⟩
  · intro r s mem here
    obtain ⟨mem, ne⟩ := OrderedSet.mem_erase.mp mem
    rw [Layout.position?_erase_of_ne ne.symm] at here
    rw [Function.update_of_ne]
    · exact seen.held mem here
    · intro equal
      obtain rfl := valid.hardwareQubit_inj (fits.lt here) (fits.lt placed) equal
      exact ne (fits.consistent.inj here placed)
  · intro s lt unoccupied
    by_cases same : s = p
    · rw [same, Function.update_self]
    · rw [Function.update_of_ne]
      · apply seen.idle lt
        intro r mem here
        -- only the erased qubit was at the position that is freed
        by_cases other : q = r
        · subst other
          exact same (Option.some.inj (here.symm.trans placed))
        · refine unoccupied r (OrderedSet.mem_erase.mpr ⟨mem, Ne.symm other⟩) ?_
          rw [Layout.position?_erase_of_ne other]
          exact here
      · exact fun equal => same (valid.hardwareQubit_inj lt (fits.lt placed) equal)
  · intro slot outside
    rw [Function.update_of_ne]
    · exact seen.beyond outside
    · exact fun equal => outside p (fits.lt placed) equal.symm

end Shows

/-! ### Forwarded commands -/

namespace Dispatch

variable {router : Router} {state final : State} {b : Buffered} {command : Command}
  {buffer : List Buffered} {handled : List Handled} {device : Device}

/-- The device carries out a forwarded command that finds its qubits as it needs them. -/
lemma Step.replays {next : State} (step : Step router state b (some command) next) (valid : router.Valid)
    (fits : state.layout.Fits router.numQubits) (classified : b.Classified)
    (usable : Stream.Usable state.allocated b)
    (seen : Shows router state.layout state.allocated .free device) :
    ∃ after, device.step router (.forwarded b command) = some after ∧
      Shows router next.layout next.allocated .free after := by
  have notFlush : (onHardware router state.layout b.command).isFlush = false := by
    rw [Command.isFlush, kind_onHardware]
    exact (Buffered.of_classify classified).2.1
  have onHardware_kind := kind_onHardware router state.layout b.command
  obtain ⟨operands, kind⟩ := classified.describes
  rw [Stream.Usable] at usable
  cases step with
  | @allocate q p shape placed =>
    simp only [shape] at operands kind usable
    -- whoever sat there would be the qubit itself, which is not in use yet
    have free : device (router.hardwareQubit p) = .free := by
      apply seen.idle (fits.lt placed)
      intro r mem here
      exact usable (fits.consistent.inj placed here ▸ mem)
    exact ⟨_, Device.step_allocate kind operands free, seen.insert valid fits placed⟩
  | @deallocate q p shape active placed =>
    simp only [shape] at operands kind usable
    have held := seen.held (usable q List.mem_cons_self) placed
    exact ⟨_, Device.step_deallocate kind operands held, seen.erase valid fits placed⟩
  | @single q p shape active placed =>
    simp only [shape] at operands kind usable
    have held := seen.held (usable q List.mem_cons_self) placed
    refine ⟨device, ?_, seen⟩
    rw [Device.step_perform onHardware_kind notFlush (onHardware_kind ▸ kind.1) (onHardware_kind ▸ kind.2),
      Device.perform, qubits_onHardware, operands]
    simp only [Shape.qubits, List.map_cons, List.map_nil, rename_eq placed, held, if_true]
  | @pair x y px py shape activeX activeY placedX placedY adjacent =>
    simp only [shape] at operands kind usable
    have heldX := seen.held (usable x List.mem_cons_self) placedX
    have heldY := seen.held (usable y (List.mem_cons_of_mem x List.mem_cons_self)) placedY
    have coupled := valid.coupled_eq (fits.lt placedX) (fits.lt placedY) adjacent
    refine ⟨device, ?_, seen⟩
    rw [Device.step_perform onHardware_kind notFlush (onHardware_kind ▸ kind.1) (onHardware_kind ▸ kind.2),
      Device.perform, qubits_onHardware, operands]
    simp only [Shape.qubits, List.map_cons, List.map_nil, rename_eq placedX, rename_eq placedY, heldX,
      heldY, coupled, and_self, if_true]

/-- What a pass over the buffer forwards can be replayed, and the device then shows the state after it. -/
lemma Pass.replays (pass : Pass router state buffer handled final) (valid : router.Valid)
    (fits : state.layout.Fits router.numQubits) (classified : ∀ b ∈ buffer, b.Classified)
    (usable : ∀ before b after, sent handled = before ++ b :: after →
      Stream.Usable (before.foldl Stream.use state.allocated) b)
    (seen : Shows router state.layout state.allocated .free device) :
    ∃ after, device.replay router (handled.filterMap Event.ofHandled?) = some after ∧
      Shows router final.layout final.allocated .free after := by
  induction pass generalizing device with
  | nil => exact ⟨device, rfl, seen⟩
  | @cons state next final b forwarded rest handled step pass ih =>
    have classified_rest : ∀ c ∈ rest, c.Classified := fun c mem => classified c (List.mem_cons_of_mem b mem)
    cases forwarded with
    | none =>
      -- a command that is kept changes nothing
      have same : next.layout = state.layout ∧ next.allocated = state.allocated := by
        cases step with
        | stays => exact ⟨rfl, rfl⟩
      refine ih (step.fits fits) classified_rest ?_ (same.1 ▸ same.2 ▸ seen)
      rw [same.2]
      exact usable
    | some command =>
      have first : Stream.Usable state.allocated b := usable [] b (sent handled) rfl
      obtain ⟨after, here, seen⟩ :=
        step.replays valid fits (classified b List.mem_cons_self) first seen
      have allocated : next.allocated = Stream.use state.allocated b := step.allocated_eq
      have later : ∀ before c after, sent handled = before ++ c :: after →
          Stream.Usable (before.foldl Stream.use next.allocated) c := by
        intro before c after split
        rw [allocated]
        exact usable (b :: before) c after (congrArg (b :: ·) split)
      obtain ⟨last, more, seen⟩ := ih (step.fits fits) classified_rest later seen
      refine ⟨last, ?_, seen⟩
      change device.replay router (.forwarded b command :: handled.filterMap Event.ofHandled?) = _
      rw [Device.replay_cons, here]
      exact more
  | @idle state rest =>
    refine ⟨device, ?_, seen⟩
    have none_sent : (rest.map fun b => (⟨b, none⟩ : Handled)).filterMap Event.ofHandled? = [] := by
      rw [List.filterMap_map, List.filterMap_eq_nil_iff]
      exact fun _ _ => rfl
    rw [none_sent]
    rfl

end Dispatch

/-! ### Inserted commands -/

namespace Device

variable {router : Router} {before after : Slot} {make : QubitId → Command} {device : Device}

/-- Commands that each change one slot, on slots that differ. -/
lemma replay_each (makes : ∀ {device : Device} {slot}, device slot = before →
      device.step router (.inserted (make slot)) = some (Function.update device slot after))
    {slots : List QubitId} (nodup : slots.Nodup) (ready : ∀ slot ∈ slots, device slot = before) :
    ∃ final, device.replay router (slots.map fun slot => .inserted (make slot)) = some final ∧
      (∀ slot ∈ slots, final slot = after) ∧ ∀ slot ∉ slots, final slot = device slot := by
  induction slots generalizing device with
  | nil => exact ⟨device, rfl, nofun, fun _ _ => rfl⟩
  | cons first rest ih =>
    obtain ⟨fresh, nodup⟩ := List.nodup_cons.mp nodup
    have ready_rest : ∀ slot ∈ rest, Function.update device first after slot = before := by
      intro slot mem
      rw [Function.update_of_ne]
      · exact ready slot (List.mem_cons_of_mem first mem)
      · rintro rfl
        exact fresh mem
    obtain ⟨final, run, done, same⟩ := ih nodup ready_rest
    refine ⟨final, ?_, ?_, ?_⟩
    · rw [List.map_cons, replay_cons, makes (ready first List.mem_cons_self)]
      exact run
    · intro slot mem
      rcases List.mem_cons.mp mem with rfl | mem
      · rw [same slot fresh, Function.update_self]
      · exact done slot mem
    · intro slot absent
      rw [List.mem_cons, not_or] at absent
      rw [same slot absent.2, Function.update_of_ne absent.1]

variable {swaps : List Swap}

/-- Swaps between neighbours carry what is in the slots to other slots. -/
lemma replay_swaps (valid : router.Valid) (neighbouring : router.Neighbouring swaps)
    (full : ∀ p < router.numQubits, device (router.hardwareQubit p) ≠ .free) :
    ∃ final, device.replay router (swaps.map fun swap =>
        .inserted (.gate .swap [router.hardwareQubit swap.1, router.hardwareQubit swap.2])) = some final ∧
      (∀ p < router.numQubits, final (router.hardwareQubit (Swap.perm swaps p))
        = device (router.hardwareQubit p)) ∧
      ∀ slot, (∀ p < router.numQubits, router.hardwareQubit p ≠ slot) → final slot = device slot := by
  induction swaps generalizing device with
  | nil => exact ⟨device, rfl, fun _ _ => rfl, fun _ _ => rfl⟩
  | cons swap rest ih =>
    obtain ⟨adjacent, ltA, ltB⟩ := neighbouring swap List.mem_cons_self
    have within : ∀ p < router.numQubits, Equiv.swap swap.1 swap.2 p < router.numQubits := by
      intro p lt
      have bound : ∀ s ∈ [swap], s.1 < router.numQubits ∧ s.2 < router.numQubits := by
        rintro s mem
        obtain rfl := List.mem_singleton.mp mem
        exact ⟨ltA, ltB⟩
      exact Swap.perm_lt bound lt
    -- the first swap exchanges what two positions hold
    obtain ⟨first, first_eq⟩ : ∃ first,
        first = device ∘ Equiv.swap (router.hardwareQubit swap.1) (router.hardwareQubit swap.2) :=
      ⟨_, rfl⟩
    have moved : ∀ p < router.numQubits, first (router.hardwareQubit p)
        = device (router.hardwareQubit (Equiv.swap swap.1 swap.2 p)) := by
      intro p lt
      rw [first_eq, Function.comp_apply, valid.swap_hardwareQubit ltA ltB lt]
    have full_first : ∀ p < router.numQubits, first (router.hardwareQubit p) ≠ .free := by
      intro p lt
      rw [moved p lt]
      exact full _ (within p lt)
    obtain ⟨final, run, carried, beyond⟩ :=
      ih (fun s mem => neighbouring s (List.mem_cons_of_mem swap mem)) full_first
    refine ⟨final, ?_, ?_, ?_⟩
    · rw [List.map_cons, replay_cons,
        step_swap (full _ ltA) (full _ ltB) (valid.coupled_eq ltA ltB adjacent), ← first_eq]
      exact run
    · intro p lt
      rw [Swap.perm_cons_apply, carried _ (within p lt), moved _ (within p lt), Equiv.swap_apply_self]
    · intro slot outside
      rw [beyond slot outside, first_eq, Function.comp_apply, Equiv.swap_apply_of_ne_of_ne]
      · exact (outside _ ltA).symm
      · exact (outside _ ltB).symm

end Device

namespace Shows

variable {router : Router} {layout next : Layout Nat} {allocated : OrderedSet QubitId}
  {before after : Slot} {device : Device} {make : QubitId → Command} {swaps : List Swap}

/-- All idle slots change alike. -/
lemma each (seen : Shows router layout allocated before device) (valid : router.Valid)
    (fits : layout.Fits router.numQubits)
    (makes : ∀ {device : Device} {slot}, device slot = before →
      device.step router (.inserted (make slot)) = some (Function.update device slot after))
    {idle : List Nat} (nodup : idle.Nodup)
    (mem_idle : ∀ {p}, p ∈ idle ↔ p < router.numQubits ∧ ∀ q ∈ allocated, layout.position? q ≠ some p) :
    ∃ final, device.replay router (idle.map fun p => .inserted (make (router.hardwareQubit p))) = some final ∧
      Shows router layout allocated after final := by
  have slots_nodup : (idle.map router.hardwareQubit).Nodup := by
    apply nodup.map_on
    intro p memP r memR same
    exact valid.hardwareQubit_inj (mem_idle.mp memP).1 (mem_idle.mp memR).1 same
  have ready : ∀ slot ∈ idle.map router.hardwareQubit, device slot = before := by
    intro slot mem
    obtain ⟨p, memP, rfl⟩ := List.mem_map.mp mem
    obtain ⟨lt, unoccupied⟩ := mem_idle.mp memP
    exact seen.idle lt unoccupied
  obtain ⟨final, run, done, same⟩ := Device.replay_each makes slots_nodup ready
  rw [List.map_map] at run
  refine ⟨final, run, ?_, ?_, ?_⟩
  · intro q p mem placed
    rw [same]
    · exact seen.held mem placed
    · -- the slot of a qubit in use is not idle
      intro inSlots
      obtain ⟨r, memR, equal⟩ := List.mem_map.mp inSlots
      obtain ⟨lt, unoccupied⟩ := mem_idle.mp memR
      obtain rfl := valid.hardwareQubit_inj lt (fits.lt placed) equal
      exact unoccupied q mem placed
  · intro p lt unoccupied
    exact done _ (List.mem_map_of_mem (mem_idle.mpr ⟨lt, unoccupied⟩))
  · intro slot outside
    rw [same]
    · exact seen.beyond outside
    · intro inSlots
      obtain ⟨r, memR, equal⟩ := List.mem_map.mp inSlots
      exact outside r (mem_idle.mp memR).1 equal

/-- A device whose slots were moved like the qubits of a layout shows the layout that they were carried
to. -/
lemma moved {final : Device} (seen : Shows router layout allocated before device)
    (fits : layout.Fits router.numQubits) (neighbouring : router.Neighbouring swaps)
    (moves : ∀ p < router.numQubits,
      final (router.hardwareQubit (Swap.perm swaps p)) = device (router.hardwareQubit p))
    (beyond : ∀ slot, (∀ p < router.numQubits, router.hardwareQubit p ≠ slot) → final slot = device slot)
    (carries : Move.Carries swaps layout next) (housed : Dispatch.Housed layout allocated)
    (housed_next : Dispatch.Housed next allocated) : Shows router next allocated before final := by
  refine ⟨?_, ?_, ?_⟩
  · intro q t mem there
    obtain ⟨p, here⟩ := housed q mem
    rw [← carries here there, moves p (fits.lt here)]
    exact seen.held mem here
  · intro t lt unoccupied
    -- the position that was carried there was idle as well
    obtain ⟨p, rfl⟩ := (Swap.perm swaps).surjective t
    have ltP : p < router.numQubits := by
      by_contra notLt
      rw [Swap.perm_eq_self] at lt
      · exact notLt lt
      · intro swap mem
        obtain ⟨_, ltA, ltB⟩ := neighbouring swap mem
        omega
    rw [moves p ltP]
    apply seen.idle ltP
    intro q mem here
    obtain ⟨t, there⟩ := housed_next q mem
    rw [carries here there] at unoccupied
    exact unoccupied q mem there
  · intro slot outside
    rw [beyond slot outside]
    exact seen.beyond outside

/-- No slot of a device is free if its idle slots are not. -/
lemma ne_free (seen : Shows router layout allocated .blank device) :
    ∀ p < router.numQubits, device (router.hardwareQubit p) ≠ .free := by
  intro p lt
  by_cases occupied : ∃ q ∈ allocated, layout.position? q = some p
  · obtain ⟨q, mem, placed⟩ := occupied
    rw [seen.held mem placed]
    nofun
  · rw [seen.idle lt fun q mem placed => occupied ⟨q, mem, placed⟩]
    nofun

end Shows

/-! ### Runs of a mapper -/

namespace Mapper

open Log (accepted forwarded)

variable {mapper after : Mapper} {past log : List Event} {device : Device} {layout : Layout Nat}

/-- The idle positions are those of no qubit in use. -/
lemma mem_idle {p : Nat} : p ∈ mapper.idle layout ↔
    p < mapper.router.numQubits ∧ ∀ q ∈ mapper.allocated, layout.position? q ≠ some p := by
  rw [idle, List.mem_filter, List.mem_range, decide_eq_true_iff, occupied, List.mem_filterMap, not_exists]
  simp only [not_and, OrderedSet.mem_toList]

/-- No idle position is listed twice. -/
lemma idle_nodup (mapper : Mapper) (layout : Layout Nat) : (mapper.idle layout).Nodup :=
  List.nodup_range.filter _

/-- The device shows what the mapper believes. -/
def Mirrored (mapper : Mapper) (device : Device) : Prop :=
  Shows mapper.router mapper.current mapper.allocated .free device

/-- A change of layout can be replayed, and the device then shows what the mapper believes. -/
lemma Remap.replays (remapped : Remap mapper log after) (sound : mapper.Sound)
    (housed : Dispatch.Housed mapper.current mapper.allocated)
    (housed_next : Dispatch.Housed mapper.next mapper.allocated) (mirrored : mapper.Mirrored device) :
    ∃ final, device.replay mapper.router log = some final ∧ after.Mirrored final := by
  have fits := sound.fits_current
  have fits_next : mapper.next.Fits mapper.router.numQubits := sound.valid.regular.fits_next _
  cases remapped with
  | @intro swaps router same carries neighbouring =>
    suffices shown : ∃ final, device.replay mapper.router (mapper.swapEvents swaps) = some final ∧
        Shows mapper.router mapper.next mapper.allocated .free final by
      obtain ⟨final, run, seen⟩ := shown
      exact ⟨final, run, (Shows.congr same).mpr seen⟩
    cases swaps with
    | nil => exact ⟨device, rfl, mirrored.moved fits neighbouring (fun _ _ => rfl) (fun _ _ => rfl)
        carries housed housed_next⟩
    | cons first rest =>
      -- fill the idle slots, swap, and clear the slots that are idle then
      obtain ⟨filled, fills, seen⟩ := mirrored.each sound.valid fits Device.step_blank
        (mapper.idle_nodup mapper.current) mem_idle
      obtain ⟨swapped, swaps, moves, beyond⟩ :=
        Device.replay_swaps sound.valid neighbouring seen.ne_free
      have seen := seen.moved fits neighbouring moves beyond carries housed housed_next
      obtain ⟨final, clears, seen⟩ := seen.each sound.valid fits_next Device.step_unblank
        (mapper.idle_nodup mapper.next) mem_idle
      refine ⟨final, ?_, seen⟩
      have events : mapper.swapEvents (first :: rest)
          = (mapper.idle mapper.current).map
              (fun p => .inserted (.allocate (mapper.router.hardwareQubit p)))
            ++ (first :: rest).map (fun swap => .inserted (.gate .swap
              [mapper.router.hardwareQubit swap.1, mapper.router.hardwareQubit swap.2]))
            ++ (mapper.idle mapper.next).map
              (fun p => .inserted (.deallocate (mapper.router.hardwareQubit p))) := by
        rw [swapEvents, if_neg (by simp), swapCommands]
        simp only [List.map_append, List.map_map]
        rfl
      rw [events, Device.replay_append, Device.replay_append, fills]
      simp only [Option.bind_some, swaps, clears]

/-- A pass over the buffer can be replayed, and the device then shows what the mapper believes. -/
lemma Dispatched.replays (dispatched : Dispatched mapper log after) (sound : mapper.Sound)
    (tracked : Tracked past mapper) (live : Log.Throughout Log.Live (past ++ log))
    (mirrored : mapper.Mirrored device) :
    ∃ final, device.replay mapper.router log = some final ∧ after.Mirrored final := by
  cases dispatched with
  | @intro layout handled state here pass =>
    rw [Mirrored, current, here] at mirrored
    refine pass.replays sound.valid (sound.fits here) tracked.classified ?_ mirrored
    intro before b after split
    have sent : forwarded (past ++ handled.filterMap Event.ofHandled?)
        = (forwarded past ++ before) ++ b :: after := by
      rw [Log.forwarded_append, Log.forwarded_handled, split, List.append_assoc]
    have usable := Log.usable_of_live live sent
    rw [Stream.live, List.foldl_append] at usable
    change Stream.Usable (before.foldl Stream.use mapper.allocated) b
    rw [tracked.allocated_eq]
    exact usable

/-- All that was sent can be replayed on an empty device, which then shows what the mapper believes. -/
structure Replayed (router : Router) (past : List Event) (mapper : Mapper) : Prop where
  sameDevice : router.SameDevice mapper.router
  tracked : Tracked past mapper
  device : ∃ device, Device.empty.replay router past = some device ∧ mapper.Mirrored device

/-- After one more step all that was sent can still be replayed. -/
lemma Replayed.step {router : Router} (sound : mapper.Sound)
    (wf : Stream.WellFormed (accepted (past ++ log))) (replayed : Replayed router past mapper)
    (step : mapper.Step log after) : Replayed router (past ++ log) after := by
  have tracked := replayed.tracked.step sound wf step
  have live := Log.live_of_inOrder wf tracked.ordered.throughout
  obtain ⟨same, trackedBefore, device, before, mirrored⟩ := replayed
  refine ⟨same.trans step.sameDevice, tracked, ?_⟩
  suffices more : ∃ final, device.replay mapper.router log = some final ∧ after.Mirrored final by
    obtain ⟨final, run, mirrored⟩ := more
    refine ⟨final, ?_, mirrored⟩
    rw [Device.replay_append, before, Option.bind_some, Device.replay, ← same.step_eq]
    exact run
  cases step with
  | accept => exact ⟨device, rfl, mirrored⟩
  | flush => exact ⟨device, rfl, mirrored⟩
  | dispatch dispatched => exact dispatched.replays sound trackedBefore live mirrored
  | remap remapped =>
    rw [Log.accepted_append] at wf
    have wf := wf.of_prefix (List.prefix_append _ _)
    exact remapped.replays sound trackedBefore.housed (trackedBefore.housed_next sound wf) mirrored

/-- Before a fresh mapper sends anything, the empty device shows what it believes. -/
lemma Fresh.replayed (fresh : mapper.Fresh) (layout : Option (Layout Nat)) :
    Replayed mapper.router [] { mapper with layout } := by
  refine ⟨.refl _, fresh.tracked layout, Device.empty, rfl, Shows.empty ?_⟩
  intro q mem
  rw [fresh.allocated_eq] at mem
  exact OrderedSet.not_mem_empty q mem

end Mapper

/-- Layouts may be installed before the first command. If the commands that are then taken in form a
well-formed stream, all that the mapper sends can be carried out by the device, and the slots hold the
qubits in use where the mapper has them. -/
theorem session_replays {config : Config} {mapper : Mapper} (built : config.mapper = .ok mapper)
    (layouts : List (Layout QubitId)) (batches : List (List Command)) {session : Session}
    (now : session = mapper.session (layouts.map .install ++ batches.map .receive))
    (wf : Stream.WellFormed (Log.accepted session.log)) :
    ∃ device, Device.empty.replay mapper.router session.log = some device ∧
      session.mapper.Mirrored device := by
  subst now
  have fresh := Config.fresh_mapper built
  obtain ⟨layout, start, empty⟩ := mapper.session_installs layouts
  obtain ⟨sound, _⟩ := Mapper.session_keeps (fun _ _ => True) (fun _ _ _ => trivial) (fun _ => trivial)
    fresh.sound trivial (layouts.map .install)
  obtain ⟨log, eq, run⟩ := Mapper.steps_receives _ sound batches
  rw [empty, List.nil_append] at eq
  have start : Mapper.Replayed mapper.router [] (mapper.session (layouts.map .install)).mapper := by
    rw [start]
    exact fresh.replayed layout
  have replayed := run.keeps_of_wellFormed (Mapper.Replayed mapper.router) Mapper.Replayed.step sound start
    (by rwa [List.nil_append, ← eq])
  rw [List.nil_append, ← eq] at replayed
  exact replayed.device

/-- Two qubits that are installed at the ends of a chain meet, and a call that fails in between does no
harm. -/
theorem session_replays_after_failure :
    ∃ session : Session,
      session = Mapper.session { router := .chain ⟨3, false⟩, storage := 2 }
        ([.ofPairs [(⟨7⟩, ⟨2⟩), (⟨8⟩, ⟨0⟩)]].map .install ++
          [[.allocate ⟨7⟩, .allocate ⟨8⟩, .gate .x []], [.allocate ⟨9⟩, .gate .cx [⟨7⟩, ⟨8⟩], .flush],
            [.deallocate ⟨8⟩, .gate .cx [⟨7⟩, ⟨9⟩], .measure ⟨9⟩, .flush]].map .receive) ∧
      session.failures.length = 1 ∧ Stream.WellFormed (Log.accepted session.log) ∧
      ∃ device, Device.empty.replay (.chain ⟨3, false⟩) session.log = some device ∧
        session.mapper.Mirrored device := by
  have built : (Config.linear { numQubits := 3, storage := 2 }).mapper
      = .ok { router := .chain ⟨3, false⟩, storage := 2 } := rfl
  refine ⟨_, rfl, by decide, by decide, ?_⟩
  exact session_replays built _ _ rfl (by decide)

end QubitRouting
