import QubitRouting.Proofs.Device

/-!
# What the statistics count

The histograms of a mapper agree with each other and with what the mapper sent: each of them counts
every change of layout once, and together they count every swap. While a well-formed stream is taken in,
a change of layout releases as many idle positions as it has allocated.
-/

namespace QubitRouting

open scoped List

/-! ### Histograms -/

namespace Statistics

variable {histogram : OrderedMap Nat Nat} {key : Nat}

/-- The sum over all that a histogram counts, each weighed by its key. -/
def weigh (weight : Nat → Nat) (histogram : OrderedMap Nat Nat) : Nat :=
  (histogram.entries.map fun entry => weight entry.1 * entry.2).sum

/-- Counting one more occurrence in a list of entries adds the weight of its key to the sum. -/
lemma weigh_insertEntry (weight : Nat → Nat) (key : Nat) {entries : List (Nat × Nat)}
    (ascending : entries.Pairwise fun a b => rank a.1 < rank b.1) :
    ((OrderedMap.insertEntry key
        (((entries.find? fun entry => rank entry.1 == rank key).map Prod.snd).getD 0 + 1) entries).map
      fun entry => weight entry.1 * entry.2).sum
      = (entries.map fun entry => weight entry.1 * entry.2).sum + weight key := by
  induction entries with
  | nil => simp [OrderedMap.insertEntry]
  | cons head rest ih =>
    obtain ⟨k, count⟩ := head
    obtain ⟨before, tail⟩ := List.pairwise_cons.mp ascending
    rw [OrderedMap.insertEntry]
    split
    case isTrue less =>
      -- the key is smaller than all others, so nothing was counted under it
      have absent : ((k, count) :: rest).find? (fun entry => rank entry.1 == rank key) = none := by
        rw [List.find?_eq_none]
        intro entry mem
        have : rank key < rank entry.1 := by
          rcases List.mem_cons.mp mem with rfl | mem
          · exact less
          · exact Nat.lt_trans less (before entry mem)
        simpa using Nat.ne_of_gt this
      rw [absent]
      simp
      omega
    case isFalse notLess =>
      split
      case isTrue same =>
        obtain rfl : key = k := same
        rw [List.find?_cons_of_pos (by simp)]
        simp [Nat.mul_add]
        omega
      case isFalse other =>
        rw [List.find?_cons_of_neg (by simpa using Ne.symm other), List.map_cons, List.sum_cons, ih tail,
          List.map_cons, List.sum_cons, Nat.add_assoc]

/-- Counting one more occurrence of a key adds its weight. -/
lemma weigh_increment (weight : Nat → Nat) (histogram : OrderedMap Nat Nat) (key : Nat) :
    weigh weight (increment histogram key) = weigh weight histogram + weight key :=
  weigh_insertEntry weight key histogram.ascending

/-- Counting one more occurrence adds its key. -/
lemma mem_keys_increment {k : Nat} :
    k ∈ (increment histogram key).keys ↔ k = key ∨ k ∈ histogram.keys := by
  rw [OrderedMap.mem_keys_iff, OrderedMap.mem_keys_iff, increment]
  simp only [OrderedMap.find?_insert_eq_some]
  constructor
  · rintro ⟨count, ⟨same, _⟩ | ⟨_, found⟩⟩
    · exact .inl same
    · exact .inr ⟨count, found⟩
  · by_cases same : k = key
    · exact fun _ => ⟨_, .inl ⟨same, rfl⟩⟩
    · rintro (equal | ⟨count, found⟩)
      · exact absurd equal same
      · exact ⟨count, .inr ⟨same, found⟩⟩

end Statistics

/-! ### The depth of a list of swaps -/

namespace Swap

/-- The layers of a schedule of so many swaps: none lies deeper than the depth, which is at most the
number of swaps. -/
structure Schedule.Within (count : Nat) (schedule : Schedule) : Prop where
  layer_le : ∀ {p layer}, schedule.layers.find? p = some layer → layer ≤ schedule.depth
  depth_le : schedule.depth ≤ count
  depth_pos : 0 < count → 0 < schedule.depth

/-- The empty schedule is of no swaps. -/
lemma Schedule.within_start : Schedule.Within 0 {} := by
  refine ⟨?_, Nat.le_refl 0, fun less => absurd less (Nat.lt_irrefl 0)⟩
  intro p layer found
  cases found

/-- A schedule with one more swap is of one more swap. -/
lemma Schedule.Within.add {count : Nat} {schedule : Schedule} (within : schedule.Within count)
    (swap : Swap) : (schedule.add swap).Within (count + 1) := by
  have last_le (p : Nat) : (schedule.layers.find? p).getD 0 ≤ schedule.depth := by
    cases found : schedule.layers.find? p with
    | none => exact Nat.zero_le _
    | some layer => exact within.layer_le found
  have first := last_le swap.1
  have second := last_le swap.2
  have depth_le := within.depth_le
  constructor
  · intro p layer found
    rw [Schedule.add] at found ⊢
    rcases OrderedMap.find?_insert_eq_some.mp found with ⟨_, rfl⟩ | ⟨_, found⟩
    · exact Nat.le_max_right _ _
    · rcases OrderedMap.find?_insert_eq_some.mp found with ⟨_, rfl⟩ | ⟨_, found⟩
      · exact Nat.le_max_right _ _
      · exact Nat.le_trans (within.layer_le found) (Nat.le_max_left _ _)
  · rw [Schedule.add]
    dsimp only
    omega
  · intro _
    rw [Schedule.add]
    dsimp only
    omega

/-- A schedule with more swaps is of so many more. -/
lemma Schedule.Within.addAll {count : Nat} {schedule : Schedule} (within : schedule.Within count)
    (swaps : List Swap) : (swaps.foldl Schedule.add schedule).Within (count + swaps.length) := by
  induction swaps generalizing count schedule with
  | nil => exact within
  | cons swap rest ih =>
    rw [List.foldl_cons, List.length_cons, Nat.add_comm rest.length, ← Nat.add_assoc]
    exact ih (within.add swap)

/-- The schedule of some swaps is at most as deep as there are swaps. -/
lemma within_length (swaps : List Swap) : (swaps.foldl Schedule.add {}).Within swaps.length := by
  have within := Schedule.within_start.addAll swaps
  rwa [Nat.zero_add] at within

/-- There are no more layers than swaps. -/
lemma depth_le_length (swaps : List Swap) : depth swaps ≤ swaps.length := (within_length swaps).depth_le

/-- Swaps take a layer at least. -/
lemma depth_pos {swaps : List Swap} (some_swaps : swaps ≠ []) : 0 < depth swaps :=
  (within_length swaps).depth_pos (List.length_pos_iff.mpr some_swaps)

end Swap

/-! ### The statistics of a mapper -/

/-- The histograms count every change of layout once, and so many swaps in all. -/
structure Statistics.Consistent (numSwaps : Nat) (statistics : Statistics) : Prop where
  /-- The depths were counted as often as the layout was changed. -/
  depths_sum : (statistics.depths.entries.map Prod.snd).sum = statistics.numMappings
  /-- So were the numbers of swaps. -/
  counts_sum : (statistics.counts.entries.map Prod.snd).sum = statistics.numMappings
  /-- No change of layout without swaps was counted. -/
  depths_pos : 0 ∉ statistics.depths.keys
  counts_pos : 0 ∉ statistics.counts.keys
  /-- All swaps are accounted for. -/
  totalSwaps_eq : statistics.totalSwaps = numSwaps
  /-- No depth exceeds the largest number of swaps. -/
  depth_le : ∀ depth ∈ statistics.depths.keys, ∃ most ∈ statistics.counts.keys,
    (∀ count ∈ statistics.counts.keys, count ≤ most) ∧ depth ≤ most

namespace Statistics

variable {statistics : Statistics} {numSwaps : Nat} {swaps : List Swap}

/-- The sum of all counts weighs every occurrence alike. -/
lemma sum_values_eq (histogram : OrderedMap Nat Nat) :
    (histogram.entries.map Prod.snd).sum = weigh (fun _ => 1) histogram := by
  simp [weigh]

/-- The number of all swaps weighs every change of layout by its swaps. -/
lemma totalSwaps_eq_weigh (statistics : Statistics) :
    statistics.totalSwaps = weigh id statistics.counts := rfl

/-- Statistics are consistent before anything is counted. -/
lemma consistent_start : Consistent 0 {} := by
  refine ⟨rfl, rfl, List.not_mem_nil, List.not_mem_nil, rfl, ?_⟩
  intro depth mem
  cases mem

/-- One key of a histogram that has any is the largest. -/
lemma exists_largest {histogram : OrderedMap Nat Nat} {key : Nat} (mem : key ∈ histogram.keys) :
    ∃ most ∈ histogram.keys, ∀ k ∈ histogram.keys, k ≤ most := by
  have nonempty : histogram.keys.toFinset.Nonempty := ⟨key, List.mem_toFinset.mpr mem⟩
  obtain ⟨most, here, largest⟩ := histogram.keys.toFinset.exists_max_image id nonempty
  refine ⟨most, List.mem_toFinset.mp here, ?_⟩
  intro k mem
  exact largest k (List.mem_toFinset.mpr mem)

/-- Recording a change of layout with swaps keeps statistics consistent. -/
lemma Consistent.record (consistent : statistics.Consistent numSwaps) (some_swaps : swaps ≠ []) :
    (statistics.record swaps).Consistent (numSwaps + swaps.length) := by
  obtain ⟨depths_sum, counts_sum, depths_pos, counts_pos, total, depth_le⟩ := consistent
  rw [sum_values_eq] at depths_sum counts_sum
  rw [totalSwaps_eq_weigh] at total
  constructor
  · rw [sum_values_eq, Statistics.record, weigh_increment, depths_sum]
  · rw [sum_values_eq, Statistics.record, weigh_increment, counts_sum]
  · rw [Statistics.record, mem_keys_increment, not_or]
    exact ⟨(Nat.ne_of_gt (Swap.depth_pos some_swaps)).symm, depths_pos⟩
  · rw [Statistics.record, mem_keys_increment, not_or]
    exact ⟨(Nat.ne_of_gt (List.length_pos_iff.mpr some_swaps)).symm, counts_pos⟩
  · rw [totalSwaps_eq_weigh, Statistics.record, weigh_increment, total]
    rfl
  · intro depth mem
    have here : swaps.length ∈ (statistics.record swaps).counts.keys :=
      mem_keys_increment.mpr (.inl rfl)
    obtain ⟨most, memMost, largest⟩ := exists_largest here
    refine ⟨most, memMost, largest, ?_⟩
    rcases mem_keys_increment.mp mem with rfl | old
    · exact Nat.le_trans (Swap.depth_le_length swaps) (largest _ here)
    · obtain ⟨former, memFormer, _, le⟩ := depth_le depth old
      exact Nat.le_trans le (largest former (mem_keys_increment.mpr (.inr memFormer)))

end Statistics

/-! ### What was sent -/

/-- Whether the mapper inserted a swap. -/
def Event.insertsSwap : Event → Bool
  | inserted command => command.kind == .gate .swap
  | accepted _ | forwarded _ _ | flushed _ => false

/-- Whether a command was sent that does the given thing and names no logical qubit. -/
def Event.sendsUntagged (kind : CommandKind) (event : Event) : Bool :=
  event.sent?.any fun command => command.kind == kind && command.logicalTag?.isNone

namespace Log

/-- How many swaps the mapper inserted. -/
def insertedSwaps (log : List Event) : Nat := log.countP Event.insertsSwap

/-- How many commands were sent that do the given thing and name no logical qubit. -/
def untagged (kind : CommandKind) (log : List Event) : Nat := log.countP (Event.sendsUntagged kind)

/-- The swaps inserted in two logs add up. -/
lemma insertedSwaps_append (log more : List Event) :
    insertedSwaps (log ++ more) = insertedSwaps log + insertedSwaps more :=
  List.countP_append

/-- The commands without a logical qubit in two logs add up. -/
lemma untagged_append (kind : CommandKind) (log more : List Event) :
    untagged kind (log ++ more) = untagged kind log + untagged kind more :=
  List.countP_append

/-- Handling the buffer inserts no swaps. -/
lemma insertedSwaps_handled (handled : List Dispatch.Handled) :
    insertedSwaps (handled.filterMap Event.ofHandled?) = 0 := by
  rw [insertedSwaps, List.countP_eq_zero]
  intro event mem
  obtain ⟨⟨b, forwarded⟩, _, from_handled⟩ := List.mem_filterMap.mp mem
  cases forwarded with
  | none => cases from_handled
  | some command =>
    cases from_handled
    exact Bool.false_ne_true

end Log

namespace Dispatch

variable {router : Router} {state final : State} {b : Buffered} {command : Command}
  {buffer : List Buffered} {handled : List Handled}

/-- What is forwarded for an allocation or a release names the logical qubit. -/
lemma Step.tagged {next : State} (step : Step router state b (some command) next)
    (classified : b.Classified) (shuffles : command.kind = .allocate ∨ command.kind = .deallocate) :
    command.logicalTag?.isNone = false := by
  have describes := classified.describes.2
  cases step with
  | allocate => rfl
  | deallocate => rfl
  | single shape =>
    rw [shape] at describes
    rw [kind_onHardware] at shuffles
    exact (shuffles.elim describes.1 describes.2).elim
  | pair shape =>
    rw [shape] at describes
    rw [kind_onHardware] at shuffles
    exact (shuffles.elim describes.1 describes.2).elim

/-- What a pass over the buffer allocates or releases names its logical qubit. -/
lemma Pass.untagged (pass : Pass router state buffer handled final)
    (classified : ∀ b ∈ buffer, b.Classified) {kind : CommandKind}
    (shuffles : kind = .allocate ∨ kind = .deallocate) :
    Log.untagged kind (handled.filterMap Event.ofHandled?) = 0 := by
  induction pass with
  | nil => rfl
  | @cons state next final b forwarded rest handled step _ ih =>
    have later := ih fun c mem => classified c (List.mem_cons_of_mem b mem)
    cases forwarded with
    | none => exact later
    | some command =>
      change Log.untagged kind (.forwarded b command :: handled.filterMap Event.ofHandled?) = 0
      rw [Log.untagged, List.countP_cons_of_neg, ← Log.untagged, later]
      intro sends
      obtain ⟨same, none_named⟩ : command.kind = kind ∧ command.logicalTag?.isNone = true := by
        simpa [Event.sendsUntagged, Event.sent?] using sends
      rw [step.tagged (classified b List.mem_cons_self) (same ▸ shuffles)] at none_named
      cases none_named
  | @idle state rest _ =>
    rw [Log.untagged, List.countP_eq_zero]
    intro event mem
    obtain ⟨_, memHandled, from_handled⟩ := List.mem_filterMap.mp mem
    obtain ⟨b, _, rfl⟩ := List.mem_map.mp memHandled
    cases from_handled

end Dispatch

namespace Mapper

variable {mapper after : Mapper} {past log : List Event} {layout : Layout Nat}

/-- A test with the same answer everywhere passes for all or for none. -/
lemma countP_map_of_const {α β : Type} {test : β → Bool} {f : α → β} {answer : Bool}
    (const : ∀ x, test (f x) = answer) (items : List α) :
    (items.map f).countP test = if answer then items.length else 0 := by
  rw [List.countP_map, show test ∘ f = fun _ => answer from funext const]
  cases answer with
  | false => exact List.countP_eq_zero.mpr fun _ _ => Bool.false_ne_true
  | true => exact List.countP_eq_length.mpr fun _ _ => rfl

/-- Carrying out a plan inserts allocations, swaps and releases, as many as there are idle positions
before, swaps, and idle positions after. -/
lemma countP_swapEvents {test : Event → Bool} {allocates exchanges releases : Bool}
    (allocate : ∀ q, test (.inserted (.allocate q)) = allocates)
    (exchange : ∀ a b, test (.inserted (.gate .swap [a, b])) = exchanges)
    (release : ∀ q, test (.inserted (.deallocate q)) = releases) (mapper : Mapper) {swaps : List Swap}
    (some_swaps : swaps ≠ []) :
    (mapper.swapEvents swaps).countP test
      = (if allocates then (mapper.idle mapper.current).length else 0)
        + (if exchanges then swaps.length else 0)
        + if releases then (mapper.idle mapper.next).length else 0 := by
  have nonempty : ¬swaps.isEmpty = true := fun empty => some_swaps (List.isEmpty_iff.mp empty)
  rw [swapEvents, if_neg nonempty, swapCommands]
  simp only [List.map_append, List.map_map, Function.comp_def, List.countP_append]
  rw [countP_map_of_const (fun _ => allocate _), countP_map_of_const (fun _ => exchange _ _),
    countP_map_of_const (fun _ => release _)]

/-- The swaps of a plan are inserted and nothing else is a swap. -/
lemma insertedSwaps_swapEvents (mapper : Mapper) (swaps : List Swap) :
    Log.insertedSwaps (mapper.swapEvents swaps) = swaps.length := by
  by_cases empty : swaps = []
  · rw [empty]
    rfl
  · rw [Log.insertedSwaps, mapper.countP_swapEvents (fun _ => rfl) (fun _ _ => rfl) (fun _ => rfl) empty]
    exact Nat.zero_add _

/-- A step counts the swaps that it inserts. -/
lemma Step.consistent (step : mapper.Step log after)
    (consistent : mapper.statistics.Consistent (Log.insertedSwaps past)) :
    after.statistics.Consistent (Log.insertedSwaps (past ++ log)) := by
  rw [Log.insertedSwaps_append]
  cases step with
  | accept => exact consistent
  | flush => exact consistent
  | dispatch dispatched =>
    cases dispatched
    rw [Log.insertedSwaps_handled]
    exact consistent
  | remap remapped =>
    cases remapped with
    | @intro swaps =>
      rw [insertedSwaps_swapEvents]
      dsimp only
      rw [counted]
      split
      case isTrue empty =>
        rw [List.isEmpty_iff.mp empty]
        exact consistent
      case isFalse nonempty =>
        refine consistent.record fun empty => nonempty ?_
        rw [empty]
        rfl

/-! ### Idle positions -/

/-- Positions are idle or hold an allocated qubit, if all of these have one. -/
lemma length_idle (fits : layout.Fits mapper.router.numQubits)
    (housed : Dispatch.Housed layout mapper.allocated) :
    (mapper.idle layout).length + mapper.allocated.size = mapper.router.numQubits := by
  have occupied_length : (mapper.occupied layout).length = mapper.allocated.size := by
    rw [occupied, List.length_filterMap_eq_countP, OrderedSet.size, List.countP_eq_length]
    intro q mem
    obtain ⟨p, placed⟩ := housed q mem
    rw [placed]
    rfl
  have nodup : (mapper.occupied layout).Nodup := by
    refine mapper.allocated.toList_nodup.filterMap ?_
    intro q r p here there
    exact fits.consistent.inj here there
  -- the positions in use are all on the device, so they are those that idling leaves out
  have taken : (List.range mapper.router.numQubits).filter (· ∈ mapper.occupied layout)
      ~ mapper.occupied layout := by
    apply (List.perm_ext_iff_of_nodup (List.nodup_range.filter _) nodup).mpr
    intro p
    rw [List.mem_filter, List.mem_range, decide_eq_true_iff]
    refine and_iff_right_of_imp fun mem => ?_
    obtain ⟨q, _, placed⟩ := List.mem_filterMap.mp mem
    exact fits.lt placed
  have split := (List.range mapper.router.numQubits).length_eq_length_filter_add
    (fun p => decide (p ∉ mapper.occupied layout))
  simp only [decide_not, Bool.not_not] at split
  rw [taken.length_eq, occupied_length, List.length_range] at split
  rw [idle]
  simp only [decide_not]
  exact split.symm

/-- If as many positions are idle before and after, as many are allocated as are released. -/
lemma untagged_swapEvents
    (same : (mapper.idle mapper.current).length = (mapper.idle mapper.next).length) (swaps : List Swap) :
    Log.untagged .allocate (mapper.swapEvents swaps) = Log.untagged .deallocate (mapper.swapEvents swaps) := by
  by_cases empty : swaps = []
  · rw [empty]
    rfl
  · rw [Log.untagged, mapper.countP_swapEvents (fun _ => rfl) (fun _ _ => rfl) (fun _ => rfl) empty,
      Log.untagged, mapper.countP_swapEvents (fun _ => rfl) (fun _ _ => rfl) (fun _ => rfl) empty, same]
    exact (Nat.add_zero _).trans (Nat.zero_add _).symm

/-- What is allocated without a logical qubit is released again. -/
structure Balanced (past : List Event) (mapper : Mapper) : Prop where
  tracked : Tracked past mapper
  even : Log.untagged .allocate past = Log.untagged .deallocate past

/-- After one more step, what is allocated without a logical qubit is released again. -/
lemma Balanced.step (sound : mapper.Sound) (wf : Stream.WellFormed (Log.accepted (past ++ log)))
    (balanced : Balanced past mapper) (step : mapper.Step log after) : Balanced (past ++ log) after := by
  have tracked := balanced.tracked
  refine ⟨tracked.step sound wf step, ?_⟩
  rw [Log.untagged_append, Log.untagged_append, balanced.even]
  congr 1
  cases step with
  | accept => rfl
  | flush flush =>
    rw [Command.isFlush, beq_iff_eq] at flush
    simp [Log.untagged, Event.sendsUntagged, Event.sent?, flush]
  | dispatch dispatched =>
    cases dispatched with
    | intro _ pass =>
      rw [pass.untagged tracked.classified (.inl rfl), pass.untagged tracked.classified (.inr rfl)]
  | remap remapped =>
    cases remapped with
    | @intro swaps =>
      rw [Log.accepted_append] at wf
      have housed := tracked.housed_next sound (wf.of_prefix (List.prefix_append _ _))
      have before := length_idle sound.fits_current tracked.housed
      have fits : mapper.next.Fits mapper.router.numQubits := sound.valid.regular.fits_next _
      have later := length_idle fits housed
      exact untagged_swapEvents (by omega) swaps

/-- A fresh mapper has allocated nothing. -/
lemma Fresh.balanced (fresh : mapper.Fresh) (layout : Option (Layout Nat)) :
    Balanced [] { mapper with layout } :=
  ⟨fresh.tracked layout, rfl⟩

/-- Calls that bring no command at most install a layout. -/
lemma session_early (fresh : mapper.Fresh) {early : List Call}
    (idle : ∀ commands, Call.receive commands ∈ early → commands = []) :
    ∃ layout, (mapper.session early).mapper = { mapper with layout } ∧ (mapper.session early).log = [] := by
  induction early using List.reverseRecOn with
  | nil => exact ⟨mapper.layout, rfl, rfl⟩
  | append_singleton early last ih =>
    obtain ⟨layout, same, empty⟩ := ih fun commands mem => idle commands (List.mem_append_left _ mem)
    rw [session_concat, Session.call, same, empty]
    cases last with
    | receive commands =>
      obtain rfl := idle commands (List.mem_append_right _ (List.mem_singleton_self _))
      have nothing : ({ mapper with layout } : Mapper).receive [] = { mapper := { mapper with layout } } := by
        rw [receive, roundIfFull, fresh.buffer_eq]
        rfl
      rw [Mapper.call, nothing]
      exact ⟨layout, rfl, rfl⟩
    | install given =>
      rw [Mapper.call]
      cases installed : ({ mapper with layout } : Mapper).setLayout given with
      | error error => exact ⟨layout, rfl, rfl⟩
      | ok after =>
        obtain ⟨positions, rfl⟩ := eq_of_setLayout installed
        exact ⟨some positions, rfl, rfl⟩

end Mapper

/-- Whatever is asked of a mapper, its statistics are consistent and count the swaps that it inserted. If
layouts are installed before the first command only and the commands taken in form a well-formed stream,
it releases as many positions without a logical qubit as it allocates. -/
theorem session_statistics {mapper : Mapper} (fresh : mapper.Fresh) (unused : mapper.statistics = {})
    (calls : List Call) {session : Session} (now : session = mapper.session calls) :
    session.mapper.statistics.Consistent (Log.insertedSwaps session.log) ∧
    ∀ (early : List Call) (batches : List (List Command)), calls = early ++ batches.map .receive →
      (∀ commands, Call.receive commands ∈ early → commands = []) →
      Stream.WellFormed (Log.accepted session.log) →
        Log.untagged .allocate session.log = Log.untagged .deallocate session.log := by
  subst now
  constructor
  · have start : mapper.statistics.Consistent (Log.insertedSwaps []) := by
      rw [unused]
      exact Statistics.consistent_start
    refine (Mapper.session_keeps (fun past mapper => mapper.statistics.Consistent (Log.insertedSwaps past))
      ?_ id fresh.sound start calls).2
    intro past log mapper after _ consistent step
    exact step.consistent consistent
  · rintro early batches rfl idle wf
    obtain ⟨layout, start, empty⟩ := Mapper.session_early fresh idle
    obtain ⟨sound, _⟩ := Mapper.session_keeps (fun _ _ => True) (fun _ _ _ => trivial) (fun _ => trivial)
      fresh.sound trivial early
    obtain ⟨log, eq, run⟩ := Mapper.steps_receives _ sound batches
    rw [empty, List.nil_append] at eq
    rw [eq] at wf ⊢
    rw [start] at run sound
    exact (run.keeps_of_wellFormed Mapper.Balanced Mapper.Balanced.step sound (fresh.balanced layout) wf).even

/-- A layout is installed, a call fails, two swaps are inserted, and a third one is forwarded. -/
theorem session_statistics_after_failure :
    ∃ session : Session,
      session = Mapper.session { router := .chain ⟨3, false⟩, storage := 2 }
        ([.receive [], .install (.ofPairs [(⟨7⟩, ⟨2⟩), (⟨8⟩, ⟨0⟩)])] ++
          [[.allocate ⟨7⟩, .allocate ⟨8⟩, .gate .x []], [.gate .cx [⟨7⟩, ⟨8⟩], .flush],
            [.allocate ⟨9⟩, .deallocate ⟨8⟩, .gate .swap [⟨7⟩, ⟨9⟩], .measure ⟨9⟩, .flush]].map .receive) ∧
      session.failures.length = 1 ∧ Stream.WellFormed (Log.accepted session.log) ∧
      session.mapper.statistics.Consistent 2 ∧ Log.untagged .allocate session.log = 1 ∧
      Log.untagged .allocate session.log = Log.untagged .deallocate session.log := by
  have built : (Config.linear { numQubits := 3, storage := 2 }).mapper
      = .ok { router := .chain ⟨3, false⟩, storage := 2 } := rfl
  obtain ⟨consistent, even⟩ := session_statistics (Config.fresh_mapper built) rfl
    ([.receive [], .install (.ofPairs [(⟨7⟩, ⟨2⟩), (⟨8⟩, ⟨0⟩)])] ++
      [[.allocate ⟨7⟩, .allocate ⟨8⟩, .gate .x []], [.gate .cx [⟨7⟩, ⟨8⟩], .flush],
        [.allocate ⟨9⟩, .deallocate ⟨8⟩, .gate .swap [⟨7⟩, ⟨9⟩], .measure ⟨9⟩, .flush]].map .receive) rfl
  refine ⟨_, rfl, by decide, by decide, consistent, by decide, ?_⟩
  refine even _ _ rfl ?_ (by decide)
  intro commands mem
  rcases List.mem_cons.mp mem with same | mem
  · cases same
    rfl
  · cases List.mem_singleton.mp mem

end QubitRouting
