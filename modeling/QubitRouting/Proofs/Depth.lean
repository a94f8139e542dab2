import Mathlib.Tactic
import QubitRouting.Proofs.Collections
import QubitRouting.Swap

/-!
# Layers of swaps

A list of swaps can be put in layers if, of any two swaps with a common position, the earlier one gets
the lower layer. Layers can be stacked, and lists of swaps without common positions can share them. The
depth of a list is the least number of layers that it can be put in. It is also the length of the longest
chain, a subsequence in which every swap has a position in common with the next one.
-/

namespace QubitRouting.Swap

variable {swaps more : List Swap} {count extra : Nat}

/-- Two swaps have a position in common. -/
def Meets (a b : Swap) : Prop := a.1 = b.1 ∨ a.1 = b.2 ∨ a.2 = b.1 ∨ a.2 = b.2

/-- Swaps with the layers they are put in, numbered from zero. -/
structure Layering (count : Nat) (placed : List (Swap × Nat)) : Prop where
  lt : ∀ entry ∈ placed, entry.2 < count
  ascending : placed.Pairwise fun a b => Meets a.1 b.1 → a.2 < b.2

/-- The swaps can be put in so many layers. -/
def Layered (count : Nat) (swaps : List Swap) : Prop :=
  ∃ placed : List (Swap × Nat), placed.map Prod.fst = swaps ∧ Layering count placed

/-- No swaps take no layers. -/
lemma layered_nil : Layered 0 [] := ⟨[], rfl, by simp, .nil⟩

/-- Swaps without common positions fit one layer. -/
lemma layered_one (apart : swaps.Pairwise fun a b => ¬Meets a b) : Layered 1 swaps := by
  refine ⟨swaps.map (·, 0), ?_, ?_, ?_⟩
  · rw [List.map_map]
    exact List.map_id swaps
  · intro entry mem
    obtain ⟨swap, _, rfl⟩ := List.mem_map.mp mem
    exact Nat.one_pos
  · exact List.pairwise_map.mpr (apart.imp fun distinct meets => absurd meets distinct)

/-- Layers can be stacked. -/
lemma Layered.append (first : Layered count swaps) (second : Layered extra more) :
    Layered (count + extra) (swaps ++ more) := by
  obtain ⟨placed, rfl, lower⟩ := first
  obtain ⟨placed', rfl, upper⟩ := second
  refine ⟨placed ++ placed'.map (fun entry => (entry.1, count + entry.2)), ?_, ?_, ?_⟩
  · rw [List.map_append, List.map_map]
    rfl
  · intro entry mem
    rcases List.mem_append.mp mem with mem | mem
    · exact Nat.lt_add_right extra (lower.lt entry mem)
    · obtain ⟨raised, inUpper, rfl⟩ := List.mem_map.mp mem
      exact Nat.add_lt_add_left (upper.lt raised inUpper) count
  · refine List.pairwise_append.mpr ⟨lower.ascending, List.pairwise_map.mpr ?_, ?_⟩
    · exact upper.ascending.imp fun ascends meets => Nat.add_lt_add_left (ascends meets) count
    · intro entry mem _ mem' _
      obtain ⟨raised, _, rfl⟩ := List.mem_map.mp mem'
      exact Nat.lt_add_right raised.2 (lower.lt entry mem)

/-- Swaps can also be put in more layers. -/
lemma Layered.mono (layered : Layered count swaps) (le : count ≤ extra) : Layered extra swaps := by
  obtain ⟨placed, rfl, layering⟩ := layered
  exact ⟨placed, rfl, fun entry mem => (layering.lt entry mem).trans_le le, layering.ascending⟩

/-- Swaps without common positions can share layers, though they are listed one after the other. -/
lemma Layered.beside (first : Layered count swaps) (second : Layered count more)
    (apart : ∀ a ∈ swaps, ∀ b ∈ more, ¬Meets a b) : Layered count (swaps ++ more) := by
  obtain ⟨placed, rfl, left⟩ := first
  obtain ⟨placed', rfl, right⟩ := second
  refine ⟨placed ++ placed', List.map_append, ?_, ?_⟩
  · intro entry mem
    rcases List.mem_append.mp mem with mem | mem
    · exact left.lt entry mem
    · exact right.lt entry mem
  · refine List.pairwise_append.mpr ⟨left.ascending, right.ascending, ?_⟩
    intro a memA b memB meets
    exact absurd meets (apart a.1 (List.mem_map_of_mem memA) b.1 (List.mem_map_of_mem memB))

/-- Renumbering the positions one to one keeps the layers. -/
lemma Layered.map {f : Nat → Nat} (layered : Layered count swaps) (positions : Set Nat)
    (within : ∀ swap ∈ swaps, swap.1 ∈ positions ∧ swap.2 ∈ positions) (inj : Set.InjOn f positions) :
    Layered count (swaps.map (Prod.map f f)) := by
  obtain ⟨placed, rfl, layering⟩ := layered
  refine ⟨placed.map (Prod.map (Prod.map f f) id), ?_, ?_, ?_⟩
  · rw [List.map_map, List.map_map]
    rfl
  · intro entry mem
    obtain ⟨former, memFormer, rfl⟩ := List.mem_map.mp mem
    exact layering.lt former memFormer
  · refine List.pairwise_map.mpr (layering.ascending.imp_of_mem ?_)
    intro a b memA memB ascends meets
    obtain ⟨firstA, secondA⟩ := within a.1 (List.mem_map_of_mem memA)
    obtain ⟨firstB, secondB⟩ := within b.1 (List.mem_map_of_mem memB)
    apply ascends
    rcases meets with same | same | same | same
    · exact .inl (inj firstA firstB same)
    · exact .inr (.inl (inj firstA secondB same))
    · exact .inr (.inr (.inl (inj secondA firstB same)))
    · exact .inr (.inr (.inr (inj secondA secondB same)))

/-! ### The schedule needs no more layers -/

/-- The layer of the last swap on a position, counted from one. -/
def Schedule.last (schedule : Schedule) (p : Nat) : Nat := (schedule.layers.find? p).getD 0

/-- A swap that is added is the last one on its two positions, one layer above the later of the
former last ones. -/
lemma Schedule.last_add (schedule : Schedule) (swap : Swap) (p : Nat) :
    (schedule.add swap).last p =
      if p = swap.1 ∨ p = swap.2 then max (schedule.last swap.1) (schedule.last swap.2) + 1
      else schedule.last p := by
  rw [last, add]
  by_cases second : p = swap.2
  · rw [if_pos (.inr second), second, OrderedMap.find?_insert_self]
    rfl
  · rw [OrderedMap.find?_insert_of_ne (Ne.symm second)]
    by_cases first : p = swap.1
    · rw [if_pos (.inl first), first, OrderedMap.find?_insert_self]
      rfl
    · rw [OrderedMap.find?_insert_of_ne (Ne.symm first), if_neg (not_or.mpr ⟨first, second⟩)]
      rfl

/-- A schedule grows as deep as the layer of the swap that is added, unless it was deeper. -/
lemma Schedule.depth_add (schedule : Schedule) (swap : Swap) :
    (schedule.add swap).depth
      = max schedule.depth (max (schedule.last swap.1) (schedule.last swap.2) + 1) :=
  rfl

/-- A schedule is not ahead of the layers of the swaps to come. -/
def Schedule.Behind (schedule : Schedule) (placed : List (Swap × Nat)) : Prop :=
  ∀ entry ∈ placed, schedule.last entry.1.1 ≤ entry.2 ∧ schedule.last entry.1.2 ≤ entry.2

/-- Adding a swap puts the schedule ahead of no swap that meets it, as those have higher layers. -/
lemma Schedule.Behind.add {schedule : Schedule} {entry : Swap × Nat} {rest : List (Swap × Nat)}
    (behind : schedule.Behind (entry :: rest))
    (ascending : ∀ later ∈ rest, Meets entry.1 later.1 → entry.2 < later.2) :
    (schedule.add entry.1).Behind rest := by
  obtain ⟨first, second⟩ := behind entry List.mem_cons_self
  intro later mem
  obtain ⟨left, right⟩ := behind later (List.mem_cons_of_mem entry mem)
  have higher := ascending later mem
  rw [last_add, last_add]
  constructor
  · split
    · next same =>
      have := higher (same.elim (fun same => .inl same.symm) fun same => .inr (.inr (.inl same.symm)))
      omega
    · exact left
  · split
    · next same =>
      have := higher (same.elim (fun same => .inr (.inl same.symm)) fun same => .inr (.inr (.inr same.symm)))
      omega
    · exact right

/-- A schedule that is not ahead of a layering does not get deeper than it has layers. -/
lemma Layering.depth_foldl_le {placed : List (Swap × Nat)} (layering : Layering count placed)
    {schedule : Schedule} (behind : schedule.Behind placed) (depth_le : schedule.depth ≤ count) :
    ((placed.map Prod.fst).foldl Schedule.add schedule).depth ≤ count := by
  induction placed generalizing schedule with
  | nil => exact depth_le
  | cons entry rest ih =>
    obtain ⟨ascending, ascendingRest⟩ := List.pairwise_cons.mp layering.ascending
    refine ih ⟨fun later mem => layering.lt later (List.mem_cons_of_mem entry mem), ascendingRest⟩
      (behind.add ascending) ?_
    obtain ⟨first, second⟩ := behind entry List.mem_cons_self
    have lt := layering.lt entry List.mem_cons_self
    rw [Schedule.depth_add]
    omega

/-- The depth is at most the number of layers that the swaps can be put in. -/
lemma Layered.depth_le (layered : Layered count swaps) : depth swaps ≤ count := by
  obtain ⟨placed, rfl, layering⟩ := layered
  refine layering.depth_foldl_le ?_ (Nat.zero_le count)
  exact fun entry _ => ⟨Nat.zero_le _, Nat.zero_le _⟩

/-! ### The layers of the schedule -/

/-- Adding a swap takes no position back to an earlier layer. -/
lemma Schedule.last_le_last_add (schedule : Schedule) (swap : Swap) (p : Nat) :
    schedule.last p ≤ (schedule.add swap).last p := by
  rw [last_add]
  split
  · next same =>
    rcases same with rfl | rfl
    · exact (le_max_left _ _).trans (Nat.le_succ _)
    · exact (le_max_right _ _).trans (Nat.le_succ _)
  · exact le_refl _

/-- A schedule puts the swaps added so far in its layers, none of them above the last layer on one of its
positions. -/
structure Schedule.Places (schedule : Schedule) (placed : List (Swap × Nat)) : Prop where
  layering : Layering schedule.depth placed
  lt_last : ∀ entry ∈ placed, entry.2 < schedule.last entry.1.1 ∧ entry.2 < schedule.last entry.1.2

/-- The next swap gets the first layer above those of the swaps that it meets. -/
lemma Schedule.Places.add {schedule : Schedule} {placed : List (Swap × Nat)} (places : schedule.Places placed)
    (swap : Swap) : (schedule.add swap).Places
      (placed ++ [(swap, max (schedule.last swap.1) (schedule.last swap.2))]) := by
  refine ⟨⟨?_, ?_⟩, ?_⟩
  · rw [depth_add]
    intro entry mem
    rcases List.mem_append.mp mem with mem | mem
    · exact (places.layering.lt entry mem).trans_le (le_max_left _ _)
    · obtain rfl := List.mem_singleton.mp mem
      exact (Nat.lt_succ_self _).trans_le (le_max_right _ _)
  · refine List.pairwise_append.mpr ⟨places.layering.ascending, List.pairwise_singleton _ _, ?_⟩
    -- a swap that meets the new one is on one of its positions, and not above the last layer there
    intro entry mem _ last meets
    obtain rfl := List.mem_singleton.mp last
    obtain ⟨first, second⟩ := places.lt_last entry mem
    rcases meets with same | same | same | same
    · exact lt_max_of_lt_left (same ▸ first)
    · exact lt_max_of_lt_right (same ▸ first)
    · exact lt_max_of_lt_left (same ▸ second)
    · exact lt_max_of_lt_right (same ▸ second)
  · intro entry mem
    rcases List.mem_append.mp mem with mem | mem
    · obtain ⟨first, second⟩ := places.lt_last entry mem
      exact ⟨first.trans_le (last_le_last_add _ _ _), second.trans_le (last_le_last_add _ _ _)⟩
    · obtain rfl := List.mem_singleton.mp mem
      rw [last_add, if_pos (.inl rfl), last_add, if_pos (.inr rfl)]
      exact ⟨Nat.lt_succ_self _, Nat.lt_succ_self _⟩

/-- A schedule of swaps puts them in its layers. -/
lemma exists_places (swaps : List Swap) :
    ∃ placed, placed.map Prod.fst = swaps ∧ (swaps.foldl Schedule.add {}).Places placed := by
  induction swaps using List.reverseRecOn with
  | nil => exact ⟨[], rfl, ⟨by simp, .nil⟩, by simp⟩
  | append_singleton swaps swap ih =>
    obtain ⟨placed, same, places⟩ := ih
    rw [List.foldl_concat]
    refine ⟨_, ?_, places.add swap⟩
    rw [List.map_append, same]
    rfl

/-- The swaps can be put in as many layers as the depth says. -/
lemma layered_depth (swaps : List Swap) : Layered (depth swaps) swaps := by
  obtain ⟨placed, same, places⟩ := exists_places swaps
  exact ⟨placed, same, places.layering⟩

/-! ### Chains of swaps -/

/-- A subsequence in which every swap meets the next one. -/
structure Chained (swaps chain : List Swap) : Prop where
  sublist : chain.Sublist swaps
  meets : chain.IsChain Meets

/-- A chain stays one when more swaps follow. -/
lemma Chained.append {chain : List Swap} (chained : Chained swaps chain) (more : List Swap) :
    Chained (swaps ++ more) chain :=
  ⟨chained.sublist.trans (List.sublist_append_left _ _), chained.meets⟩

/-- A chain goes on with a later swap that its last one meets. -/
lemma Chained.concat {before : List Swap} {last swap : Swap} (chained : Chained swaps (before ++ [last]))
    (meets : Meets last swap) : Chained (swaps ++ [swap]) (before ++ [last] ++ [swap]) := by
  refine ⟨chained.sublist.append (List.Sublist.refl _), ?_⟩
  refine List.isChain_append.mpr ⟨chained.meets, List.isChain_singleton _, ?_⟩
  rintro _ isLast _ ⟨⟩
  rw [List.getLast?_concat] at isLast
  cases isLast
  exact meets

/-- The layers ascend along a chain. -/
lemma Layering.add_length_lt {entry : Swap × Nat} {rest : List (Swap × Nat)}
    (layering : Layering count (entry :: rest)) (meets : ((entry :: rest).map Prod.fst).IsChain Meets) :
    entry.2 + rest.length < count := by
  induction rest generalizing entry with
  | nil => exact layering.lt entry List.mem_cons_self
  | cons next rest ih =>
    obtain ⟨first, meets⟩ := List.isChain_cons_cons.mp meets
    obtain ⟨ascends, ascending⟩ := List.pairwise_cons.mp layering.ascending
    have higher : entry.2 < next.2 := ascends next List.mem_cons_self first
    have room := ih ⟨fun later mem => layering.lt later (List.mem_cons_of_mem entry mem), ascending⟩ meets
    rw [List.length_cons]
    omega

/-- No chain is longer than the number of layers that the swaps can be put in. -/
lemma Layered.length_le {chain : List Swap} (layered : Layered count swaps) (chained : Chained swaps chain) :
    chain.length ≤ count := by
  obtain ⟨placed, rfl, layering⟩ := layered
  obtain ⟨entries, part, rfl⟩ := List.sublist_map_iff.mp chained.sublist
  cases entries with
  | nil => exact Nat.zero_le count
  | cons entry rest =>
    have layered : Layering count (entry :: rest) :=
      ⟨fun later mem => layering.lt later (part.subset mem), layering.ascending.sublist part⟩
    have room := layered.add_length_lt chained.meets
    rw [List.length_map, List.length_cons]
    omega

/-- Every layer of a schedule is reached by a chain: the last layer on a position by one that ends there. -/
structure Schedule.Attained (schedule : Schedule) (swaps : List Swap) : Prop where
  last : ∀ p, schedule.last p ≠ 0 → ∃ before swap, Chained swaps (before ++ [swap]) ∧
    (p = swap.1 ∨ p = swap.2) ∧ before.length + 1 = schedule.last p
  depth : ∃ chain, Chained swaps chain ∧ chain.length = schedule.depth

/-- The longer one of the chains on the positions of the next swap goes on with it. -/
lemma Schedule.Attained.exists_concat {schedule : Schedule} (attained : schedule.Attained swaps) (swap : Swap) :
    ∃ before, Chained (swaps ++ [swap]) (before ++ [swap]) ∧
      before.length = max (schedule.last swap.1) (schedule.last swap.2) := by
  obtain ⟨p, onSwap, longest⟩ : ∃ p, (p = swap.1 ∨ p = swap.2) ∧
      max (schedule.last swap.1) (schedule.last swap.2) = schedule.last p := by
    rcases le_total (schedule.last swap.1) (schedule.last swap.2) with le | le
    · exact ⟨swap.2, .inr rfl, max_eq_right le⟩
    · exact ⟨swap.1, .inl rfl, max_eq_left le⟩
  rw [longest]
  by_cases unused : schedule.last p = 0
  · exact ⟨[], ⟨List.sublist_append_right _ _, List.isChain_singleton _⟩, unused.symm⟩
  · obtain ⟨before, last, chained, onLast, length⟩ := attained.last p unused
    refine ⟨before ++ [last], chained.concat ?_, ?_⟩
    · rcases onLast with rfl | rfl
      · exact onSwap.imp id .inl
      · exact .inr (.inr onSwap)
    · rw [List.length_append, List.length_singleton, length]

/-- With one more swap every layer is still reached by a chain. -/
lemma Schedule.Attained.add {schedule : Schedule} (attained : schedule.Attained swaps) (swap : Swap) :
    (schedule.add swap).Attained (swaps ++ [swap]) := by
  obtain ⟨before, chained, length⟩ := attained.exists_concat swap
  constructor
  · intro p used
    rw [last_add] at used ⊢
    split at used
    · next onSwap =>
      rw [if_pos onSwap]
      exact ⟨before, swap, chained, onSwap, by rw [length]⟩
    · next elsewhere =>
      rw [if_neg elsewhere]
      obtain ⟨before, last, chained, onLast, length⟩ := attained.last p used
      exact ⟨before, last, chained.append _, onLast, length⟩
  · rw [depth_add]
    rcases le_total schedule.depth (max (schedule.last swap.1) (schedule.last swap.2) + 1) with le | le
    · refine ⟨before ++ [swap], chained, ?_⟩
      rw [List.length_append, List.length_singleton, length, max_eq_right le]
    · obtain ⟨chain, chained, length⟩ := attained.depth
      exact ⟨chain, chained.append _, by rw [length, max_eq_left le]⟩

/-- Every layer of a schedule of swaps is reached by a chain. -/
lemma attained_foldl (swaps : List Swap) : (swaps.foldl Schedule.add {}).Attained swaps := by
  induction swaps using List.reverseRecOn with
  | nil => exact ⟨fun p used => absurd rfl used, [], ⟨.slnil, .nil⟩, rfl⟩
  | append_singleton swaps swap ih =>
    rw [List.foldl_concat]
    exact ih.add swap

/-- Some chain is as long as the depth says. -/
lemma exists_chained (swaps : List Swap) : ∃ chain, Chained swaps chain ∧ chain.length = depth swaps :=
  (attained_foldl swaps).depth

/-- The depth of a list of swaps is the length of its longest chain, and the least number of layers that the
swaps can be put in. So it is at most the number of swaps, it does not shrink if swaps are appended, and
swaps that are appended add at most their own depth. -/
theorem depth_isGreatest_isLeast (swaps : List Swap) :
    IsGreatest { length | ∃ chain, Chained swaps chain ∧ chain.length = length } (depth swaps) ∧
    IsLeast { count | Layered count swaps } (depth swaps) ∧
    depth swaps ≤ swaps.length ∧
    ∀ more, depth swaps ≤ depth (swaps ++ more) ∧ depth (swaps ++ more) ≤ depth swaps + depth more := by
  obtain ⟨chain, chained, length⟩ := exists_chained swaps
  refine ⟨⟨⟨chain, chained, length⟩, ?_⟩, ⟨layered_depth swaps, ?_⟩, ?_, ?_⟩
  · rintro _ ⟨other, chained, rfl⟩
    exact (layered_depth swaps).length_le chained
  · exact fun count layered => Layered.depth_le layered
  · exact length ▸ chained.sublist.length_le
  · intro more
    constructor
    · exact length ▸ (layered_depth (swaps ++ more)).length_le (chained.append more)
    · exact ((layered_depth swaps).append (layered_depth more)).depth_le

/-- A swap of a position with itself takes a layer like any other. -/
example : depth [(0, 1), (2, 3), (4, 4), (1, 2), (4, 4), (4, 4)] = 3 := by decide

end QubitRouting.Swap
