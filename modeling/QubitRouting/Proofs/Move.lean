import Mathlib.Data.List.Nodup
import QubitRouting.Move
import QubitRouting.Proofs.OddEven

/-!
# Moves between layouts are permutations

The targets of a move name every position once, and a position whose qubit stays in the layout is sent
to where that qubit has to go. Sorting the positions by their targets therefore carries every shared
qubit to its new position.
-/

namespace QubitRouting.Move

variable {n : Nat} {old new : Layout Nat}

/-- Swaps carry one layout to another if every qubit of both ends up where the second one has it. -/
def Carries (swaps : List Swap) (old new : Layout Nat) : Prop :=
  ∀ {q p t}, old.position? q = some p → new.position? q = some t → Swap.perm swaps p = t

/-- Swaps that carry one layout to another take every shared qubit to its new position. -/
lemma Carries.position?_applySwaps {swaps : List Swap} {old new : Layout Nat}
    (carries : Carries swaps old new) (consistent : old.Consistent) {q : QubitId} {p t : Nat}
    (here : old.position? q = some p) (there : new.position? q = some t) :
    (old.applySwaps swaps).position? q = some t := by
  rw [Layout.position?_applySwaps consistent, here, Option.map_some, carries here there]

/-- Filling the gaps leaves the given targets. -/
lemma getElem?_fill {slots : List (Option Nat)} {free : List Nat}
    (enough : slots.countP Option.isNone ≤ free.length) {p t : Nat} (given : slots[p]? = some (some t)) :
    (fill slots free)[p]? = some t := by
  induction slots generalizing free p with
  | nil => simp at given
  | cons slot rest ih =>
    cases slot with
    | some target =>
      rw [fill]
      cases p with
      | zero => simpa using given
      | succ p => exact ih (by simpa using enough) (by simpa using given)
    | none =>
      cases free with
      | nil => simp at enough
      | cons target free =>
        rw [fill]
        cases p with
        | zero => simp at given
        | succ p => exact ih (by simpa using enough) (by simpa using given)

/-- A gap is filled with a free target. -/
lemma mem_of_getElem?_fill {slots : List (Option Nat)} {free : List Nat}
    (enough : slots.countP Option.isNone ≤ free.length) {p t : Nat} (gap : slots[p]? = some none)
    (filled : (fill slots free)[p]? = some t) : t ∈ free := by
  induction slots generalizing free p with
  | nil => simp at gap
  | cons slot rest ih =>
    cases slot with
    | some target =>
      cases p with
      | zero => simp at gap
      | succ p => exact ih (by simpa using enough) (by simpa using gap) (by simpa [fill] using filled)
    | none =>
      cases free with
      | nil => simp at enough
      | cons target free =>
        cases p with
        | zero =>
          obtain rfl : target = t := by simpa [fill] using filled
          exact List.mem_cons_self
        | succ p =>
          exact List.mem_cons_of_mem target
            (ih (by simpa using enough) (by simpa using gap) (by simpa [fill] using filled))

/-- The gaps are filled in ascending order. -/
lemma fill_ascending {slots : List (Option Nat)} {free : List Nat} (ascending : free.Pairwise (· < ·))
    (enough : slots.countP Option.isNone ≤ free.length) {p p' t t' : Nat} (less : p < p')
    (gap : slots[p]? = some none) (gap' : slots[p']? = some none)
    (filled : (fill slots free)[p]? = some t) (filled' : (fill slots free)[p']? = some t') : t < t' := by
  obtain ⟨k, rfl⟩ : ∃ k, p' = k + 1 := ⟨p' - 1, by omega⟩
  induction slots generalizing free p k with
  | nil => simp at gap
  | cons slot rest ih =>
    rw [List.getElem?_cons_succ] at gap'
    cases slot with
    | some target =>
      rw [fill, List.getElem?_cons_succ] at filled'
      cases p with
      | zero => simp at gap
      | succ p =>
        obtain ⟨j, rfl⟩ : ∃ j, k = j + 1 := ⟨k - 1, by omega⟩
        exact ih ascending (by simpa using enough) (by simpa using gap) (by simpa [fill] using filled) j
          (by omega) gap' filled'
    | none =>
      cases free with
      | nil => simp at enough
      | cons target free =>
        obtain ⟨least, ascending⟩ := List.pairwise_cons.mp ascending
        rw [fill, List.getElem?_cons_succ] at filled'
        cases p with
        | zero =>
          -- the first gap gets the least of the free targets
          obtain rfl : target = t := by simpa [fill] using filled
          exact least t' (mem_of_getElem?_fill (by simpa using enough) gap' filled')
        | succ p =>
          obtain ⟨j, rfl⟩ : ∃ j, k = j + 1 := ⟨k - 1, by omega⟩
          exact ih ascending (by simpa using enough) (by simpa using gap) (by simpa [fill] using filled) j
            (by omega) gap' filled'

/-- Filling the gaps uses every free target once. -/
lemma fill_perm {slots : List (Option Nat)} {free : List Nat}
    (enough : slots.countP Option.isNone = free.length) :
    (fill slots free).Perm (slots.filterMap id ++ free) := by
  induction slots generalizing free with
  | nil =>
    rw [List.countP_nil] at enough
    rw [List.eq_nil_of_length_eq_zero enough.symm]
    rfl
  | cons slot rest ih =>
    cases slot with
    | some target =>
      rw [fill]
      exact (ih (by simpa using enough)).cons target
    | none =>
      cases free with
      | nil => simp at enough
      | cons target free =>
        rw [fill]
        refine ((ih (by simpa using enough)).cons target).trans ?_
        exact List.perm_middle.symm

/-- The targets that the shared qubits ask for. -/
def asked (n : Nat) (old new : Layout Nat) : List (Option Nat) :=
  (List.range n).map fun p => (old.occupant? p).bind new.position?

/-- The target asked for at a position is the new position of its qubit. -/
lemma getElem?_asked {p t : Nat} (lt : p < n) :
    (asked n old new)[p]? = some (some t) ↔
      ∃ q, old.occupant? p = some q ∧ new.position? q = some t := by
  simp [asked, lt, Option.bind_eq_some_iff]

/-- No target is asked for twice. -/
lemma asked_nodup (oldOk : old.Consistent) (newOk : new.Consistent) :
    ((asked n old new).filterMap id).Nodup := by
  rw [asked, List.filterMap_map]
  refine List.Nodup.filterMap ?_ List.nodup_range
  intro p p' t here there
  obtain ⟨q, atP, toT⟩ := Option.bind_eq_some_iff.mp here
  obtain ⟨q', atP', toT'⟩ := Option.bind_eq_some_iff.mp there
  obtain rfl := newOk.inj toT toT'
  have placed := (oldOk q p).mpr atP
  have placed' := (oldOk q p').mpr atP'
  exact Option.some.inj (placed.symm.trans placed')

/-- The targets asked for and the others are all positions. -/
lemma asked_append_perm (oldOk : old.Consistent) (newFits : new.Fits n) :
    ((asked n old new).filterMap id ++
      (List.range n).filter (· ∉ (asked n old new).filterMap id)).Perm (List.range n) := by
  have sub : ∀ t ∈ (asked n old new).filterMap id, t ∈ List.range n := by
    intro t mem
    obtain ⟨slot, mem, rfl⟩ := List.mem_filterMap.mp mem
    obtain ⟨p, _, here⟩ := List.mem_map.mp mem
    obtain ⟨q, _, toT⟩ := Option.bind_eq_some_iff.mp here
    exact List.mem_range.mpr (newFits.lt toT)
  have same : ((asked n old new).filterMap id).Perm
      ((List.range n).filter (· ∈ (asked n old new).filterMap id)) := by
    rw [List.perm_ext_iff_of_nodup (asked_nodup oldOk newFits.consistent)
      (List.nodup_range.filter _)]
    intro t
    rw [List.mem_filter, decide_eq_true_iff]
    exact ⟨fun mem => ⟨sub t mem, mem⟩, And.right⟩
  have split := List.filter_append_perm (fun t => decide (t ∈ (asked n old new).filterMap id))
    (List.range n)
  refine (same.append_right _).trans ?_
  simpa only [decide_not] using split

/-- There are as many gaps as targets that nobody asks for. -/
lemma countP_asked (oldOk : old.Consistent) (newFits : new.Fits n) :
    (asked n old new).countP Option.isNone =
      ((List.range n).filter (· ∉ (asked n old new).filterMap id)).length := by
  have total := (asked_append_perm oldOk newFits).length_eq
  rw [List.length_append, List.length_range] at total
  have parts : ((asked n old new).filterMap id).length + (asked n old new).countP Option.isNone
      = (asked n old new).length := by
    generalize asked n old new = slots
    induction slots with
    | nil => rfl
    | cons slot rest ih =>
      cases slot <;> simp at ih ⊢ <;> omega
  have : (asked n old new).length = n := by simp [asked]
  omega

/-- The targets of a move are all positions in some order. -/
lemma targets_perm (oldOk : old.Consistent) (newFits : new.Fits n) :
    (targets n old new).Perm (List.range n) :=
  (fill_perm (countP_asked oldOk newFits)).trans (asked_append_perm oldOk newFits)

/-- The position of a shared qubit is sent to the new position of that qubit. -/
lemma getElem?_targets (oldFits : old.Fits n) (newFits : new.Fits n) {q : QubitId} {p t : Nat}
    (here : old.position? q = some p) (there : new.position? q = some t) :
    (targets n old new)[p]? = some t := by
  refine getElem?_fill (Nat.le_of_eq (countP_asked oldFits.consistent newFits)) ?_
  refine (getElem?_asked (oldFits.lt here)).mpr ⟨q, ?_, there⟩
  exact (oldFits.consistent q p).mp here

/-- Swaps that carry every position to its target carry one layout to the other. -/
lemma carries_of_targets (oldFits : old.Fits n) (newFits : new.Fits n) {swaps : List Swap}
    (moved : ∀ {p t}, (targets n old new)[p]? = some t → Swap.perm swaps p = t) :
    Carries swaps old new :=
  fun here there => moved (getElem?_targets oldFits newFits here there)

/-- Sorting puts every target at the place it names. -/
lemma sort_targets (oldFits : old.Fits n) (newFits : new.Fits n) :
    (OddEven.sort id (targets n old new)).1 = List.range n := by
  have keys : ((targets n old new).map id).Perm (List.range n) := by
    rw [List.map_id]
    exact targets_perm oldFits.consistent newFits
  simpa using OddEven.map_sort_eq_range keys

/-- The swaps on a chain carry every position to its target. -/
lemma perm_chainSwaps (oldFits : old.Fits n) (newFits : new.Fits n) {p t : Nat}
    (target : (targets n old new)[p]? = some t) : Swap.perm (chainSwaps n old new) p = t := by
  have moved := (OddEven.sort_exchanges id (targets n old new)).getElem?_perm p
  rw [sort_targets oldFits newFits, target] at moved
  obtain ⟨_, same⟩ := List.getElem?_eq_some_iff.mp moved
  rw [List.getElem_range] at same
  exact same

/-- The swaps on a chain carry every shared qubit to its new position. -/
lemma carries_chainSwaps (oldFits : old.Fits n) (newFits : new.Fits n) :
    Carries (chainSwaps n old new) old new :=
  carries_of_targets oldFits newFits (perm_chainSwaps oldFits newFits)

/-- The swaps on a chain are between neighbouring positions of it. -/
lemma chainSwaps_adjacent (oldOk : old.Consistent) (newFits : new.Fits n) {swap : Swap}
    (mem : swap ∈ chainSwaps n old new) : swap.2 = swap.1 + 1 ∧ swap.1 + 1 < n := by
  obtain ⟨place, logged, rfl⟩ := List.mem_map.mp mem
  refine ⟨rfl, ?_⟩
  have := (OddEven.sort_exchanges id (targets n old new)).lt logged
  rwa [(targets_perm oldOk newFits).length_eq, List.length_range] at this

/-- Positions that keep their content and gaps for the others are filled to all positions. -/
lemma fill_self (keeps : Nat → Bool) (positions : List Nat) :
    fill (positions.map fun p => if keeps p then some p else none) (positions.filter (!keeps ·))
      = positions := by
  induction positions with
  | nil => rfl
  | cons p rest ih =>
    cases kept : keeps p with
    | true => simp [kept, fill, ih]
    | false => simp [kept, fill, ih]

/-- If no shared qubit changes its position, nothing moves. -/
lemma targets_of_still
    (still : ∀ p < n, ∀ {q t}, old.occupant? p = some q → new.position? q = some t → t = p) :
    targets n old new = List.range n := by
  have slots : asked n old new
      = (List.range n).map fun p => if p ∈ (asked n old new).filterMap id then some p else none := by
    refine List.map_congr_left fun p mem => ?_
    have lt := List.mem_range.mp mem
    cases asks : (old.occupant? p).bind new.position? with
    | none =>
      rw [if_neg]
      intro used
      -- whoever asks for this position stays at it
      obtain ⟨slot, inAsked, rfl⟩ := List.mem_filterMap.mp used
      obtain ⟨p', mem', here⟩ := List.mem_map.mp inAsked
      obtain ⟨q, atP, toP⟩ := Option.bind_eq_some_iff.mp here
      obtain rfl := still p' (List.mem_range.mp mem') atP toP
      rw [here] at asks
      cases asks
    | some t =>
      obtain ⟨q, atP, toT⟩ := Option.bind_eq_some_iff.mp asks
      obtain rfl := still p lt atP toT
      rw [if_pos]
      exact List.mem_filterMap.mpr ⟨some t, List.mem_map.mpr ⟨t, mem, asks⟩, rfl⟩
  have filled := fill_self (fun p => decide (p ∈ (asked n old new).filterMap id)) (List.range n)
  simp only [decide_eq_true_iff, ← decide_not] at filled
  rw [← slots] at filled
  exact filled

/-- If no shared qubit moves, there are no swaps. -/
lemma chainSwaps_of_still
    (still : ∀ p < n, ∀ {q t}, old.occupant? p = some q → new.position? q = some t → t = p) :
    chainSwaps n old new = [] := by
  have sorted : (List.range n).Pairwise (id · ≤ id ·) := List.pairwise_lt_range.imp Nat.le_of_lt
  rw [chainSwaps, targets_of_still still, OddEven.sort_of_sorted sorted]
  rfl

/-- No qubit is shared with an empty layout. -/
lemma still_empty (new : Layout Nat) (n : Nat) :
    ∀ p < n, ∀ {q t}, (∅ : Layout Nat).occupant? p = some q → new.position? q = some t → t = p := by
  intro p _ q t here
  cases here

/-- From the empty layout there is nothing to swap. -/
lemma chainSwaps_empty (n : Nat) (new : Layout Nat) : chainSwaps n ∅ new = [] :=
  chainSwaps_of_still (still_empty new n)

end QubitRouting.Move
