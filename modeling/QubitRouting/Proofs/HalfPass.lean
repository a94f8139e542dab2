import Mathlib.Tactic
import QubitRouting.Proofs.Depth
import QubitRouting.Proofs.OddEven

/-!
# How soon a line is sorted

The sort is made of half-passes, which exchange neighbours at odd and at even places by turns. As many
half-passes as there are items sort any line, whichever comes first. To see this, fix a bound and count
the keys above it from each place on. The exchanges between two neighbours leave the count before the
two and the count after them as they are, and raise the count in between as far as those allow. So the
counts rise with time at a speed of one place per half-pass, until all keys above the bound are at the
end of the line.
-/

namespace QubitRouting.OddEven

variable {α : Type}

/-- The exchanges of the neighbours that start at odd places, or of those that start at even places. -/
def halfPass (key : α → Nat) (odd : Bool) (items : List α) : List α × List Nat :=
  if odd then oddPass key items else evenPass key items

/-- So many half-passes, at odd and at even places by turns, with a log for each of them. -/
def halfPasses (key : α → Nat) : Nat → Bool → List α → List α × List (List Nat)
  | 0, _, items => (items, [])
  | count + 1, odd, items =>
    let (next, log) := halfPass key odd items
    let (final, logs) := halfPasses key count (!odd) next
    (final, log :: logs)

/-- The sort as a loop without a bound: passes go on until one of them exchanges nothing. Every half-pass
has a log, those of the last pass included. -/
inductive Loops (key : α → Nat) : List α → List (List Nat) → List α → Prop where
  | done {items} :
    (pass key items).2 = [] →
    Loops key items [[], []] items
  | again {items logs final} :
    (pass key items).2 ≠ [] →
    Loops key (pass key items).1 logs final →
    Loops key items ((oddPass key items).2 :: (evenPass key (oddPass key items).1).2 :: logs) final

variable {key : α → Nat} {bound time count y : Nat} {odd : Bool} {items final : List α}
  {logs : List (List Nat)}

/-- Half-passes are one half-pass, and then the others by turns. -/
lemma halfPasses_succ (key : α → Nat) (count : Nat) (odd : Bool) (items : List α) :
    halfPasses key (count + 1) odd items =
      ((halfPasses key count (!odd) (halfPass key odd items).1).1,
        (halfPass key odd items).2 :: (halfPasses key count (!odd) (halfPass key odd items).1).2) :=
  rfl

/-- A half-pass exchanges neighbours in the wrong order. -/
lemma halfPass_exchanges (key : α → Nat) (odd : Bool) (items : List α) :
    Exchanges key items (halfPass key odd items).2 (halfPass key odd items).1 := by
  cases odd with
  | false => exact evenPass_exchanges key items
  | true => exact oddPass_exchanges key items

/-! ### Keys above a bound -/

/-- How many keys from a place on are above a bound. -/
def above (key : α → Nat) (bound place : Nat) (items : List α) : Nat :=
  (items.drop place).countP (bound < key ·)

/-- The keys from the next place on are those of the rest from the place on. -/
lemma above_cons_succ (key : α → Nat) (bound place : Nat) (x : α) (rest : List α) :
    above key bound (place + 1) (x :: rest) = above key bound place rest :=
  rfl

/-- The first key counts if it is above the bound. -/
lemma above_zero_cons (key : α → Nat) (bound : Nat) (x : α) (rest : List α) :
    above key bound 0 (x :: rest) = above key bound 0 rest + if bound < key x then 1 else 0 := by
  rw [above, above, List.drop_zero, List.drop_zero, List.countP_cons]
  simp

/-- The keys above the bound are those before a place and those from it on. -/
lemma above_zero_eq (key : α → Nat) (bound place : Nat) (items : List α) :
    above key bound 0 items = (items.take place).countP (bound < key ·) + above key bound place items := by
  rw [above, above, List.drop_zero, ← List.countP_append, List.take_append_drop]

/-- Exchanges keep the number of keys above a bound. -/
lemma Exchanges.above_zero {log : List Nat} (exchanges : Exchanges key items log final) (bound : Nat) :
    above key bound 0 final = above key bound 0 items :=
  exchanges.perm.countP_eq _

/-- Comparing items two by two keeps the counts between the pairs. -/
lemma above_exchangePairs_of_even (key : α → Nat) (bound : Nat) :
    ∀ (place : Nat) (items : List α) {y : Nat}, y % 2 = 0 →
      above key bound y (exchangePairs key place items).1 = above key bound y items
  | _, [], _, _ => rfl
  | _, [_], _, _ => rfl
  | place, x :: z :: rest, y, even => by
    rw [exchangePairs_cons_cons]
    by_cases first : y = 0
    · subst first
      have ih := above_exchangePairs_of_even key bound (place + 2) rest even
      split
      · simp only [above_zero_cons, ih]
        omega
      · simp only [above_zero_cons, ih]
    · obtain ⟨k, rfl⟩ : ∃ k, y = k + 2 := ⟨y - 2, by omega⟩
      have ih := above_exchangePairs_of_even key bound (place + 2) rest (y := k) (by omega)
      split <;> exact ih

/-- Comparing items two by two raises the count inside a pair as far as the counts before and after the
pair allow. -/
lemma le_above_exchangePairs_of_odd (key : α → Nat) (bound : Nat) :
    ∀ (place : Nat) (items : List α) {y : Nat}, y % 2 = 1 → y < items.length →
      min (above key bound (y - 1) items) (above key bound (y + 1) items + 1)
        ≤ above key bound y (exchangePairs key place items).1
  | _, [], _, _, inside => by simp at inside
  | _, [_], _, odd, inside => by
    rw [List.length_singleton] at inside
    omega
  | place, x :: z :: rest, y, odd, inside => by
    rw [exchangePairs_cons_cons]
    by_cases first : y = 1
    · subst first
      have same := above_exchangePairs_of_even key bound (place + 2) rest (Nat.zero_mod 2)
      split <;> simp only [above_cons_succ, Nat.sub_self, above_zero_cons, same] <;> split <;> split <;> omega
    · obtain ⟨k, rfl⟩ : ∃ k, y = k + 1 + 2 := ⟨y - 3, by omega⟩
      rw [List.length_cons, List.length_cons] at inside
      have ih := le_above_exchangePairs_of_odd key bound (place + 2) rest (y := k + 1) (by omega) (by omega)
      split <;> exact ih

/-- The counts at the places where the neighbours of a half-pass start are kept. -/
lemma above_halfPass_of_turn (turn : y % 2 = odd.toNat) :
    above key bound y (halfPass key odd items).1 = above key bound y items := by
  cases odd with
  | false => exact above_exchangePairs_of_even key bound 0 items turn
  | true =>
    rw [Bool.toNat_true] at turn
    obtain ⟨k, rfl⟩ : ∃ k, y = k + 1 := ⟨y - 1, by omega⟩
    cases items with
    | nil => rfl
    | cons x rest => exact above_exchangePairs_of_even key bound 1 rest (by omega)

/-- The others, but for the count of the whole line, are raised as far as the counts beside them allow. -/
lemma le_above_halfPass (key : α → Nat) (bound : Nat) (turn : (y + 1) % 2 ≠ odd.toNat)
    (inside : y + 1 < items.length) :
    min (above key bound y items) (above key bound (y + 2) items + 1)
      ≤ above key bound (y + 1) (halfPass key odd items).1 := by
  cases odd with
  | false =>
    rw [Bool.toNat_false] at turn
    exact le_above_exchangePairs_of_odd key bound 0 items (by omega) inside
  | true =>
    rw [Bool.toNat_true] at turn
    obtain ⟨k, rfl⟩ : ∃ k, y = k + 1 := ⟨y - 1, by omega⟩
    cases items with
    | nil => simp at inside
    | cons x rest =>
      rw [List.length_cons] at inside
      exact le_above_exchangePairs_of_odd key bound 1 rest (y := k + 1) (by omega) (by omega)

/-! ### The counts rise -/

/-- From each place on there are as many keys above the bound as can have come there by a given time, up
to the number of all of them and to the room that is left. -/
def Risen (key : α → Nat) (bound time : Nat) (items : List α) : Prop :=
  ∀ y ≤ items.length,
    min (above key bound 0 items) (min (items.length - y) ((time - y) / 2)) ≤ above key bound y items

/-- What has come somewhere by a time could have come less far by an earlier one. -/
lemma Risen.mono {sooner : Nat} (risen : Risen key bound time items) (le : sooner ≤ time) :
    Risen key bound sooner items := by
  intro y inside
  have := risen y inside
  omega

/-- Wherever the keys above the bound stand, no more of them than places can come before a place. -/
lemma risen_start (key : α → Nat) (bound : Nat) (items : List α) :
    Risen key bound (above key bound 0 items + 1) items := by
  intro y _
  have split := above_zero_eq key bound y items
  have before : (items.take y).countP (bound < key ·) ≤ y :=
    List.countP_le_length.trans (List.length_take_le y items)
  omega

/-- A half-pass whose turn it is brings the counts one step further. -/
lemma Risen.halfPass (risen : Risen key bound time items) (turn : time % 2 = odd.toNat) :
    Risen key bound (time + 1) (halfPass key odd items).1 := by
  have exchanges := halfPass_exchanges key odd items
  have whole := exchanges.above_zero bound
  intro y inside
  rw [exchanges.length_eq] at inside ⊢
  rw [whole]
  by_cases same : y % 2 = odd.toNat
  · have here := risen y inside
    rw [above_halfPass_of_turn same]
    omega
  · cases y with
    | zero =>
      rw [whole]
      exact Nat.min_le_left _ _
    | succ y =>
      rcases Nat.lt_or_eq_of_le inside with lt | last
      · refine (le_min ?_ ?_).trans (le_above_halfPass key bound same lt)
        · have before := risen y (by omega)
          omega
        · have after := risen (y + 2) lt
          omega
      · omega

/-- Each half-pass lets the keys above the bound rise one time step further. -/
lemma Risen.halfPasses (risen : Risen key bound time items) (turn : time % 2 = odd.toNat) :
    Risen key bound (time + count) (halfPasses key count odd items).1 := by
  induction count generalizing time odd items with
  | zero => exact risen
  | succ count ih =>
    rw [halfPasses_succ, Nat.add_comm count, ← Nat.add_assoc]
    apply ih (risen.halfPass turn)
    cases odd with
    | false =>
      rw [Bool.not_false, Bool.toNat_true]
      rw [Bool.toNat_false] at turn
      omega
    | true =>
      rw [Bool.not_true, Bool.toNat_false]
      rw [Bool.toNat_true] at turn
      omega

/-- Half-passes rearrange the line. -/
lemma halfPasses_perm (key : α → Nat) (count : Nat) (odd : Bool) (items : List α) :
    (halfPasses key count odd items).1.Perm items := by
  induction count generalizing odd items with
  | zero => exact .refl _
  | succ count ih => exact (ih _ _).trans (halfPass_exchanges key odd items).perm

/-- Counts that have risen for as long as the line is leave no item before one with a smaller key. -/
lemma sorted_of_risen
    (risen : ∀ bound, Risen key bound (above key bound 0 items + items.length) items) :
    items.Pairwise (key · ≤ key ·) := by
  rw [List.pairwise_iff_getElem]
  intro i j ltI ltJ less
  by_contra disorder
  -- count the keys above the smaller one, from its place on
  have here := risen (key items[j]) j (Nat.le_of_lt ltJ)
  have tail : above key (key items[j]) j items = above key (key items[j]) (j + 1) items := by
    rw [above, above, List.drop_eq_getElem_cons ltJ, List.countP_cons_of_neg (by simp)]
  have room : above key (key items[j]) (j + 1) items ≤ items.length - (j + 1) := by
    rw [← List.length_drop]
    exact List.countP_le_length
  have split := above_zero_eq key (key items[j]) j items
  have larger : 0 < (items.take j).countP (key items[j] < key ·) := by
    refine List.countP_pos_iff.mpr ⟨items[i], ?_, by simpa using disorder⟩
    exact List.mem_take_iff_getElem.mpr ⟨i, by omega, rfl⟩
  omega

/-- As many half-passes as there are items sort a line. -/
theorem sorted_halfPasses (key : α → Nat) (odd : Bool) (items : List α) :
    (halfPasses key items.length odd items).1.Pairwise (key · ≤ key ·) := by
  have perm := halfPasses_perm key items.length odd items
  apply sorted_of_risen
  intro bound
  have same : above key bound 0 (halfPasses key items.length odd items).1 = above key bound 0 items :=
    perm.countP_eq _
  rw [same, perm.length_eq]
  -- the time to start with is the one of two whose turn it is
  have start := risen_start key bound items
  by_cases turn : above key bound 0 items % 2 = odd.toNat
  · exact (start.mono (Nat.le_succ _)).halfPasses turn
  · have next : (above key bound 0 items + 1) % 2 = odd.toNat := by
      have := Bool.toNat_lt odd
      omega
    exact (start.halfPasses next).mono (by omega)

/-! ### A line in order stays as it is -/

/-- A half-pass over a sorted line exchanges nothing. -/
lemma halfPass_of_sorted (sorted : items.Pairwise (key · ≤ key ·)) : halfPass key odd items = (items, []) := by
  have exchanges := halfPass_exchanges key odd items
  have removed := exchanges.inversions_eq
  rw [inversions_eq_zero sorted] at removed
  have nothing : (halfPass key odd items).2 = [] := List.length_eq_zero_iff.mp (by omega)
  exact Prod.ext (exchanges.eq_of_nil nothing) nothing

/-- Half-passes over a sorted line exchange nothing. -/
lemma halfPasses_of_sorted (sorted : items.Pairwise (key · ≤ key ·)) :
    halfPasses key count odd items = (items, List.replicate count []) := by
  induction count generalizing odd with
  | zero => rfl
  | succ count ih => rw [halfPasses_succ, halfPass_of_sorted sorted, ih, List.replicate_succ]

/-- Once the line is sorted, no further half-pass exchanges anything. -/
lemma halfPasses_add {extra : Nat} (sorted : (halfPasses key count odd items).1.Pairwise (key · ≤ key ·)) :
    halfPasses key (count + extra) odd items =
      ((halfPasses key count odd items).1,
        (halfPasses key count odd items).2 ++ List.replicate extra []) := by
  induction count generalizing odd items with
  | zero =>
    rw [Nat.zero_add]
    exact halfPasses_of_sorted sorted
  | succ count ih =>
    rw [halfPasses_succ] at sorted
    rw [Nat.add_right_comm, halfPasses_succ, halfPasses_succ, ih sorted]
    rfl

/-- There is a log for each half-pass. -/
lemma length_halfPasses (key : α → Nat) (count : Nat) (odd : Bool) (items : List α) :
    (halfPasses key count odd items).2.length = count := by
  induction count generalizing odd items with
  | zero => rfl
  | succ count ih => rw [halfPasses_succ, List.length_cons, ih]

/-- However many half-passes there are, no more of them exchange anything than there are items. -/
lemma busy_halfPasses_le (key : α → Nat) (count : Nat) (odd : Bool) (items : List α) :
    (halfPasses key count odd items).2.countP (· ≠ []) ≤ items.length := by
  rcases Nat.le_total count items.length with few | many
  · calc (halfPasses key count odd items).2.countP (· ≠ [])
      _ ≤ (halfPasses key count odd items).2.length := List.countP_le_length
      _ = count := length_halfPasses key count odd items
      _ ≤ items.length := few
  · obtain ⟨extra, rfl⟩ := Nat.exists_eq_add_of_le many
    have idle : (List.replicate extra ([] : List Nat)).countP (· ≠ []) = 0 := by simp
    rw [halfPasses_add (sorted_halfPasses key odd items), List.countP_append, idle, Nat.add_zero]
    exact List.countP_le_length.trans_eq (length_halfPasses key items.length odd items)

/-! ### Exchanges of one half-pass -/

/-- The places of a half-pass are at least two apart, from the first one on. -/
lemma spaced_exchangePairs (key : α → Nat) : ∀ (place : Nat) (items : List α),
    (exchangePairs key place items).2.Pairwise (· + 2 ≤ ·) ∧
      ∀ i ∈ (exchangePairs key place items).2, place ≤ i
  | _, [] => ⟨.nil, by simp [exchangePairs]⟩
  | _, [_] => ⟨.nil, by simp [exchangePairs]⟩
  | place, x :: y :: rest => by
    obtain ⟨spaced, later⟩ := spaced_exchangePairs key (place + 2) rest
    rw [exchangePairs_cons_cons]
    split
    · refine ⟨List.pairwise_cons.mpr ⟨later, spaced⟩, ?_⟩
      intro i mem
      rcases List.mem_cons.mp mem with rfl | mem
      · exact Nat.le_refl i
      · have := later i mem
        omega
    · refine ⟨spaced, fun i mem => ?_⟩
      have := later i mem
      omega

/-- The exchanges of a half-pass have no place in common. -/
lemma spaced_halfPass (key : α → Nat) (odd : Bool) (items : List α) :
    (halfPass key odd items).2.Pairwise (· + 2 ≤ ·) := by
  cases odd with
  | false => exact (spaced_exchangePairs key 0 items).1
  | true =>
    cases items with
    | nil => exact .nil
    | cons x rest => exact (spaced_exchangePairs key 1 rest).1

/-- The places in the log of any half-pass are at least two apart. -/
lemma spaced_halfPasses {log : List Nat} (mem : log ∈ (halfPasses key count odd items).2) :
    log.Pairwise (· + 2 ≤ ·) := by
  induction count generalizing odd items with
  | zero => cases mem
  | succ count ih =>
    rcases List.mem_cons.mp mem with rfl | mem
    · exact spaced_halfPass key odd items
    · exact ih mem

/-- Every half-pass that exchanges anything is one layer of swaps. -/
lemma layered_swapsOf (spaced : ∀ log ∈ logs, log.Pairwise (· + 2 ≤ ·)) :
    Swap.Layered (logs.countP (· ≠ [])) (swapsOf logs.flatten) := by
  induction logs with
  | nil => exact Swap.layered_nil
  | cons log rest ih =>
    have others := ih fun other mem => spaced other (List.mem_cons_of_mem log mem)
    by_cases idle : log = []
    · subst idle
      rwa [List.flatten_cons, List.nil_append, List.countP_cons_of_neg (by simp)]
    · have apart : (swapsOf log).Pairwise fun a b => ¬Swap.Meets a b := by
        refine List.pairwise_map.mpr ((spaced log List.mem_cons_self).imp ?_)
        intro a b gap meets
        unfold Swap.Meets at meets
        omega
      rw [List.countP_cons_of_pos (by simpa using idle), Nat.add_comm, List.flatten_cons, swapsOf,
        List.map_append]
      exact (Swap.layered_one apart).append others

/-! ### The loop -/

/-- As many passes as there are inversions are all that the loop makes. -/
lemma loops_passes (enough : inversions key items ≤ count) :
    ∃ logs, Loops key items logs (passes key count items).1 ∧ logs.flatten = (passes key count items).2 := by
  induction count generalizing items with
  | zero =>
    have removed := (pass_exchanges key items).inversions_eq
    have nothing : (pass key items).2 = [] := List.length_eq_zero_iff.mp (by omega)
    exact ⟨_, .done nothing, rfl⟩
  | succ count ih =>
    rw [passes_succ]
    split
    · next nothing => exact ⟨_, .done (List.isEmpty_iff.mp nothing), rfl⟩
    · next something =>
      rw [List.isEmpty_iff] at something
      have removed := (pass_exchanges key items).inversions_eq
      have some_removed := List.length_pos_iff.mpr something
      have fewer : inversions key (pass key items).1 ≤ count := by omega
      obtain ⟨logs, loops, flat⟩ := ih fewer
      refine ⟨_, .again something loops, ?_⟩
      rw [List.flatten_cons, List.flatten_cons, flat, ← List.append_assoc]
      rfl

/-- The loop ends, with the line and the exchanges of the sort. -/
lemma loops_sort (key : α → Nat) (items : List α) :
    ∃ logs, Loops key items logs (sort key items).1 ∧ logs.flatten = (sort key items).2 :=
  loops_passes (Nat.le_refl _)

/-- The loop makes half-passes by turns. -/
lemma Loops.exists_halfPasses (loops : Loops key items logs final) :
    ∃ count, halfPasses key count true items = (final, logs) := by
  induction loops with
  | @done items nothing =>
    refine ⟨2, ?_⟩
    have sorted := sorted_of_pass_eq_nil nothing
    exact halfPasses_of_sorted sorted
  | again _ _ ih =>
    obtain ⟨count, run⟩ := ih
    refine ⟨count + 2, ?_⟩
    rw [halfPasses_succ, halfPasses_succ]
    exact congrArg (fun result : List α × List (List Nat) => (result.1, _ :: _ :: result.2)) run

/-- No more half-passes of the loop exchange anything than there are items. -/
lemma Loops.busy_le (loops : Loops key items logs final) : logs.countP (· ≠ []) ≤ items.length := by
  obtain ⟨count, run⟩ := loops.exists_halfPasses
  have few := busy_halfPasses_le key count true items
  rwa [run] at few

/-- The swaps fit as many layers as there are half-passes that exchange anything. -/
lemma Loops.layered (loops : Loops key items logs final) :
    Swap.Layered (logs.countP (· ≠ [])) (swapsOf logs.flatten) := by
  obtain ⟨count, run⟩ := loops.exists_halfPasses
  have spaced : ∀ log ∈ (halfPasses key count true items).2, log.Pairwise (· + 2 ≤ ·) :=
    fun log mem => spaced_halfPasses mem
  rw [run] at spaced
  exact layered_swapsOf spaced

/-- The swaps of a sort are at most as deep as the half-passes that exchange something. -/
lemma Loops.depth_le (loops : Loops key items logs final) :
    Swap.depth (swapsOf logs.flatten) ≤ logs.countP (· ≠ []) :=
  loops.layered.depth_le

/-- A line is sorted in as many layers as it has items. -/
lemma layered_sort (key : α → Nat) (items : List α) :
    Swap.Layered items.length (swapsOf (sort key items).2) := by
  obtain ⟨logs, loops, flat⟩ := loops_sort key items
  rw [← flat]
  exact loops.layered.mono loops.busy_le

end QubitRouting.OddEven
