import Mathlib.Data.List.Perm.Basic
import QubitRouting.OddEven
import QubitRouting.Proofs.Layout

/-!
# Correctness of odd-even transposition sort

Whatever the sort does, it does by exchanging neighbours that stand in the wrong order. `Exchanges`
says so once: it relates a line, the log of the exchanges and the line they lead to. Everything else
follows from it: the items stay the same, each exchange removes one inversion, and the log, read as
swaps, carries every item to where it ends up.
-/

namespace QubitRouting.OddEven

variable {α : Type}

/-- A line, the places at which neighbours in the wrong order are exchanged one after the other, and
the line after that. -/
inductive Exchanges (key : α → Nat) : List α → List Nat → List α → Prop where
  | nil {items} :
    Exchanges key items [] items
  | cons {before x y after log final} :
    key y < key x →
    Exchanges key (before ++ y :: x :: after) log final →
    Exchanges key (before ++ x :: y :: after) (before.length :: log) final

section Exchanges

variable {key : α → Nat} {items mid final : List α} {log more : List Nat}

/-- Exchanges can go on. -/
lemma Exchanges.trans (first : Exchanges key items log mid) (second : Exchanges key mid more final) :
    Exchanges key items (log ++ more) final := by
  induction first with
  | nil => exact second
  | cons less _ ih => exact .cons less (ih second)

/-- Without exchanges the line stays the same. -/
lemma Exchanges.eq_of_nil (exchanges : Exchanges key items log final) (nothing : log = []) :
    final = items := by
  cases exchanges with
  | nil => rfl
  | cons => cases nothing

/-- Exchanges rearrange the line. -/
lemma Exchanges.perm (exchanges : Exchanges key items log final) : final.Perm items := by
  induction exchanges with
  | nil => exact .refl _
  | cons _ _ ih => exact ih.trans ((List.Perm.swap _ _ _).append_left _)

/-- Exchanges keep the length of the line. -/
lemma Exchanges.length_eq (exchanges : Exchanges key items log final) : final.length = items.length :=
  exchanges.perm.length_eq

/-- A place of an exchange has a right neighbour. -/
lemma Exchanges.lt (exchanges : Exchanges key items log final) {place : Nat} (mem : place ∈ log) :
    place + 1 < items.length := by
  induction exchanges with
  | nil => cases mem
  | cons _ _ ih =>
    rcases List.mem_cons.mp mem with rfl | mem
    · simp
    · simpa using ih mem

/-- Exchanging two neighbours in the wrong order removes one inversion. -/
lemma inversions_exchange {before after : List α} {x y : α} (less : key y < key x) :
    inversions key (before ++ x :: y :: after) = inversions key (before ++ y :: x :: after) + 1 := by
  induction before with
  | nil =>
    have notLess : ¬key x < key y := by omega
    simp only [List.nil_append, inversions, List.countP_cons, less, notLess, decide_true,
      decide_false, Bool.false_eq_true, if_true, if_false]
    omega
  | cons head rest ih =>
    have same : (rest ++ x :: y :: after).countP (key · < key head)
        = (rest ++ y :: x :: after).countP (key · < key head) :=
      ((List.Perm.swap y x after).append_left rest).countP_eq _
    simp only [List.cons_append, inversions, ih, same]
    omega

/-- Every exchange removes one inversion. -/
lemma Exchanges.inversions_eq (exchanges : Exchanges key items log final) :
    inversions key items = inversions key final + log.length := by
  induction exchanges with
  | nil => rfl
  | cons less _ ih =>
    rw [inversions_exchange less, ih, List.length_cons]
    omega

/-- The swaps of neighbouring places that a log stands for. -/
def swapsOf (log : List Nat) : List Swap := log.map fun place => (place, place + 1)

/-- Exchanging two neighbours swaps their places. -/
lemma getElem?_exchange (before after : List α) (x y : α) (p : Nat) :
    (before ++ y :: x :: after)[Equiv.swap before.length (before.length + 1) p]?
      = (before ++ x :: y :: after)[p]? := by
  rw [Equiv.swap_apply_def]
  by_cases first : p = before.length
  · subst first
    simp
  · by_cases second : p = before.length + 1
    · subst second
      simp
    · rw [if_neg first, if_neg second]
      by_cases early : p < before.length
      · rw [List.getElem?_append_left early, List.getElem?_append_left early]
      · obtain ⟨k, rfl⟩ : ∃ k, p = before.length + (k + 2) := ⟨p - before.length - 2, by omega⟩
        simp [List.getElem?_append_right]

/-- The log, read as swaps, carries every item to where it ends up. -/
lemma Exchanges.getElem?_perm (exchanges : Exchanges key items log final) (p : Nat) :
    final[Swap.perm (swapsOf log) p]? = items[p]? := by
  induction exchanges generalizing p with
  | nil => rfl
  | cons _ _ ih =>
    rw [swapsOf, List.map_cons, Swap.perm_cons_apply, ← swapsOf, ih]
    exact getElem?_exchange _ _ _ _ _

end Exchanges

/-! ### What the passes do -/

/-- The first two items are exchanged if their keys are out of order, and then the pairs that follow. -/
lemma exchangePairs_cons_cons (key : α → Nat) (place : Nat) (x y : α) (rest : List α) :
    exchangePairs key place (x :: y :: rest) =
      if key y < key x then
        (y :: x :: (exchangePairs key (place + 2) rest).1,
          place :: (exchangePairs key (place + 2) rest).2)
      else
        (x :: y :: (exchangePairs key (place + 2) rest).1, (exchangePairs key (place + 2) rest).2) :=
  rfl

/-- Passes go on after one that exchanges something. -/
lemma passes_succ (key : α → Nat) (count : Nat) (items : List α) :
    passes key (count + 1) items =
      if (pass key items).2.isEmpty then (items, [])
      else
        ((passes key count (pass key items).1).1,
          (pass key items).2 ++ (passes key count (pass key items).1).2) :=
  rfl

/-- If a pass exchanges nothing, all passes exchange nothing. -/
lemma passes_of_pass_eq_nil {key : α → Nat} {items : List α} (nothing : (pass key items).2 = [])
    {count : Nat} : passes key count items = (items, []) := by
  cases count with
  | zero => rfl
  | succ count => rw [passes_succ, nothing, List.isEmpty_nil, if_pos rfl]

/-- Comparing items two by two only exchanges neighbours in the wrong order. -/
lemma exchangePairs_exchanges (key : α → Nat) : ∀ before items : List α,
    Exchanges key (before ++ items) (exchangePairs key before.length items).2
      (before ++ (exchangePairs key before.length items).1)
  | _, [] => .nil
  | _, [_] => .nil
  | before, x :: y :: rest => by
    rw [exchangePairs_cons_cons]
    split
    · next less =>
      have ih := exchangePairs_exchanges key (before ++ [y, x]) rest
      rw [List.append_assoc, List.append_assoc, List.length_append] at ih
      exact .cons less ih
    · have ih := exchangePairs_exchanges key (before ++ [x, y]) rest
      rw [List.append_assoc, List.append_assoc, List.length_append] at ih
      exact ih

/-- The even half of a pass exchanges neighbours in the wrong order. -/
lemma evenPass_exchanges (key : α → Nat) (items : List α) :
    Exchanges key items (evenPass key items).2 (evenPass key items).1 :=
  exchangePairs_exchanges key [] items

/-- The odd half of a pass exchanges neighbours in the wrong order. -/
lemma oddPass_exchanges (key : α → Nat) (items : List α) :
    Exchanges key items (oddPass key items).2 (oddPass key items).1 := by
  cases items with
  | nil => exact .nil
  | cons x rest => exact exchangePairs_exchanges key [x] rest

/-- A pass exchanges neighbours in the wrong order. -/
lemma pass_exchanges (key : α → Nat) (items : List α) :
    Exchanges key items (pass key items).2 (pass key items).1 :=
  (oddPass_exchanges key items).trans (evenPass_exchanges key _)

/-- Passes exchange neighbours in the wrong order. -/
lemma passes_exchanges (key : α → Nat) (count : Nat) (items : List α) :
    Exchanges key items (passes key count items).2 (passes key count items).1 := by
  induction count generalizing items with
  | zero => exact .nil
  | succ count ih =>
    rw [passes_succ]
    split
    · exact .nil
    · exact (pass_exchanges key items).trans (ih _)

/-- The sort only exchanges neighbours in the wrong order. -/
lemma sort_exchanges (key : α → Nat) (items : List α) :
    Exchanges key items (sort key items).2 (sort key items).1 :=
  passes_exchanges key _ items

/-! ### When nothing is left to exchange -/

/-- A line without inversions is sorted. -/
lemma sorted_of_inversions_eq_zero {key : α → Nat} {items : List α} (none : inversions key items = 0) :
    items.Pairwise (key · ≤ key ·) := by
  induction items with
  | nil => exact .nil
  | cons x rest ih =>
    rw [inversions, Nat.add_eq_zero_iff] at none
    refine List.pairwise_cons.mpr ⟨?_, ih none.2⟩
    intro y mem
    have := List.countP_eq_zero.mp none.1 y mem
    simpa using this

/-- If comparing two by two exchanges nothing, the pairs compared are in order. -/
lemma le_of_exchangePairs_eq_nil (key : α → Nat) : ∀ (place : Nat) {items : List α},
    (exchangePairs key place items).2 = [] →
    ∀ {i x y}, items[2 * i]? = some x → items[2 * i + 1]? = some y → key x ≤ key y
  | _, [], _, _, _, _, first, _ => by simp at first
  | _, [_], _, _, _, _, _, second => by simp at second
  | place, a :: b :: rest, nothing, i, x, y, first, second => by
    rw [exchangePairs_cons_cons] at nothing
    split at nothing
    · cases nothing
    · next inOrder =>
      cases i with
      | zero =>
        obtain rfl : a = x := by simpa using first
        obtain rfl : b = y := by simpa using second
        omega
      | succ i =>
        refine le_of_exchangePairs_eq_nil key (place + 2) nothing (i := i) ?_ ?_
        · simpa [Nat.mul_add] using first
        · simpa [Nat.mul_add] using second

/-- If a pass exchanges nothing, neighbours are in order. -/
lemma le_of_pass_eq_nil {key : α → Nat} {items : List α} (nothing : (pass key items).2 = [])
    {i : Nat} {x y : α} (first : items[i]? = some x) (second : items[i + 1]? = some y) :
    key x ≤ key y := by
  have logs : (oddPass key items).2 = [] ∧ (evenPass key (oddPass key items).1).2 = [] :=
    List.append_eq_nil_iff.mp nothing
  have unchanged : (oddPass key items).1 = items := (oddPass_exchanges key items).eq_of_nil logs.1
  obtain ⟨k, even | odd⟩ : ∃ k, i = 2 * k ∨ i = 2 * k + 1 := ⟨i / 2, by omega⟩
  · subst even
    rw [unchanged] at logs
    exact le_of_exchangePairs_eq_nil key 0 logs.2 first second
  · subst odd
    cases items with
    | nil => simp at first
    | cons a rest =>
      refine le_of_exchangePairs_eq_nil key 1 logs.1 (i := k) ?_ ?_
      · simpa using first
      · simpa using second

/-- If a pass exchanges nothing, the line is sorted. -/
lemma sorted_of_pass_eq_nil {key : α → Nat} {items : List α} (nothing : (pass key items).2 = []) :
    items.Pairwise (key · ≤ key ·) := by
  have chain : items.IsChain (key · ≤ key ·) := by
    rw [List.isChain_iff_getElem]
    intro i lt
    exact le_of_pass_eq_nil nothing (List.getElem?_eq_getElem (by omega))
      (List.getElem?_eq_getElem lt)
  have : Trans (fun a b : α => key a ≤ key b) (fun a b => key a ≤ key b) (fun a b => key a ≤ key b) :=
    ⟨Nat.le_trans⟩
  exact List.isChain_iff_pairwise.mp chain

/-- As many passes as there are inversions sort a line. -/
lemma sorted_passes {key : α → Nat} {count : Nat} {items : List α}
    (enough : inversions key items ≤ count) :
    (passes key count items).1.Pairwise (key · ≤ key ·) := by
  induction count generalizing items with
  | zero => exact sorted_of_inversions_eq_zero (Nat.le_zero.mp enough)
  | succ count ih =>
    rw [passes_succ]
    split
    · next nothing => exact sorted_of_pass_eq_nil (List.isEmpty_iff.mp nothing)
    · next something =>
      apply ih
      have removed := (pass_exchanges key items).inversions_eq
      have : (pass key items).2.length ≠ 0 := by
        rw [Ne, List.length_eq_zero_iff, ← List.isEmpty_iff]
        exact something
      omega

/-- The sort sorts. -/
lemma sorted_sort (key : α → Nat) (items : List α) :
    (sort key items).1.Pairwise (key · ≤ key ·) :=
  sorted_passes (Nat.le_refl _)

/-- A line whose keys are the numbers below a bound, in some order, is sorted to those numbers. -/
lemma map_sort_eq_range {key : α → Nat} {items : List α} {n : Nat}
    (keys : (items.map key).Perm (List.range n)) : (sort key items).1.map key = List.range n := by
  have perm : ((sort key items).1.map key).Perm (List.range n) :=
    ((sort_exchanges key items).perm.map key).trans keys
  refine perm.eq_of_pairwise (fun a b _ _ => Nat.le_antisymm) ?_ ?_
  · exact List.pairwise_map.mpr (sorted_sort key items)
  · exact List.pairwise_lt_range.imp Nat.le_of_lt

/-! ### The keys decide -/

section Keys

variable {β : Type} (key : β → Nat) (f : α → β)

/-- Exchanging pairs of images is exchanging pairs by the key of the image. -/
lemma exchangePairs_map : ∀ (place : Nat) (items : List α),
    exchangePairs key place (items.map f)
      = ((exchangePairs (key ∘ f) place items).1.map f, (exchangePairs (key ∘ f) place items).2)
  | _, [] => rfl
  | _, [_] => rfl
  | place, x :: y :: rest => by
    rw [List.map_cons, List.map_cons, exchangePairs_cons_cons, exchangePairs_cons_cons,
      exchangePairs_map (place + 2) rest]
    simp only [Function.comp_apply]
    split <;> rfl

/-- A pass over images is a pass by the key of the image. -/
lemma pass_map (items : List α) :
    pass key (items.map f) = ((pass (key ∘ f) items).1.map f, (pass (key ∘ f) items).2) := by
  have odd : oddPass key (items.map f)
      = ((oddPass (key ∘ f) items).1.map f, (oddPass (key ∘ f) items).2) := by
    cases items with
    | nil => rfl
    | cons x rest => simp only [List.map_cons, oddPass, exchangePairs_map]
  simp only [pass, odd, evenPass, exchangePairs_map]

/-- Passes over images are passes by the key of the image. -/
lemma passes_map (count : Nat) (items : List α) :
    passes key count (items.map f)
      = ((passes (key ∘ f) count items).1.map f, (passes (key ∘ f) count items).2) := by
  induction count generalizing items with
  | zero => rfl
  | succ count ih =>
    rw [passes_succ, passes_succ, pass_map]
    split
    · rfl
    · rw [ih]

/-- The inversions of images are those by the key of the image. -/
lemma inversions_map (items : List α) : inversions key (items.map f) = inversions (key ∘ f) items := by
  induction items with
  | nil => rfl
  | cons x rest ih =>
    rw [List.map_cons, inversions, inversions, ih, List.countP_map]
    rfl

/-- Sorting images is sorting by the key of the image. -/
lemma sort_map (items : List α) :
    sort key (items.map f) = ((sort (key ∘ f) items).1.map f, (sort (key ∘ f) items).2) := by
  rw [sort, sort, inversions_map, passes_map]

end Keys

/-- Which exchanges are made depends on the keys only. -/
lemma sort_log_eq (key : α → Nat) (items : List α) : (sort key items).2 = (sort id (items.map key)).2 := by
  rw [sort_map]
  rfl

/-- A sorted line has no inversions. -/
lemma inversions_eq_zero {key : α → Nat} {items : List α} (sorted : items.Pairwise (key · ≤ key ·)) :
    inversions key items = 0 := by
  induction items with
  | nil => rfl
  | cons x rest ih =>
    obtain ⟨first, rest_sorted⟩ := List.pairwise_cons.mp sorted
    rw [inversions, ih rest_sorted, List.countP_eq_zero.mpr]
    intro y mem
    have := first y mem
    simpa using this

/-- No more pairs are in the wrong order than there are pairs. -/
lemma inversions_le (key : α → Nat) (items : List α) :
    2 * inversions key items + items.length ≤ items.length * items.length := by
  induction items with
  | nil => rfl
  | cons x rest ih =>
    have some_less : rest.countP (key · < key x) ≤ rest.length := List.countP_le_length
    rw [inversions, List.length_cons]
    nlinarith

/-- A line in order is left alone. -/
lemma sort_of_sorted {key : α → Nat} {items : List α} (sorted : items.Pairwise (key · ≤ key ·)) :
    sort key items = (items, []) := by
  rw [sort, inversions_eq_zero sorted]
  rfl

end QubitRouting.OddEven
