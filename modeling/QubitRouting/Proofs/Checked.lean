import Mathlib.Tactic
import QubitRouting.Error

/-!
# Computations that may fail

How runs of checked computations are taken apart, and how a loop keeps an invariant.
-/

namespace QubitRouting

namespace Checked

variable {ε α β σ : Type} {items : List α}

/-- A result is handed to what follows. -/
lemma ok_bind (a : α) (f : α → Except ε β) : (Except.ok a >>= f) = f a := rfl

/-- A computation in two parts gives a result exactly if both parts do. -/
lemma bind_eq_ok {x : Except ε α} {f : α → Except ε β} {b : β} :
    x >>= f = .ok b ↔ ∃ a, x = .ok a ∧ f a = .ok b := by
  cases x with
  | error e =>
    constructor
    · intro absurdity
      cases absurdity
    · rintro ⟨_, ⟨⟩, _⟩
  | ok a =>
    constructor
    · intro run
      exact ⟨a, rfl, run⟩
    · rintro ⟨_, ⟨⟩, run⟩
      exact run

/-- A computation in two parts fails exactly if its first part fails, or its second part on a
result of the first. -/
lemma bind_eq_error {x : Except ε α} {f : α → Except ε β} {failure : ε} :
    x >>= f = .error failure ↔ x = .error failure ∨ ∃ a, x = .ok a ∧ f a = .error failure := by
  cases x with
  | error e =>
    constructor
    · rintro ⟨⟩
      exact .inl rfl
    · rintro (⟨⟨⟩⟩ | ⟨_, ⟨⟩, _⟩)
      rfl
  | ok a =>
    constructor
    · intro run
      exact .inr ⟨a, rfl, run⟩
    · rintro (⟨⟨⟩⟩ | ⟨_, ⟨⟩, run⟩)
      exact run

/-- If each item gives a result, the list gives the list of results. -/
lemma mapM_eq_ok {f : α → Except ε β} {g : α → β} (ok : ∀ a ∈ items, f a = .ok (g a)) :
    items.mapM f = .ok (items.map g) := by
  induction items with
  | nil => rfl
  | cons a rest ih =>
    rw [List.mapM_cons, ok a List.mem_cons_self, ih fun b mem => ok b (List.mem_cons_of_mem a mem)]
    rfl

/-- If a run over a list fails, one of its items does. -/
lemma exists_of_mapM_eq_error {f : α → Except ε β} {failure : ε} (run : items.mapM f = .error failure) :
    ∃ a ∈ items, f a = .error failure := by
  induction items with
  | nil => cases run
  | cons a rest ih =>
    rw [List.mapM_cons] at run
    cases head : f a with
    | error cause =>
      rw [head] at run
      cases run
      exact ⟨a, List.mem_cons_self, head⟩
    | ok b =>
      rw [head, ok_bind] at run
      cases tail : rest.mapM f with
      | error cause =>
        rw [tail] at run
        cases run
        obtain ⟨a', mem, fails⟩ := ih tail
        exact ⟨a', List.mem_cons_of_mem a mem, fails⟩
      | ok bs =>
        rw [tail] at run
        cases run

/-- Each result of a list comes from the item at its place. -/
lemma forall₂_of_mapM {f : α → Except ε β} {results : List β} (run : items.mapM f = .ok results) :
    List.Forall₂ (fun a b => f a = .ok b) items results := by
  induction items generalizing results with
  | nil =>
    cases run
    exact .nil
  | cons a rest ih =>
    rw [List.mapM_cons] at run
    obtain ⟨b, head, run⟩ := bind_eq_ok.mp run
    obtain ⟨bs, tail, run⟩ := bind_eq_ok.mp run
    cases run
    exact .cons head (ih tail)

/-- A member of the second of two related lists is related to a member of the first. -/
lemma exists_of_forall₂ {R : α → β → Prop} {results : List β} (related : List.Forall₂ R items results)
    {b : β} (mem : b ∈ results) : ∃ a ∈ items, R a b := by
  induction related with
  | nil => cases mem
  | cons head _ ih =>
    rcases List.mem_cons.mp mem with rfl | mem
    · exact ⟨_, List.mem_cons_self, head⟩
    · obtain ⟨a, memA, holds⟩ := ih mem
      exact ⟨a, List.mem_cons_of_mem _ memA, holds⟩

/-- What every step of a loop keeps, a loop that ends keeps. -/
lemma foldlM_keeps {f : σ → α → Except ε σ} {s t : σ} (Inv : σ → Prop)
    (step : ∀ a ∈ items, ∀ s t, Inv s → f s a = .ok t → Inv t) (start : Inv s)
    (run : items.foldlM f s = .ok t) : Inv t := by
  induction items generalizing s with
  | nil =>
    cases run
    exact start
  | cons a rest ih =>
    rw [List.foldlM_cons] at run
    obtain ⟨u, head, run⟩ := bind_eq_ok.mp run
    refine ih ?_ (step a List.mem_cons_self s u start head) run
    intro b mem
    exact step b (List.mem_cons_of_mem a mem)

/-- A loop that ends well does so too if each of its steps is replaced by one that does what it did. -/
lemma foldlM_refines {f g : σ → α → Except ε σ} {s t : σ}
    (step : ∀ a ∈ items, ∀ s t, f s a = .ok t → g s a = .ok t) (run : items.foldlM f s = .ok t) :
    items.foldlM g s = .ok t := by
  induction items generalizing s with
  | nil => exact run
  | cons a rest ih =>
    rw [List.foldlM_cons] at run ⊢
    obtain ⟨next, head, tail⟩ := bind_eq_ok.mp run
    rw [step a List.mem_cons_self s next head, ok_bind]
    exact ih (fun b mem => step b (List.mem_cons_of_mem a mem)) tail

/-- A loop none of whose steps changes anything. -/
lemma foldlM_stays {f : σ → α → Except ε σ} {s : σ} (stays : ∀ a ∈ items, f s a = .ok s) :
    items.foldlM f s = .ok s := by
  induction items with
  | nil => rfl
  | cons a rest ih =>
    rw [List.foldlM_cons, stays a List.mem_cons_self]
    exact ih fun b mem => stays b (List.mem_cons_of_mem a mem)

/-- A loop whose invariant lets every step succeed ends, with the invariant of its last step. -/
lemma exists_foldlM {f : σ → α → Except ε σ} {s : σ} (Inv : Nat → σ → Prop)
    (step : ∀ i (h : i < items.length) s, Inv i s → ∃ t, f s (items[i]) = .ok t ∧ Inv (i + 1) t)
    (start : Inv 0 s) : ∃ t, items.foldlM f s = .ok t ∧ Inv items.length t := by
  induction items generalizing s Inv with
  | nil => exact ⟨s, rfl, start⟩
  | cons a rest ih =>
    obtain ⟨u, head, next⟩ := step 0 (Nat.zero_lt_succ _) s start
    obtain ⟨t, run, final⟩ := ih (fun i => Inv (i + 1))
      (fun i h => step (i + 1) (Nat.succ_lt_succ h)) next
    refine ⟨t, ?_, final⟩
    rw [List.foldlM_cons]
    exact bind_eq_ok.mpr ⟨u, head, run⟩

end Checked

namespace Failure

/-- Widening the failures of a computation keeps its results. -/
lemma ofChecked_eq_ok {α : Type} {x : Except Fault α} {a : α} : ofChecked x = .ok a ↔ x = .ok a := by
  cases x with
  | error cause =>
    constructor
    · intro absurdity
      cases absurdity
    · intro absurdity
      cases absurdity
  | ok b =>
    rw [ofChecked, Except.ok.injEq, Except.ok.injEq]

end Failure

end QubitRouting
