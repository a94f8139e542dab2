import Mathlib.Logic.Equiv.Basic
import QubitRouting.Layout
import QubitRouting.Proofs.Collections

/-!
# Laws of layouts

The two directions of a layout are inverse to each other, and every operation keeps them so. Each
operation is then described by what it does to the position of a qubit. A list of swaps acts on the
positions as a permutation, `Swap.perm`.
-/

namespace QubitRouting

/-- The permutation of the positions that a list of swaps carries out. -/
def Swap.perm : List Swap → Equiv.Perm Nat
  | [] => Equiv.refl Nat
  | swap :: rest => (Equiv.swap swap.1 swap.2).trans (Swap.perm rest)

namespace Swap

/-- No swaps leave every position. -/
@[simp]
lemma perm_nil : Swap.perm [] = Equiv.refl Nat := rfl

/-- The first swap moves a position, and then the others do. -/
@[simp]
lemma perm_cons_apply (swap : Swap) (rest : List Swap) (p : Nat) :
    Swap.perm (swap :: rest) p = Swap.perm rest (Equiv.swap swap.1 swap.2 p) := rfl

/-- The swaps of two lists move a position one list after the other. -/
lemma perm_append_apply (first second : List Swap) (p : Nat) :
    Swap.perm (first ++ second) p = Swap.perm second (Swap.perm first p) := by
  induction first generalizing p with
  | nil => rfl
  | cons swap rest ih => exact ih _

/-- The same swaps in reverse order take a position back. -/
lemma perm_reverse_apply (swaps : List Swap) (p : Nat) :
    Swap.perm swaps.reverse (Swap.perm swaps p) = p := by
  induction swaps generalizing p with
  | nil => rfl
  | cons swap rest ih =>
    rw [List.reverse_cons, perm_append_apply, perm_cons_apply swap rest, ih]
    exact Equiv.swap_apply_self _ _ p

/-- Swaps elsewhere leave a position. -/
lemma perm_eq_self {swaps : List Swap} {p : Nat}
    (elsewhere : ∀ swap ∈ swaps, p ≠ swap.1 ∧ p ≠ swap.2) : perm swaps p = p := by
  induction swaps with
  | nil => rfl
  | cons swap rest ih =>
    obtain ⟨first, second⟩ := elsewhere swap List.mem_cons_self
    rw [perm_cons_apply, Equiv.swap_apply_of_ne_of_ne first second]
    exact ih fun s mem => elsewhere s (List.mem_cons_of_mem swap mem)

/-- Swaps below a bound keep positions below it. -/
lemma perm_lt {swaps : List Swap} {n p : Nat} (within : ∀ swap ∈ swaps, swap.1 < n ∧ swap.2 < n)
    (lt : p < n) : Swap.perm swaps p < n := by
  induction swaps generalizing p with
  | nil => exact lt
  | cons swap rest ih =>
    rw [perm_cons_apply]
    apply ih fun other mem => within other (List.mem_cons_of_mem _ mem)
    obtain ⟨left, right⟩ := within swap List.mem_cons_self
    rw [Equiv.swap_apply_def]
    split
    · exact right
    · split
      · exact left
      · exact lt

end Swap

namespace Layout

section Positions

variable {P R : Type} [Ranked P] [Ranked R] {layout : Layout P} {q r : QubitId} {p : P}

/-- The two directions of a layout say the same. -/
def Consistent (layout : Layout P) : Prop :=
  ∀ q p, layout.position? q = some p ↔ layout.occupant? p = some q

/-- No two qubits are at the same position. -/
lemma Consistent.inj (consistent : layout.Consistent) (hq : layout.position? q = some p)
    (hr : layout.position? r = some p) : q = r := by
  have first := (consistent q p).mp hq
  have second := (consistent r p).mp hr
  exact Option.some.inj (first.symm.trans second)

/-- A layout contains the qubits that have a position. -/
lemma contains_iff : layout.contains q = true ↔ ∃ p, layout.position? q = some p :=
  OrderedMap.contains_iff_exists

/-- The qubits listed are those that have a position. -/
lemma mem_qubits_iff : q ∈ layout.qubits ↔ ∃ p, layout.position? q = some p :=
  OrderedMap.mem_keys_iff

/-- The pairs listed are the qubits with their positions. -/
lemma mem_pairs_iff : (q, p) ∈ layout.pairs ↔ layout.position? q = some p :=
  OrderedMap.mem_entries_iff

/-- No qubit is listed twice. -/
lemma pairs_nodup (layout : Layout P) : (layout.pairs.map Prod.fst).Nodup :=
  OrderedMap.keys_nodup layout.positions

/-- No qubit has a position in the empty layout. -/
@[simp]
lemma position?_empty (q : QubitId) : (∅ : Layout P).position? q = none := rfl

/-- The empty layout is consistent. -/
lemma consistent_empty : (∅ : Layout P).Consistent := by
  intro q p
  exact ⟨nofun, nofun⟩

/-- A qubit that is inserted is at its position. -/
@[simp]
lemma position?_insert_self (layout : Layout P) (q : QubitId) (p : P) :
    (layout.insert q p).position? q = some p :=
  OrderedMap.find?_insert_self _ _ _

/-- Putting a qubit somewhere moves no other qubit but the one it displaces. -/
lemma position?_insert_of_ne (consistent : layout.Consistent) (ne : q ≠ r) {s : P} :
    (layout.insert q p).position? r = some s ↔ layout.position? r = some s ∧ s ≠ p := by
  rw [position?, insert, OrderedMap.find?_insert_of_ne ne]
  cases occupied : layout.occupant? p with
  | none =>
    refine ⟨fun found => ⟨found, ?_⟩, And.left⟩
    rintro rfl
    rw [(consistent r s).mp found] at occupied
    cases occupied
  | some former =>
    refine OrderedMap.find?_erase_eq_some.trans ⟨?_, ?_⟩
    · rintro ⟨other, found⟩
      refine ⟨found, ?_⟩
      rintro rfl
      exact other (consistent.inj found ((consistent former s).mpr occupied))
    · rintro ⟨found, other⟩
      refine ⟨?_, found⟩
      rintro rfl
      have here := (consistent r p).mpr occupied
      exact other (Option.some.inj (found.symm.trans here))

/-- A position where a qubit is inserted holds it. -/
@[simp]
lemma occupant?_insert_self (layout : Layout P) (q : QubitId) (p : P) :
    (layout.insert q p).occupant? p = some q :=
  OrderedMap.find?_insert_self _ _ _

/-- Putting a qubit somewhere clears the position it had and no other one. -/
lemma occupant?_insert_of_ne (consistent : layout.Consistent) {s : P} (ne : p ≠ s) :
    (layout.insert q p).occupant? s = some r ↔ layout.occupant? s = some r ∧ r ≠ q := by
  rw [occupant?, insert, OrderedMap.find?_insert_of_ne ne]
  cases placed : layout.position? q with
  | none =>
    refine ⟨fun found => ⟨found, ?_⟩, And.left⟩
    rintro rfl
    rw [(consistent r s).mpr found] at placed
    cases placed
  | some former =>
    refine OrderedMap.find?_erase_eq_some.trans ⟨?_, ?_⟩
    · rintro ⟨other, found⟩
      refine ⟨found, ?_⟩
      rintro rfl
      have here := (consistent r s).mpr found
      exact other (Option.some.inj (here.symm.trans placed))
    · rintro ⟨found, other⟩
      refine ⟨?_, found⟩
      rintro rfl
      have here := (consistent r s).mpr found
      exact other (consistent.inj here placed)

/-- Inserting keeps a layout consistent. -/
lemma Consistent.insert (consistent : layout.Consistent) (q : QubitId) (p : P) :
    (layout.insert q p).Consistent := by
  intro r s
  by_cases sameQubit : q = r
  · subst sameQubit
    by_cases samePosition : p = s
    · subst samePosition
      simp
    · rw [occupant?_insert_of_ne consistent samePosition, position?_insert_self]
      constructor
      · intro here
        exact absurd (Option.some.inj here) samePosition
      · rintro ⟨_, other⟩
        exact absurd rfl other
  · rw [position?_insert_of_ne consistent sameQubit]
    by_cases samePosition : p = s
    · subst samePosition
      rw [occupant?_insert_self]
      constructor
      · rintro ⟨_, other⟩
        exact absurd rfl other
      · intro here
        exact absurd (Option.some.inj here) sameQubit
    · rw [occupant?_insert_of_ne consistent samePosition, consistent r s]
      exact and_congr_right fun _ => ⟨fun _ same => sameQubit same.symm,
        fun _ same => samePosition same.symm⟩

/-- A qubit that is erased has no position. -/
@[simp]
lemma position?_erase_self (layout : Layout P) (q : QubitId) : (layout.erase q).position? q = none := by
  rw [erase]
  cases placed : layout.position? q with
  | none => exact placed
  | some p => exact OrderedMap.find?_erase_self _ _

/-- Erasing a qubit leaves the others where they are. -/
lemma position?_erase_of_ne (ne : q ≠ r) : (layout.erase q).position? r = layout.position? r := by
  rw [erase]
  cases layout.position? q with
  | none => rfl
  | some p => exact OrderedMap.find?_erase_of_ne ne

/-- Erasing keeps a layout consistent. -/
lemma Consistent.erase (consistent : layout.Consistent) (q : QubitId) :
    (layout.erase q).Consistent := by
  intro r s
  rw [Layout.erase]
  cases placed : layout.position? q with
  | none => exact consistent r s
  | some p =>
    refine OrderedMap.find?_erase_eq_some.trans
      (Iff.trans ?_ OrderedMap.find?_erase_eq_some.symm)
    refine (and_congr_right fun _ => consistent r s).trans (and_congr_left fun found => ?_)
    have here := (consistent r s).mpr found
    constructor
    · rintro other rfl
      exact other (consistent.inj here placed)
    · rintro other rfl
      exact other (Option.some.inj (here.symm.trans placed))

/-- Inserting qubit after qubit keeps a layout consistent. -/
lemma Consistent.foldl_insert {pairs : List (QubitId × P)} (consistent : layout.Consistent) :
    (pairs.foldl (fun layout pair => layout.insert pair.1 pair.2) layout).Consistent := by
  induction pairs generalizing layout with
  | nil => exact consistent
  | cons pair rest ih => exact ih (consistent.insert _ _)

/-- A layout made from pairs is consistent. -/
lemma consistent_ofPairs (pairs : List (QubitId × P)) : (ofPairs pairs).Consistent :=
  consistent_empty.foldl_insert

/-- A layout built on top of another one places qubits as listed or as before. -/
lemma position?_foldl_insert {pairs : List (QubitId × P)} (consistent : layout.Consistent)
    (found : (pairs.foldl (fun layout pair => layout.insert pair.1 pair.2) layout).position? q = some p) :
    (q, p) ∈ pairs ∨ layout.position? q = some p := by
  induction pairs generalizing layout with
  | nil => exact Or.inr found
  | cons pair rest ih =>
    rcases ih (consistent.insert _ _) found with mem | found
    · exact Or.inl (List.mem_cons_of_mem _ mem)
    · by_cases same : pair.1 = q
      · subst same
        rw [position?_insert_self] at found
        obtain rfl := Option.some.inj found
        exact Or.inl List.mem_cons_self
      · rw [position?_insert_of_ne consistent same] at found
        exact Or.inr found.1

/-- What a layout made from pairs says is one of the pairs. -/
lemma mem_of_position?_ofPairs {pairs : List (QubitId × P)}
    (found : (ofPairs pairs).position? q = some p) : (q, p) ∈ pairs := by
  rcases position?_foldl_insert consistent_empty found with mem | found
  · exact mem
  · cases found

/-- Pairs that no later pair disturbs keep their place. -/
lemma position?_foldl_insert_of_nodup {pairs : List (QubitId × P)} (consistent : layout.Consistent)
    (qubits : (pairs.map Prod.fst).Nodup) (places : (pairs.map Prod.snd).Nodup)
    (known : (q, p) ∈ pairs ∨
      layout.position? q = some p ∧ q ∉ pairs.map Prod.fst ∧ p ∉ pairs.map Prod.snd) :
    (pairs.foldl (fun layout pair => layout.insert pair.1 pair.2) layout).position? q = some p := by
  induction pairs generalizing layout with
  | nil =>
    rcases known with mem | ⟨found, _⟩
    · cases mem
    · exact found
  | cons pair rest ih =>
    obtain ⟨freshQubit, qubits⟩ := List.nodup_cons.mp qubits
    obtain ⟨freshPlace, places⟩ := List.nodup_cons.mp places
    apply ih (consistent.insert _ _) qubits places
    rcases known with mem | ⟨found, absentQubit, absentPlace⟩
    · rcases List.mem_cons.mp mem with rfl | mem
      · exact Or.inr ⟨position?_insert_self _ _ _, freshQubit, freshPlace⟩
      · exact Or.inl mem
    · rw [List.map_cons, List.mem_cons, not_or] at absentQubit absentPlace
      refine Or.inr ⟨?_, absentQubit.2, absentPlace.2⟩
      rw [position?_insert_of_ne consistent fun same => absentQubit.1 same.symm]
      exact ⟨found, absentPlace.1⟩

/-- A layout built from pairs without repetitions places exactly the qubits listed. -/
lemma position?_ofPairs_iff {pairs : List (QubitId × P)} (qubits : (pairs.map Prod.fst).Nodup)
    (places : (pairs.map Prod.snd).Nodup) :
    (ofPairs pairs).position? q = some p ↔ (q, p) ∈ pairs :=
  ⟨mem_of_position?_ofPairs,
    fun mem => position?_foldl_insert_of_nodup consistent_empty qubits places (Or.inl mem)⟩

/-- Moving every qubit by a function that keeps positions apart, in whatever order the qubits are listed. -/
lemma position?_ofPairs_moved {f : P → R} (consistent : layout.Consistent)
    (inj : ∀ q r p s, layout.position? q = some p → layout.position? r = some s → f p = f s → p = s)
    {listed : List (QubitId × P)} (order : listed.Perm layout.pairs) :
    (ofPairs (listed.map fun pair => (pair.1, f pair.2))).position? q = (layout.position? q).map f := by
  have listed_iff {q : QubitId} {p : P} : (q, p) ∈ listed ↔ layout.position? q = some p :=
    order.mem_iff.trans mem_pairs_iff
  have nodup : (listed.map Prod.fst).Nodup := (order.map Prod.fst).nodup_iff.mpr layout.pairs_nodup
  have qubits : ((listed.map fun pair => (pair.1, f pair.2)).map Prod.fst).Nodup := by
    rw [List.map_map]
    exact nodup
  have places : ((listed.map fun pair => (pair.1, f pair.2)).map Prod.snd).Nodup := by
    rw [List.map_map]
    refine List.Nodup.map_on ?_ (List.Nodup.of_map _ nodup)
    rintro ⟨q, p⟩ memQ ⟨r, s⟩ memR same
    have placedQ := listed_iff.mp memQ
    have placedR := listed_iff.mp memR
    obtain rfl := inj q r p s placedQ placedR same
    rw [consistent.inj placedQ placedR]
  apply Option.ext
  intro s
  rw [position?_ofPairs_iff qubits places, Option.map_eq_some_iff]
  simp only [List.mem_map, Prod.mk.injEq, Prod.exists, listed_iff]
  constructor
  · rintro ⟨r, p, placed, rfl, rfl⟩
    exact ⟨p, placed, rfl⟩
  · rintro ⟨p, placed, rfl⟩
    exact ⟨q, p, placed, rfl, rfl⟩

/-- Renaming positions renames that of each qubit, if no two of those in use become one. -/
lemma position?_mapPositions {f : P → R} (consistent : layout.Consistent)
    (inj : ∀ q r p s, layout.position? q = some p → layout.position? r = some s → f p = f s → p = s) :
    (layout.mapPositions f).position? q = (layout.position? q).map f :=
  position?_ofPairs_moved consistent inj (.refl _)

/-- Layouts that place every qubit alike are equal. -/
lemma Consistent.ext {other : Layout P} (consistent : layout.Consistent) (consistent' : other.Consistent)
    (same : ∀ q, layout.position? q = other.position? q) : layout = other := by
  have positions : layout.positions = other.positions := OrderedMap.ext_find? same
  have occupants : layout.occupants = other.occupants := by
    apply OrderedMap.ext_find?
    intro p
    apply Option.ext
    intro q
    have there := consistent' q p
    rw [← same] at there
    exact (consistent q p).symm.trans there
  cases layout
  cases other
  cases positions
  cases occupants
  rfl

/-- Renaming positions that stay the same changes nothing. -/
lemma mapPositions_eq_self {f : P → P} (consistent : layout.Consistent)
    (still : ∀ {q p}, layout.position? q = some p → f p = p) : layout.mapPositions f = layout := by
  have inj : ∀ q r p s, layout.position? q = some p → layout.position? r = some s → f p = f s → p = s := by
    intro q r p s placedQ placedR same
    rwa [still placedQ, still placedR] at same
  refine (consistent_ofPairs _).ext consistent fun q => ?_
  refine (position?_mapPositions consistent inj).trans ?_
  cases placed : layout.position? q with
  | none => rfl
  | some p => rw [Option.map_some, still placed]

end Positions

section Swap

variable {P : Type} [Ranked P] [DecidableEq P] {layout : Layout P}

/-- What a swap takes from its second position, after it has cleared the first one. -/
private lemma find?_second (occupants : OrderedMap P QubitId) (a b : P) :
    (occupants.erase a).find? b = if a = b then none else occupants.find? b := by
  simp only [OrderedMap.find?_erase, Ranked.rank_eq_iff]

/-- After a swap each of two positions holds what the other one held. -/
lemma occupant?_swap (layout : Layout P) (a b p : P) :
    (layout.swap a b).occupant? p = layout.occupant? (Equiv.swap a b p) := by
  rw [Equiv.swap_apply_def, swap]
  simp only [find?_second]
  by_cases same : a = b
  · subst same
    rw [if_pos rfl]
    cases fromA : layout.occupants.find? a <;>
      simp only [occupant?, OrderedMap.find?_insert, OrderedMap.find?_erase, Ranked.rank_eq_iff] <;>
      grind
  · rw [if_neg same]
    cases fromA : layout.occupants.find? a <;> cases fromB : layout.occupants.find? b <;>
      simp only [occupant?, OrderedMap.find?_insert, OrderedMap.find?_erase, Ranked.rank_eq_iff] <;>
      grind

/-- A swap moves the qubits at its two positions and no others. -/
lemma position?_swap (consistent : layout.Consistent) (a b : P) (q : QubitId) :
    (layout.swap a b).position? q = (layout.position? q).map (Equiv.swap a b) := by
  have atA := consistent q a
  have atB := consistent q b
  have moved : (layout.position? q).map (Equiv.swap a b) =
      if layout.occupants.find? a = some q then some b
      else if layout.occupants.find? b = some q then some a else layout.position? q := by
    cases placed : layout.position? q with
    | none =>
      simp only [occupant?, placed] at atA atB
      simp [← atA, ← atB]
    | some p =>
      simp only [occupant?, placed, Option.some.injEq] at atA atB
      simp only [Option.map_some, Equiv.swap_apply_def, ← atA, ← atB]
      split <;> [rfl; split <;> rfl]
  rw [moved, swap]
  simp only [find?_second]
  by_cases same : a = b
  · subst same
    rw [if_pos rfl]
    cases fromA : layout.occupants.find? a <;>
      simp only [position?, OrderedMap.find?_insert, Ranked.rank_eq_iff] <;>
      grind
  · rw [if_neg same]
    -- a qubit is not at both positions
    have apart : layout.occupants.find? a = some q → layout.occupants.find? b ≠ some q := by
      intro hereA hereB
      have := (atA.mpr hereA).symm.trans (atB.mpr hereB)
      exact same (Option.some.inj this)
    cases fromA : layout.occupants.find? a <;> cases fromB : layout.occupants.find? b <;>
      simp only [position?, OrderedMap.find?_insert, Ranked.rank_eq_iff] <;>
      grind

/-- A swap keeps a layout consistent. -/
lemma Consistent.swap (consistent : layout.Consistent) (a b : P) :
    (layout.swap a b).Consistent := by
  intro q p
  rw [position?_swap consistent, occupant?_swap, ← consistent, Option.map_eq_some_iff]
  constructor
  · rintro ⟨s, placed, rfl⟩
    rw [Equiv.swap_apply_self]
    exact placed
  · intro placed
    exact ⟨_, placed, Equiv.swap_apply_self _ _ _⟩

end Swap

section Swaps

variable {layout : Layout Nat} {q : QubitId} {p n : Nat}

/-- Swaps keep a layout consistent. -/
lemma Consistent.applySwaps (consistent : layout.Consistent) (swaps : List Swap) :
    (layout.applySwaps swaps).Consistent := by
  induction swaps generalizing layout with
  | nil => exact consistent
  | cons swap rest ih => exact ih (consistent.swap _ _)

/-- Swaps move every qubit by their permutation of the positions. -/
lemma position?_applySwaps (consistent : layout.Consistent) (swaps : List Swap) (q : QubitId) :
    (layout.applySwaps swaps).position? q = (layout.position? q).map (Swap.perm swaps) := by
  induction swaps generalizing layout with
  | nil => simp [applySwaps]
  | cons swap rest ih =>
    rw [applySwaps, List.foldl_cons, ← applySwaps, ih (consistent.swap _ _),
      position?_swap consistent, Option.map_map]
    rfl

/-- The same swaps in reverse order lead back. -/
lemma Consistent.applySwaps_reverse (consistent : layout.Consistent) (swaps : List Swap) :
    (layout.applySwaps swaps).applySwaps swaps.reverse = layout := by
  have swapped := consistent.applySwaps swaps
  refine (swapped.applySwaps _).ext consistent fun q => ?_
  rw [position?_applySwaps swapped, position?_applySwaps consistent, Option.map_map]
  cases layout.position? q with
  | none => rfl
  | some p => exact congrArg some (Swap.perm_reverse_apply swaps p)

/-- A consistent layout all of whose positions are below a bound. -/
structure Fits (layout : Layout Nat) (n : Nat) : Prop where
  /-- The two directions say the same. -/
  consistent : layout.Consistent
  /-- No position is too large. -/
  lt : ∀ {q p}, layout.position? q = some p → p < n

/-- The empty layout fits any bound. -/
lemma fits_empty (n : Nat) : (∅ : Layout Nat).Fits n := ⟨consistent_empty, nofun⟩

/-- Erasing keeps a layout below its bound. -/
lemma Fits.erase (fits : layout.Fits n) (q : QubitId) : (layout.erase q).Fits n := by
  refine ⟨fits.consistent.erase q, ?_⟩
  intro r p placed
  by_cases same : q = r
  · subst same
    simp at placed
  · rw [position?_erase_of_ne same] at placed
    exact fits.lt placed

/-- A layout made from pairs below a bound fits it. -/
lemma fits_ofPairs {pairs : List (QubitId × Nat)} (below : ∀ pair ∈ pairs, pair.2 < n) :
    (ofPairs pairs).Fits n :=
  ⟨consistent_ofPairs pairs, fun placed => below _ (mem_of_position?_ofPairs placed)⟩

/-- Qubits that all have a position below a bound have different ones. -/
lemma Fits.positions_subperm (fits : layout.Fits n) {set : OrderedSet QubitId}
    (placed : ∀ q ∈ set, ∃ p, layout.position? q = some p) :
    (set.toList.map fun q => (layout.position? q).getD 0).Subperm (List.range n) := by
  have sub : set.toList.map (fun q => (layout.position? q).getD 0) ⊆ List.range n := by
    intro p mem
    obtain ⟨q, here, rfl⟩ := List.mem_map.mp mem
    obtain ⟨p, found⟩ := placed q here
    rw [found]
    exact List.mem_range.mpr (fits.lt found)
  have nodup : (set.toList.map fun q => (layout.position? q).getD 0).Nodup := by
    refine List.Nodup.map_on ?_ set.toList_nodup
    intro q memQ r memR same
    obtain ⟨p, foundQ⟩ := placed q memQ
    obtain ⟨s, foundR⟩ := placed r memR
    rw [foundQ, foundR] at same
    obtain rfl : p = s := same
    exact fits.consistent.inj foundQ foundR
  exact nodup.subperm sub

/-- Qubits that all have a position below a bound are no more than the bound. -/
lemma Fits.size_le (fits : layout.Fits n) {set : OrderedSet QubitId}
    (placed : ∀ q ∈ set, ∃ p, layout.position? q = some p) : set.size ≤ n := by
  have := (fits.positions_subperm placed).length_le
  rwa [List.length_map, List.length_range] at this

/-- If they are as many as the bound, they take every position below it. -/
lemma Fits.exists_position (fits : layout.Fits n) {set : OrderedSet QubitId}
    (placed : ∀ q ∈ set, ∃ p, layout.position? q = some p) (full : n ≤ set.size) (lt : p < n) :
    ∃ q ∈ set, layout.position? q = some p := by
  have perm := (fits.positions_subperm placed).perm_of_length_le <| by
    rw [List.length_range, List.length_map]
    exact full
  obtain ⟨q, mem, rfl⟩ := List.mem_map.mp (perm.mem_iff.mpr (List.mem_range.mpr lt))
  obtain ⟨p, found⟩ := placed q mem
  exact ⟨q, mem, by rw [found]; rfl⟩

end Swaps

end Layout

end QubitRouting
