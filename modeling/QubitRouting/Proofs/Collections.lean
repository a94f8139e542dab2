import Mathlib.Tactic
import QubitRouting.OrderedMap
import QubitRouting.OrderedSet

/-!
# Laws of the ordered collections

What is found in a map and what is a member of a set after each operation, in terms of keys instead of
ranks, and how many members there are. Later proofs use these laws and never look at how the entries
are stored.
-/

namespace QubitRouting

/-- What holds of every item of a list and those before it also holds of the last item and all before it. -/
lemma forall_split_concat {α : Type} {P : List α → α → Prop} {items : List α} {last : α} :
    (∀ before x after, items ++ [last] = before ++ x :: after → P before x) ↔
      (∀ before x after, items = before ++ x :: after → P before x) ∧ P items last := by
  constructor
  · intro holds
    refine ⟨?_, holds items last [] rfl⟩
    rintro before x after rfl
    exact holds before x (after ++ [last]) (by simp)
  · rintro ⟨holds, atLast⟩ before x after same
    rcases List.eq_nil_or_concat' after with rfl | ⟨after, y, rfl⟩
    · obtain ⟨rfl, isLast⟩ := List.append_inj' same rfl
      cases isLast
      exact atLast
    · rw [← List.cons_append, ← List.append_assoc] at same
      exact holds before x after (List.append_inj' same rfl).1

/-- A relation holds between any two items of a list if it holds between each item and those before it. -/
lemma pairwise_iff_forall_split {α : Type} {R : α → α → Prop} {items : List α} :
    items.Pairwise R ↔ ∀ before x after, items = before ++ x :: after → ∀ y ∈ before, R y x := by
  induction items using List.reverseRecOn with
  | nil => simp
  | append_singleton items last ih =>
    rw [forall_split_concat (P := fun before x => ∀ y ∈ before, R y x), ← ih, List.pairwise_append]
    simp

/-- An entry of a list and the others are its entries. -/
lemma cons_eraseIdx_perm {α : Type} {items : List α} {i : Nat} {x : α} (here : items[i]? = some x) :
    (x :: items.eraseIdx i).Perm items := by
  obtain ⟨lt, rfl⟩ := List.getElem?_eq_some_iff.mp here
  exact List.getElem_cons_eraseIdx_perm lt

section KeepBetter

variable {α : Type} (better : α → α → Prop) [∀ a b, Decidable (better a b)]

/-- Keep the better one of the best item so far and the next one. -/
def keepBetter : Option α → α → Option α
  | none, item => some item
  | some best, item => if better item best then some item else some best

variable {items : List α} {best : α} {start : Option α}

/-- What is kept was there. -/
lemma mem_of_foldl_keepBetter (kept : items.foldl (keepBetter better) start = some best) :
    best ∈ items ∨ start = some best := by
  induction items generalizing start with
  | nil => exact .inr kept
  | cons item rest ih =>
    rcases ih kept with mem | same
    · exact .inl (List.mem_cons_of_mem _ mem)
    · cases start with
      | none =>
        obtain rfl := Option.some.inj same
        exact .inl List.mem_cons_self
      | some former =>
        rw [keepBetter] at same
        split at same
        · obtain rfl := Option.some.inj same
          exact .inl List.mem_cons_self
        · exact .inr same

/-- Something is kept of a list that is not empty. -/
lemma foldl_keepBetter_isSome (given : items ≠ [] ∨ start.isSome) :
    (items.foldl (keepBetter better) start).isSome := by
  induction items generalizing start with
  | nil => exact given.resolve_left (absurd rfl)
  | cons item rest ih =>
    apply ih
    right
    cases start with
    | none => rfl
    | some former =>
      rw [keepBetter]
      split <;> rfl

/-- Nothing in the list is better than what is kept, if what is no better than one item is no better
than a worse one. -/
lemma not_better_of_foldl_keepBetter
    (trans : ∀ {a b c}, ¬better a b → ¬better b c → ¬better a c) (asymm : ∀ {a b}, better a b → ¬better b a)
    (kept : items.foldl (keepBetter better) start = some best) :
    (∀ former, start = some former → ¬better former best) ∧ ∀ item ∈ items, ¬better item best := by
  induction items generalizing start with
  | nil =>
    refine ⟨?_, nofun⟩
    intro former same
    obtain rfl := Option.some.inj (same.symm.trans kept)
    exact fun less => asymm less less
  | cons item rest ih =>
    obtain ⟨fromStart, fromRest⟩ := ih kept
    cases start with
    | none =>
      refine ⟨nofun, List.forall_mem_cons.mpr ⟨fromStart item rfl, fromRest⟩⟩
    | some former =>
      rw [keepBetter] at fromStart
      split at fromStart
      case isTrue less =>
        have first := fromStart item rfl
        refine ⟨?_, List.forall_mem_cons.mpr ⟨first, fromRest⟩⟩
        rintro _ ⟨⟩
        exact trans (asymm less) first
      case isFalse notLess =>
        have first := fromStart former rfl
        refine ⟨?_, List.forall_mem_cons.mpr ⟨trans notLess first, fromRest⟩⟩
        rintro _ ⟨⟩
        exact first

end KeepBetter

namespace OrderedMap

variable {K V : Type} [Ranked K] {map : OrderedMap K V} {key other : K} {value : V}

/-- What is inserted at a key is found there. -/
@[simp]
lemma find?_insert_self (map : OrderedMap K V) (key : K) (value : V) :
    (map.insert key value).find? key = some value := by
  rw [find?_insert, if_pos rfl]

/-- An insertion changes nothing at other keys. -/
lemma find?_insert_of_ne (ne : key ≠ other) :
    (map.insert key value).find? other = map.find? other := by
  rw [find?_insert, if_neg fun same => ne (Ranked.rank_inj same)]

/-- After an insertion a value is found if it is the new one at its key, or was there at another key. -/
lemma find?_insert_eq_some {found : V} :
    (map.insert key value).find? other = some found ↔
      other = key ∧ found = value ∨ other ≠ key ∧ map.find? other = some found := by
  by_cases same : key = other
  · subst same
    simp [find?_insert_self, eq_comm]
  · simp [find?_insert_of_ne same, Ne.symm same]

/-- A new key changes nothing about the others. -/
lemma find?_insert_of_absent {found : V} (absent : map.find? key = none) :
    (map.insert key value).find? other = some found ↔
      map.find? other = some found ∨ other = key ∧ found = value := by
  rw [find?_insert_eq_some]
  constructor
  · rintro (here | ⟨_, there⟩)
    · exact .inr here
    · exact .inl there
  · rintro (there | here)
    · refine .inr ⟨?_, there⟩
      rintro rfl
      rw [absent] at there
      cases there
    · exact .inl here

/-- Nothing is found at an erased key. -/
@[simp]
lemma find?_erase_self (map : OrderedMap K V) (key : K) : (map.erase key).find? key = none := by
  rw [find?_erase, if_pos rfl]

/-- An erasure changes nothing at other keys. -/
lemma find?_erase_of_ne (ne : key ≠ other) : (map.erase key).find? other = map.find? other := by
  rw [find?_erase, if_neg fun same => ne (Ranked.rank_inj same)]

/-- After an erasure a value is found if it was there at another key. -/
lemma find?_erase_eq_some :
    (map.erase key).find? other = some value ↔ other ≠ key ∧ map.find? other = some value := by
  by_cases same : key = other
  · subst same
    simp
  · rw [find?_erase_of_ne same]
    exact ⟨fun found => ⟨Ne.symm same, found⟩, And.right⟩

/-- A map contains the keys at which it has a value. -/
lemma contains_iff_exists : map.contains key = true ↔ ∃ value, map.find? key = some value := by
  rw [contains, Option.isSome_iff_exists]

/-- No key is listed twice. -/
lemma keys_nodup (map : OrderedMap K V) : map.keys.Nodup := by
  refine List.pairwise_map.mpr (map.ascending.imp fun less same => ?_)
  exact absurd (congrArg rank same) (Nat.ne_of_lt less)

/-- The entries are the keys with the values found at them. -/
lemma mem_entries_iff : (key, value) ∈ map.entries ↔ map.find? key = some value := by
  constructor
  · intro mem
    have unique : map.entries.find? (fun entry => rank entry.1 == rank key) = some (key, value) := by
      obtain ⟨before, after, split⟩ := List.append_of_mem mem
      rw [List.find?_eq_some_iff_append]
      refine ⟨by simp, before, after, split, ?_⟩
      intro entry early
      have less := map.ascending
      rw [split, List.pairwise_append] at less
      have := less.2.2 entry early (key, value) (by simp)
      simp only [Bool.not_eq_true', beq_eq_false_iff_ne]
      exact Nat.ne_of_lt this
    rw [find?, unique]
    rfl
  · intro found
    obtain ⟨entry, some_entry, rfl⟩ := Option.map_eq_some_iff.mp found
    have same : rank entry.1 = rank key := by
      simpa using List.find?_some some_entry
    obtain rfl : entry.1 = key := Ranked.rank_inj same
    exact List.mem_of_find?_eq_some some_entry

/-- Maps in which the same is found are equal. -/
lemma ext_find? {map other : OrderedMap K V} (same : ∀ key, map.find? key = other.find? key) :
    map = other := by
  have nodup (map : OrderedMap K V) : map.entries.Nodup := List.Nodup.of_map _ map.keys_nodup
  have perm : map.entries.Perm other.entries := by
    apply (List.perm_ext_iff_of_nodup (nodup map) (nodup other)).mpr
    intro entry
    rw [mem_entries_iff, mem_entries_iff, same]
  have entries : map.entries = other.entries := by
    refine List.Perm.eq_of_pairwise ?_ map.ascending other.ascending perm
    intro a b _ _ less more
    exact absurd less (Nat.lt_asymm more)
  cases map
  cases other
  cases entries
  rfl

/-- The keys listed are those with a value. -/
lemma mem_keys_iff : key ∈ map.keys ↔ ∃ value, map.find? key = some value := by
  simp only [keys, List.mem_map, Prod.exists, exists_and_right, exists_eq_right, mem_entries_iff]

/-- A map built entry by entry on top of another one holds new entries and former ones only. -/
lemma find?_foldl_insert {entries : List (K × V)}
    (found : (entries.foldl (fun map entry => map.insert entry.1 entry.2) map).find? key = some value) :
    (key, value) ∈ entries ∨ map.find? key = some value := by
  induction entries generalizing map with
  | nil => exact Or.inr found
  | cons entry rest ih =>
    rcases ih found with mem | found
    · exact Or.inl (List.mem_cons_of_mem _ mem)
    · by_cases same : entry.1 = key
      · subst same
        rw [find?_insert_self] at found
        obtain rfl := Option.some.inj found
        exact Or.inl List.mem_cons_self
      · rw [find?_insert_of_ne same] at found
        exact Or.inr found

/-- What is found in a map made from a list is in the list. -/
lemma mem_of_find?_ofList {entries : List (K × V)} (found : (ofList entries).find? key = some value) :
    (key, value) ∈ entries := by
  rcases find?_foldl_insert found with mem | found
  · exact mem
  · exact absurd found (by simp [empty, find?])

/-- Entries whose keys do not come again are still found at the end. -/
lemma find?_foldl_insert_of_nodup {entries : List (K × V)} (nodup : (entries.map Prod.fst).Nodup)
    (known : (key, value) ∈ entries ∨ map.find? key = some value ∧ key ∉ entries.map Prod.fst) :
    (entries.foldl (fun map entry => map.insert entry.1 entry.2) map).find? key = some value := by
  induction entries generalizing map with
  | nil =>
    rcases known with mem | ⟨found, _⟩
    · cases mem
    · exact found
  | cons entry rest ih =>
    obtain ⟨fresh, nodup⟩ := List.nodup_cons.mp nodup
    apply ih nodup
    rcases known with mem | ⟨found, absent⟩
    · rcases List.mem_cons.mp mem with rfl | mem
      · exact Or.inr ⟨find?_insert_self _ _ _, fresh⟩
      · exact Or.inl mem
    · rw [List.map_cons, List.mem_cons, not_or] at absent
      refine Or.inr ⟨?_, absent.2⟩
      rw [find?_insert_of_ne fun same => absent.1 same.symm]
      exact found

/-- A map built from a list without repeated keys holds exactly the entries of the list. -/
lemma find?_ofList_iff {entries : List (K × V)} (nodup : (entries.map Prod.fst).Nodup) :
    (ofList entries).find? key = some value ↔ (key, value) ∈ entries :=
  ⟨mem_of_find?_ofList, fun mem => find?_foldl_insert_of_nodup nodup (Or.inl mem)⟩

end OrderedMap

namespace OrderedSet

variable {K : Type} [Ranked K] {set other : OrderedSet K} {k member : K}

/-- The empty set has no members. -/
@[simp]
lemma not_mem_empty (k : K) : k ∉ (∅ : OrderedSet K) := by
  intro mem
  cases mem

/-- The test of membership fails exactly for what is no member. -/
lemma contains_eq_false_iff : set.contains k = false ↔ k ∉ set := by
  rw [← Bool.not_eq_true, contains_iff]

/-- The list of a set has its members. -/
lemma mem_toList : k ∈ set.toList ↔ k ∈ set := Iff.rfl

/-- No member is listed twice. -/
lemma toList_nodup (set : OrderedSet K) : set.toList.Nodup :=
  set.ascending.imp fun less same => absurd (congrArg rank same) (Nat.ne_of_lt less)

/-- A set is empty exactly if it has no members. -/
lemma isEmpty_iff : set.isEmpty = true ↔ ∀ k, k ∉ set := by
  rw [isEmpty, List.isEmpty_iff, List.eq_nil_iff_forall_not_mem]
  rfl

/-- Sets with the same members are equal. -/
lemma ext_mem {set other : OrderedSet K} (same : ∀ k, k ∈ set ↔ k ∈ other) : set = other := by
  have perm : set.toList.Perm other.toList :=
    (List.perm_ext_iff_of_nodup set.toList_nodup other.toList_nodup).mpr same
  have members : set.toList = other.toList := by
    refine List.Perm.eq_of_pairwise ?_ set.ascending other.ascending perm
    intro a b _ _ less more
    exact absurd less (Nat.lt_asymm more)
  cases set
  cases other
  cases members
  rfl

/-- A set without members is the empty set. -/
lemma eq_empty_of_forall_not_mem (none_member : ∀ k, k ∉ set) : set = ∅ :=
  ext_mem fun k => iff_of_false (none_member k) (not_mem_empty k)

/-- Inserting a list adds all its items. -/
lemma mem_insertAll {members : List K} : k ∈ set.insertAll members ↔ k ∈ set ∨ k ∈ members := by
  induction members generalizing set with
  | nil => simp [insertAll]
  | cons head rest ih =>
    rw [insertAll, List.foldl_cons, ← insertAll, ih, mem_insert, List.mem_cons]
    tauto

/-- Erasing a list takes all its items out. -/
lemma mem_foldl_erase {members : List K} :
    k ∈ members.foldl erase set ↔ k ∈ set ∧ k ∉ members := by
  induction members generalizing set with
  | nil => simp
  | cons head rest ih =>
    rw [List.foldl_cons, ih, mem_erase, List.mem_cons, not_or, and_assoc]

/-- Members of a smaller set can be counted off against those of a larger one. -/
lemma size_le_of_subset (sub : ∀ k ∈ set, k ∈ other) : set.size ≤ other.size :=
  (set.toList_nodup.subperm fun k mem => sub k mem).length_le

/-- Inserting an item that is not in the list makes it longer by one. -/
lemma length_insertMember {members : List K} (absent : member ∉ members) :
    (insertMember member members).length = members.length + 1 := by
  induction members with
  | nil => rfl
  | cons head rest ih =>
    rw [List.mem_cons, not_or] at absent
    rw [insertMember]
    split
    · rfl
    · split
      · next same => exact absurd (Ranked.rank_inj same) absent.1
      · rw [List.length_cons, ih absent.2, List.length_cons]

/-- Inserting a new member makes the set larger by one. -/
lemma size_insert_of_not_mem (absent : k ∉ set) : (set.insert k).size = set.size + 1 :=
  length_insertMember absent

/-- Inserting makes a set larger by one at most. -/
lemma size_insert_le (set : OrderedSet K) (k : K) : (set.insert k).size ≤ set.size + 1 := by
  by_cases mem : k ∈ set
  · refine (size_le_of_subset fun l inside => ?_).trans (Nat.le_succ _)
    rcases mem_insert.mp inside with rfl | inside
    · exact mem
    · exact inside
  · exact (size_insert_of_not_mem mem).le

/-- A set of numbers below a bound has no more members than the bound. -/
lemma size_le_of_lt {numbers : OrderedSet Nat} {n : Nat} (lt : ∀ k ∈ numbers, k < n) :
    numbers.size ≤ n := by
  have sub : numbers.toList ⊆ List.range n := fun k mem => List.mem_range.mpr (lt k mem)
  have := (numbers.toList_nodup.subperm sub).length_le
  rwa [List.length_range] at this

end OrderedSet

end QubitRouting
