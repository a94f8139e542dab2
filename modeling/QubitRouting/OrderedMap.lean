import QubitRouting.Ranked

/-!
# Ordered maps

A finite map held as its entries in ascending order of key. The order is part of the type, so two
maps with the same entries are equal.
-/

namespace QubitRouting

/-- A finite map from `K` to `V`: entries in strictly ascending order of key. -/
structure OrderedMap (K V : Type) [Ranked K] where
  /-- The entries, smallest key first. -/
  entries : List (K × V)
  /-- Keys ascend strictly, so no key occurs twice. -/
  ascending : entries.Pairwise fun a b => rank a.1 < rank b.1

namespace OrderedMap

variable {K V W : Type} [Ranked K]

/-- Put an entry in its place, in lieu of any entry with the same key. -/
def insertEntry (key : K) (value : V) : List (K × V) → List (K × V)
  | [] => [(key, value)]
  | (k, v) :: rest =>
    if rank key < rank k then (key, value) :: (k, v) :: rest
    else if rank key = rank k then (key, value) :: rest
    else (k, v) :: insertEntry key value rest

/-- Inserting adds no entry but the one that is inserted. -/
theorem mem_insertEntry {key : K} {value : V} {entry : K × V} {entries : List (K × V)}
    (h : entry ∈ insertEntry key value entries) : entry = (key, value) ∨ entry ∈ entries := by
  induction entries with
  | nil => simpa [insertEntry] using h
  | cons head rest ih =>
    obtain ⟨k, v⟩ := head
    simp only [insertEntry] at h
    split at h
    · simpa using h
    · split at h
      · simp only [List.mem_cons] at h ⊢
        exact h.imp_right Or.inr
      · simp only [List.mem_cons] at h ⊢
        rcases h with h | h
        · exact Or.inr (Or.inl h)
        · exact (ih h).imp_right Or.inr

/-- Inserting keeps the entries in ascending order of their keys. -/
theorem ascending_insertEntry (key : K) (value : V) {entries : List (K × V)}
    (h : entries.Pairwise fun a b => rank a.1 < rank b.1) :
    (insertEntry key value entries).Pairwise fun a b => rank a.1 < rank b.1 := by
  induction entries with
  | nil => simp [insertEntry]
  | cons head rest ih =>
    obtain ⟨k, v⟩ := head
    obtain ⟨before, tail⟩ := List.pairwise_cons.mp h
    simp only [insertEntry]
    split
    · next less =>
      refine List.pairwise_cons.mpr ⟨?_, h⟩
      intro entry mem
      rcases List.mem_cons.mp mem with rfl | mem
      · exact less
      · exact Nat.lt_trans less (before entry mem)
    · split
      · next same =>
        refine List.pairwise_cons.mpr ⟨?_, tail⟩
        intro entry mem
        have := before entry mem
        simp only at this ⊢
        omega
      · refine List.pairwise_cons.mpr ⟨?_, ih tail⟩
        intro entry mem
        rcases mem_insertEntry mem with rfl | mem
        · simp only
          omega
        · exact before entry mem

/-- The map without entries. -/
def empty : OrderedMap K V := ⟨[], List.Pairwise.nil⟩

instance : EmptyCollection (OrderedMap K V) := ⟨empty⟩

instance : Inhabited (OrderedMap K V) := ⟨empty⟩

instance [DecidableEq K] [DecidableEq V] : DecidableEq (OrderedMap K V) := fun a b =>
  if h : a.entries = b.entries then
    isTrue (by cases a; cases b; cases h; rfl)
  else
    isFalse fun same => h (congrArg entries same)

/-- The value stored at a key. -/
def find? (map : OrderedMap K V) (key : K) : Option V :=
  (map.entries.find? fun entry => rank entry.1 == rank key).map Prod.snd

/-- Nothing is found in the empty map. -/
@[simp]
theorem find?_empty (key : K) : (∅ : OrderedMap K V).find? key = none := rfl

/-- Store a value at a key. -/
def insert (map : OrderedMap K V) (key : K) (value : V) : OrderedMap K V :=
  ⟨insertEntry key value map.entries, ascending_insertEntry key value map.ascending⟩

/-- The entry list after an insertion gives the new value at its key and the former ones elsewhere. -/
theorem find?_insertEntry (key other : K) (value : V) (entries : List (K × V)) :
    ((insertEntry key value entries).find? fun entry => rank entry.1 == rank other)
      = if rank key = rank other then some (key, value)
        else entries.find? fun entry => rank entry.1 == rank other := by
  induction entries with
  | nil => by_cases h : rank key = rank other <;> simp [insertEntry, h]
  | cons head rest ih =>
    obtain ⟨k, v⟩ := head
    simp only [insertEntry]
    split
    · by_cases h : rank key = rank other <;> simp [List.find?_cons, h]
    · split
      · next same => by_cases h : rank key = rank other <;> simp [← same, h]
      · next other_key =>
        by_cases h : rank k = rank other
        · have : ¬rank key = rank other := fun same => other_key (same.trans h.symm)
          simp [h, this]
        · simp [h, ih]

/-- Storing a value changes what is found at its key and nothing else. -/
theorem find?_insert (map : OrderedMap K V) (key other : K) (value : V) :
    (map.insert key value).find? other
      = if rank key = rank other then some value else map.find? other := by
  simp only [find?, insert, find?_insertEntry]
  split <;> rfl

/-- Drop the entry at a key. -/
def erase (map : OrderedMap K V) (key : K) : OrderedMap K V :=
  ⟨map.entries.filter fun entry => rank entry.1 != rank key, map.ascending.filter _⟩

/-- Once the entries of a key are filtered out, nothing is found at it and all else as before. -/
theorem find?_filter_rank_ne (key other : K) (entries : List (K × V)) :
    ((entries.filter fun entry => rank entry.1 != rank key).find? fun entry =>
        rank entry.1 == rank other)
      = if rank key = rank other then none
        else entries.find? fun entry => rank entry.1 == rank other := by
  induction entries with
  | nil => simp
  | cons head rest ih =>
    by_cases same : rank head.1 = rank key
    · rw [List.filter_cons_of_neg (by simp [same]), ih]
      split
      · rfl
      · next ne => rw [List.find?_cons_of_neg (by simp [same, ne])]
    · rw [List.filter_cons_of_pos (by simp [same])]
      by_cases h : rank head.1 = rank other
      · have : ¬rank key = rank other := fun eq => same (h.trans eq.symm)
        simp [h, this]
      · rw [List.find?_cons_of_neg (by simp [h]), ih, List.find?_cons_of_neg (by simp [h])]

/-- Dropping an entry changes what is found at its key and nothing else. -/
theorem find?_erase (map : OrderedMap K V) (key other : K) :
    (map.erase key).find? other = if rank key = rank other then none else map.find? other := by
  simp only [find?, erase, find?_filter_rank_ne]
  split <;> rfl

/-- Whether a key has a value. -/
def contains (map : OrderedMap K V) (key : K) : Bool := (map.find? key).isSome

/-- The number of entries. -/
def size (map : OrderedMap K V) : Nat := map.entries.length

/-- The keys in ascending order. -/
def keys (map : OrderedMap K V) : List K := map.entries.map Prod.fst

/-- The map of a list of entries; a later entry replaces an earlier one with the same key. -/
def ofList (entries : List (K × V)) : OrderedMap K V :=
  entries.foldl (fun map entry => map.insert entry.1 entry.2) empty

end OrderedMap

end QubitRouting
