import QubitRouting.Json.Record
import QubitRouting.Proofs.Collections
import QubitRouting.Proofs.Json.Value

/-!
# Records, variants and maps are read back

Each way of writing a composite value is undone by the way of reading it: a record by its field names, a
variant by its name, and a map by its keys, which are written as decimal digits and so without escapes.
-/

namespace QubitRouting

section Items

variable {α β : Type} {items : List α} {results : List β} {read : α → Option β}

/-- Items are read one by one. -/
lemma mapM_eq_some_iff :
    items.mapM read = some results ↔ List.Forall₂ (fun item result => read item = some result) items results := by
  induction items generalizing results with
  | nil => simp [eq_comm]
  | cons item items ih =>
    rw [List.mapM_cons, List.forall₂_cons_left_iff]
    simp only [← ih, Option.bind_eq_bind, Option.bind_eq_some_iff, Option.pure_def, Option.some.injEq]
    constructor
    · rintro ⟨first, read, others, reads, rfl⟩
      exact ⟨first, others, read, reads, rfl⟩
    · rintro ⟨first, others, read, reads, rfl⟩
      exact ⟨first, read, others, reads, rfl⟩

/-- If every item is read as it is meant, so is the list. -/
lemma mapM_eq_some_map {meant : α → β} (reads : ∀ item ∈ items, read item = some (meant item)) :
    items.mapM read = some (items.map meant) := by
  rw [mapM_eq_some_iff, List.forall₂_map_right_iff, List.forall₂_same]
  exact reads

/-- What is read is read from one of the items. -/
lemma exists_of_mem_mapM (reads : items.mapM read = some results) :
    ∀ result ∈ results, ∃ item ∈ items, read item = some result := by
  have paired := mapM_eq_some_iff.mp reads
  clear reads
  induction paired with
  | nil => simp
  | cons first _ ih =>
    intro result mem
    rcases List.mem_cons.mp mem with rfl | mem
    · exact ⟨_, List.mem_cons_self, first⟩
    · obtain ⟨item, member, found⟩ := ih result mem
      exact ⟨item, List.mem_cons_of_mem _ member, found⟩

/-- The items that pass a test which only one of them passes. -/
lemma filter_eq_singleton {test : α → Bool} {i : Nat} (bound : i < items.length)
    (only : ∀ j (h : j < items.length), test items[j] = true ↔ j = i) : items.filter test = [items[i]] := by
  have before : (items.take i).filter test = [] := by
    rw [List.filter_eq_nil_iff]
    intro item mem
    obtain ⟨j, h, rfl⟩ := List.mem_take_iff_getElem.mp mem
    rw [only]
    omega
  have after : (items.drop (i + 1)).filter test = [] := by
    rw [List.filter_eq_nil_iff]
    intro item mem
    obtain ⟨j, h, rfl⟩ := List.mem_drop_iff_getElem.mp mem
    rw [only]
    omega
  calc items.filter test
      = (items.take i ++ items[i] :: items.drop (i + 1)).filter test := by
        rw [← List.drop_eq_getElem_cons, List.take_append_drop]
    _ = [items[i]] := by
        rw [List.filter_append, List.filter_cons, before, after, if_pos ((only i bound).mpr rfl)]
        rfl

end Items

/-! ### Records -/

/-- Entries with the names of the fields, in order and each once, give every field its value. -/
lemma Fields.ofEntries?_fields {α : Type} {fields : List (String × α)}
    (nodup : (fields.map Prod.fst).Nodup) :
    ofEntries? (fields.map Prod.fst).length
        (fields.map fun field => ((fields.map Prod.fst).idxOf? field.1, field.2))
      = some (fields.map fun field => some field.2) := by
  -- names without repetitions are found at their own places
  have places : ∀ j (h : j < fields.length), (fields.map Prod.fst).idxOf? fields[j].1 = some j := by
    intro j h
    rw [List.idxOf?_eq_some_iff]
    have inside : j < (fields.map Prod.fst).length := by rwa [List.length_map]
    refine ⟨inside, by simp, ?_⟩
    intro k earlier same
    have equal : (fields.map Prod.fst)[k] = (fields.map Prod.fst)[j] := by rw [same, List.getElem_map]
    have := nodup.getElem_inj_iff.mp equal
    omega
  have values : (fields.map fun field => some field.2)
      = (List.range fields.length).map fun i => fields[i]?.map Prod.snd := by
    apply List.ext_getElem (by simp)
    intro i bound _
    rw [List.length_map] at bound
    simp [bound]
  rw [ofEntries?, values, List.length_map, mapM_eq_some_map]
  intro i mem
  have bound := List.mem_range.mp mem
  rw [filter_eq_singleton (i := i) (by simpa using bound)]
  · simp [bound]
  · intro j h
    rw [List.length_map] at h
    simp [places j h]

namespace Json

/-- A record is read back from its fields. -/
lemma record?_ofFields {names : List String} {fields : List (String × Json)}
    (keys : fields.map Prod.fst = names) (nodup : names.Nodup) :
    (ofFields fields).record? names = some (fields.map fun field => some field.2) := by
  subst keys
  have named : (fields.map fun field => (Literal.ofText field.1, field.2)).mapM
      (fun field => do return ((fields.map Prod.fst).idxOf? (← field.1.text?), field.2))
      = some (fields.map fun field => ((fields.map Prod.fst).idxOf? field.1, field.2)) := by
    rw [List.mapM_map]
    exact mapM_eq_some_map (by simp)
  exact (congrArg (· >>= Fields.ofEntries? _) named).trans (Fields.ofEntries?_fields nodup)

/-- A name alone is read as a variant without content. -/
@[simp]
lemma variant?_text (name : String) : (text name).variant? = some (name, none) := by
  simp [text, variant?]

/-- A single field is read as a variant with its content. -/
@[simp]
lemma variant?_ofFields (name : String) (content : Json) :
    (ofFields [(name, content)]).variant? = some (name, some content) := by
  simp [ofFields, variant?]

/-- A text is read back. -/
@[simp]
lemma toText?_text (value : String) : (text value).toText? = some value := text?_ofText value

/-! ### Numbers -/

/-- A number is read back. -/
@[simp]
lemma toNat?_ofNat (n : Nat) : (ofNat n).toNat? = some n := by
  simp [ofNat, Numeral.ofNat, toNat?, Numeral.toNat?]

/-- A bounded number is read exactly if a number is read and is below the bound. -/
lemma natBelow?_eq_some_iff {bound n : Nat} {value : Json} :
    value.natBelow? bound = some n ↔ value.toNat? = some n ∧ n < bound := by
  simp [natBelow?, Option.filter_eq_some_iff]

/-- A number below the bound is read back. -/
lemma natBelow?_ofNat {bound n : Nat} (less : n < bound) : (ofNat n).natBelow? bound = some n :=
  natBelow?_eq_some_iff.mpr ⟨toNat?_ofNat n, less⟩

/-- A 32-bit word is read back. -/
@[simp]
lemma toUInt32?_ofNat (word : UInt32) : (ofNat word.toNat).toUInt32? = some word := by
  simp [toUInt32?, natBelow?_ofNat word.toNat_lt]

/-- A 64-bit word is read back. -/
@[simp]
lemma toUInt64?_ofNat (word : UInt64) : (ofNat word.toNat).toUInt64? = some word := by
  simp [toUInt64?, natBelow?_ofNat word.toNat_lt]

/-! ### Maps -/

/-- No digit is escaped. -/
lemma escape_of_isDigit {c : Char} (digit : c.isDigit = true) : escape c = [c] := by
  have printed : ¬c < ' ' := by
    have low := (Char.isDigit_iff_toNat.mp digit).1
    intro control
    exact absurd (Nat.lt_of_le_of_lt low control) (by decide)
  have other {d : Char} (nondigit : d.isDigit = false) : c ≠ d := by
    rintro rfl
    rw [digit] at nondigit
    cases nondigit
  simp [escape, other, printed]

/-- Decimal digits are spelt as they are. -/
lemma spelling_ofText_toString (n : Nat) : (Literal.ofText (toString n)).spelling = Nat.toDigits 10 n := by
  have plain : ∀ c ∈ Nat.toDigits 10 n, escape c = [c] :=
    fun c mem => escape_of_isDigit (Numeral.isDigit_of_mem mem)
  calc (toString n).toList.flatMap escape
      = (Nat.toDigits 10 n).flatMap escape := by rw [Nat.toString_eq_repr, Nat.repr, String.toList_ofList]
    _ = Nat.toDigits 10 n := by rw [List.flatMap_congr plain, List.flatMap_singleton']

/-- A number is read back from the key that it is written as. -/
lemma keyBelow?_ofText {bound n : Nat} (less : n < bound) :
    keyBelow? bound (Literal.ofText (toString n)) = some n := by
  have sound := Numeral.sound_ofNat n
  have all : (Nat.toDigits 10 n).all Char.isDigit = true := List.all_eq_true.mpr sound.whole_digits
  have nonempty : Nat.toDigits 10 n ≠ [] := Nat.toDigits_ne_nil
  have unpadded : ¬((Nat.toDigits 10 n).head? = some '0' ∧ (Nat.toDigits 10 n).length ≠ 1) := by
    rintro ⟨zero, long⟩
    exact long (congrArg List.length (sound.no_leading_zero zero))
  simp only [keyBelow?, spelling_ofText_toString]
  simp [all, nonempty, unpadded, less]

/-- A key that is read is below the bound. -/
lemma lt_of_keyBelow? {bound n : Nat} {key : Literal} (read : keyBelow? bound key = some n) : n < bound := by
  simp only [keyBelow?] at read
  split at read
  · cases read
  · split at read
    · cases read
    · simpa using (Option.filter_eq_some_iff.mp read).2

end Json

/-- A map is the one made from its entries. -/
lemma OrderedMap.ofList_entries {K V : Type} [Ranked K] (map : OrderedMap K V) : ofList map.entries = map := by
  apply ext_find?
  intro key
  ext value
  rw [find?_ofList_iff map.keys_nodup, mem_entries_iff]

namespace Json

variable {K V : Type} [Ranked K] {readKey : Literal → Option K} {readValue : Json → Option V}

/-- The document of a map can be written if those of its values can. -/
lemma sound_ofMap {writeKey : K → Nat} {writeValue : V → Json} (sound : ∀ value, (writeValue value).Sound)
    (map : OrderedMap K V) : (ofMap writeKey writeValue map).Sound := by
  apply sound_ofFields
  intro field mem
  obtain ⟨entry, _, rfl⟩ := List.mem_map.mp mem
  exact sound entry.2

/-- A map is read back if all of its keys and values are. -/
lemma map?_ofMap {writeKey : K → Nat} {writeValue : V → Json} {map : OrderedMap K V}
    (reads : ∀ entry ∈ map.entries, readKey (.ofText (toString (writeKey entry.1))) = some entry.1 ∧
      readValue (writeValue entry.2) = some entry.2) :
    map? readKey readValue (ofMap writeKey writeValue map) = some map := by
  have entries : (map.entries.map fun entry =>
      (Literal.ofText (toString (writeKey entry.1)), writeValue entry.2)).mapM
      (fun entry => do return (← readKey entry.1, ← readValue entry.2)) = some map.entries := by
    rw [List.mapM_map]
    conv_rhs => rw [← List.map_id map.entries]
    apply mapM_eq_some_map
    intro entry mem
    obtain ⟨key, value⟩ := reads entry mem
    simp only [Function.comp_apply, key, value]
    rfl
  have fields : ofMap writeKey writeValue map = object (map.entries.map fun entry =>
      (Literal.ofText (toString (writeKey entry.1)), writeValue entry.2)) := by
    simp [ofMap, ofFields]
  rw [fields, map?]
  refine (congrArg (· >>= _) entries).trans ?_
  simp [OrderedMap.ofList_entries]

/-- A map that is read holds only what was read. -/
lemma exists_of_map? {value : Json} {map : OrderedMap K V} (read : map? readKey readValue value = some map) :
    ∀ entry ∈ map.entries, (∃ key, readKey key = some entry.1) ∧ ∃ value, readValue value = some entry.2 := by
  cases value with
  | object fields =>
    rw [map?] at read
    obtain ⟨entries, reads, same⟩ := Option.bind_eq_some_iff.mp read
    obtain rfl := Option.some.inj same
    intro entry mem
    have listed : entry ∈ entries := OrderedMap.mem_of_find?_ofList (OrderedMap.mem_entries_iff.mp mem)
    obtain ⟨field, _, found⟩ := exists_of_mem_mapM reads entry listed
    obtain ⟨key, readsKey, found⟩ := Option.bind_eq_some_iff.mp found
    obtain ⟨value, readsValue, found⟩ := Option.bind_eq_some_iff.mp found
    obtain rfl := Option.some.inj found
    exact ⟨⟨_, readsKey⟩, ⟨_, readsValue⟩⟩
  | _ => cases read

end Json

end QubitRouting
