import QubitRouting.Json.Reader
import QubitRouting.Json.Writer
import QubitRouting.Proofs.Json.Token

/-!
# Values are read back

A value is read back from its tokens, whatever follows them, and so from its text. The number of tokens
is as deep as the calls go.
-/

namespace QubitRouting.Json

variable {rest : List Token} {fuel : Nat}

/-- What holds of a value if it holds of all that it is made of holds of every value. -/
@[elab_as_elim]
theorem induct {P : Json → Prop} (null : P null) (bool : ∀ value, P (bool value))
    (number : ∀ numeral, P (number numeral)) (string : ∀ literal, P (string literal))
    (array : ∀ items, (∀ item ∈ items, P item) → P (array items))
    (object : ∀ fields, (∀ field ∈ fields, P field.2) → P (object fields)) : ∀ value, P value
  | .null => null
  | .bool value => bool value
  | .number numeral => number numeral
  | .string literal => string literal
  | .array items => array items fun item _ => induct null bool number string array object item
  | .object fields => object fields fun field _ => induct null bool number string array object field.2
termination_by value => sizeOf value
decreasing_by
  · next mem =>
    have := List.sizeOf_lt_of_mem mem
    simp only [Json.array.sizeOf_spec]
    omega
  · next mem =>
    have := List.sizeOf_lt_of_mem mem
    obtain ⟨key, value⟩ := field
    simp only [Json.object.sizeOf_spec, Prod.mk.sizeOf_spec] at this ⊢
    omega

/-! ### Tokens -/

/-- A value has a token, and starts with no closing bracket. -/
lemma tokens_cons (value : Json) : ∃ token more, value.tokens = token :: more ∧ token ≠ .closeBracket := by
  cases value with
  | array items => exact ⟨.openBracket, _, by rw [tokens]; rfl, by simp⟩
  | object fields => exact ⟨.openBrace, _, by rw [tokens]; rfl, by simp⟩
  | _ => exact ⟨_, _, by rw [tokens], by simp⟩

/-- An item is followed by a comma and the next ones. -/
lemma itemTokens_cons_cons (item next : Json) (items : List Json) :
    itemTokens (item :: next :: items) = item.tokens ++ .comma :: itemTokens (next :: items) := by
  rw [itemTokens]
  simp

/-- Items do not begin with a closing bracket. -/
lemma itemTokens_cons (item : Json) (items : List Json) :
    ∃ token more, itemTokens (item :: items) = token :: more ∧ token ≠ .closeBracket := by
  obtain ⟨token, more, cons, opening⟩ := tokens_cons item
  cases items with
  | nil => exact ⟨token, more, by rw [itemTokens, cons], opening⟩
  | cons next items => exact ⟨token, _, by rw [itemTokens_cons_cons, cons]; rfl, opening⟩

/-- A field is followed by a comma and the next ones. -/
lemma fieldTokens_cons_cons (field next : Literal × Json) (fields : List (Literal × Json)) :
    fieldTokens (field :: next :: fields)
      = .string field.1 :: .colon :: (field.2.tokens ++ .comma :: fieldTokens (next :: fields)) := by
  rw [fieldTokens]
  · rfl
  · simp

/-- Fields begin with the name of the first one. -/
lemma fieldTokens_cons (field : Literal × Json) (fields : List (Literal × Json)) :
    ∃ more, fieldTokens (field :: fields) = .string field.1 :: more := by
  cases fields with
  | nil => exact ⟨_, by rw [fieldTokens]⟩
  | cons next fields => exact ⟨_, fieldTokens_cons_cons field next fields⟩

/-! ### Reading -/

/-- A value is read from its tokens, whatever follows. -/
def ReadsBack (value : Json) : Prop :=
  ∀ {fuel : Nat} {rest : List Token}, value.tokens.length ≤ fuel →
    readValue fuel (value.tokens ++ rest) = some (value, rest)

/-- The items of an array are read back, if each of them is. -/
lemma readItems_itemTokens {item : Json} {items : List Json} (reads : ∀ other ∈ item :: items, other.ReadsBack)
    (enough : (itemTokens (item :: items)).length < fuel) :
    readItems fuel (itemTokens (item :: items) ++ .closeBracket :: rest) = some (item :: items, rest) := by
  induction items generalizing item fuel with
  | nil =>
    obtain ⟨fuel, rfl⟩ : ∃ k, fuel = k + 1 := ⟨fuel - 1, by omega⟩
    rw [itemTokens] at enough ⊢
    simp [readItems, reads item List.mem_cons_self (Nat.le_of_lt_succ enough)]
  | cons next items ih =>
    obtain ⟨fuel, rfl⟩ : ∃ k, fuel = k + 1 := ⟨fuel - 1, by omega⟩
    rw [itemTokens_cons_cons] at enough ⊢
    rw [List.length_append, List.length_cons] at enough
    have first : item.tokens.length ≤ fuel := by omega
    have others : (itemTokens (next :: items)).length < fuel := by omega
    obtain ⟨read, reads⟩ := List.forall_mem_cons.mp reads
    simp [readItems, read first, ih reads others]

/-- The fields of an object are read back, if each of their values is. -/
lemma readFields_fieldTokens {field : Literal × Json} {fields : List (Literal × Json)}
    (reads : ∀ other ∈ field :: fields, other.2.ReadsBack)
    (enough : (fieldTokens (field :: fields)).length < fuel) :
    readFields fuel (fieldTokens (field :: fields) ++ .closeBrace :: rest)
      = some (field :: fields, rest) := by
  induction fields generalizing field fuel with
  | nil =>
    obtain ⟨fuel, rfl⟩ : ∃ k, fuel = k + 1 := ⟨fuel - 1, by omega⟩
    rw [fieldTokens, List.length_cons, List.length_cons] at enough
    have first : field.2.tokens.length ≤ fuel := by omega
    simp [fieldTokens, readFields, reads field List.mem_cons_self first]
  | cons next fields ih =>
    obtain ⟨fuel, rfl⟩ : ∃ k, fuel = k + 1 := ⟨fuel - 1, by omega⟩
    rw [fieldTokens_cons_cons] at enough ⊢
    simp only [List.length_append, List.length_cons] at enough
    have first : field.2.tokens.length ≤ fuel := by omega
    have others : (fieldTokens (next :: fields)).length < fuel := by omega
    obtain ⟨read, reads⟩ := List.forall_mem_cons.mp reads
    simp [readFields, read first, ih reads others]

/-- Every value is read back from its tokens. -/
lemma readsBack (value : Json) : value.ReadsBack := by
  induction value using induct with
  | array items ih =>
    intro fuel rest enough
    rw [tokens, List.length_append, List.length_cons, List.length_singleton] at enough
    obtain ⟨fuel, rfl⟩ : ∃ k, fuel = k + 1 := ⟨fuel - 1, by omega⟩
    cases items with
    | nil => simp [tokens, itemTokens, readValue]
    | cons item items =>
      have read : readItems fuel (itemTokens (item :: items) ++ .closeBracket :: rest)
          = some (item :: items, rest) := readItems_itemTokens ih (by omega)
      obtain ⟨token, more, cons, opening⟩ := itemTokens_cons item items
      rw [cons, List.cons_append] at read
      rw [tokens, cons]
      simp [readValue, opening, read]
  | object fields ih =>
    intro fuel rest enough
    rw [tokens, List.length_append, List.length_cons, List.length_singleton] at enough
    obtain ⟨fuel, rfl⟩ : ∃ k, fuel = k + 1 := ⟨fuel - 1, by omega⟩
    cases fields with
    | nil => simp [tokens, fieldTokens, readValue]
    | cons field fields =>
      have read : readFields fuel (fieldTokens (field :: fields) ++ .closeBrace :: rest)
          = some (field :: fields, rest) := readFields_fieldTokens ih (by omega)
      obtain ⟨more, cons⟩ := fieldTokens_cons field fields
      rw [cons, List.cons_append] at read
      rw [tokens, cons]
      simp [readValue, read]
  | _ =>
    intro fuel rest enough
    rw [tokens, List.length_singleton] at enough
    obtain ⟨fuel, rfl⟩ : ∃ k, fuel = k + 1 := ⟨fuel - 1, by omega⟩
    simp [tokens, readValue]

/-! ### Texts -/

/-- A value that can be written. -/
def Sound (value : Json) : Prop := ∀ token ∈ value.tokens, token.Sound

/-- The null value can be written. -/
lemma sound_null : null.Sound := by simp [Sound, tokens, Token.Sound]

/-- A truth value can be written. -/
lemma sound_bool (value : Bool) : (bool value).Sound := by simp [Sound, tokens, Token.Sound]

/-- A natural number can be written. -/
lemma sound_ofNat (n : Nat) : (ofNat n).Sound := by
  simpa [Sound, ofNat, tokens, Token.Sound] using Numeral.sound_ofNat n

/-- A text can be written. -/
lemma sound_text (value : String) : (text value).Sound := by
  simpa [Sound, text, tokens, Token.Sound] using closed_ofText value

/-- An array can be written if its items can. -/
lemma sound_array {items : List Json} (sound : ∀ item ∈ items, item.Sound) : (array items).Sound := by
  have inside : ∀ token ∈ itemTokens items, token.Sound := by
    induction items with
    | nil => simp [itemTokens]
    | cons item items ih =>
      obtain ⟨first, others⟩ := List.forall_mem_cons.mp sound
      cases items with
      | nil =>
        rw [itemTokens]
        exact first
      | cons next items =>
        rw [itemTokens_cons_cons]
        exact List.forall_mem_append.mpr ⟨first, List.forall_mem_cons.mpr ⟨trivial, ih others⟩⟩
  rw [Sound, tokens]
  exact List.forall_mem_append.mpr ⟨List.forall_mem_cons.mpr ⟨trivial, inside⟩, by simp [Token.Sound]⟩

/-- An object can be written if its names and values can. -/
lemma sound_object {fields : List (Literal × Json)}
    (sound : ∀ field ∈ fields, field.1.Closed ∧ field.2.Sound) : (object fields).Sound := by
  have inside : ∀ token ∈ fieldTokens fields, token.Sound := by
    induction fields with
    | nil => simp [fieldTokens]
    | cons field fields ih =>
      obtain ⟨⟨closed, first⟩, others⟩ := List.forall_mem_cons.mp sound
      cases fields with
      | nil =>
        rw [fieldTokens]
        exact List.forall_mem_cons.mpr ⟨closed, List.forall_mem_cons.mpr ⟨trivial, first⟩⟩
      | cons next fields =>
        rw [fieldTokens_cons_cons]
        refine List.forall_mem_cons.mpr ⟨closed, List.forall_mem_cons.mpr ⟨trivial, ?_⟩⟩
        exact List.forall_mem_append.mpr ⟨first, List.forall_mem_cons.mpr ⟨trivial, ih others⟩⟩
  rw [Sound, tokens]
  exact List.forall_mem_append.mpr ⟨List.forall_mem_cons.mpr ⟨trivial, inside⟩, by simp [Token.Sound]⟩

/-- An object with named fields can be written if their values can. -/
lemma sound_ofFields {fields : List (String × Json)} (sound : ∀ field ∈ fields, field.2.Sound) :
    (ofFields fields).Sound := by
  apply sound_object
  intro field mem
  obtain ⟨entry, member, rfl⟩ := List.mem_map.mp mem
  exact ⟨closed_ofText entry.1, sound entry member⟩

/-- What follows a value: tokens with no two numbers side by side, of which the first is none. -/
structure Follows (rest : List Token) : Prop where
  apart : Apart rest
  head : ∀ token, rest.head? = some token → token.isNumber = false

/-- A value may be followed by nothing. -/
lemma follows_nil : Follows [] := ⟨List.isChain_nil, by simp⟩

/-- A token other than a number keeps numbers apart. -/
lemma apart_cons {token : Token} (other : token.isNumber = false) (apart : Apart rest) :
    Apart (token :: rest) := by
  refine List.isChain_cons.mpr ⟨fun _ _ both => ?_, apart⟩
  rw [other] at both
  cases both.1

/-- A value may be followed by a token other than a number. -/
lemma follows_cons {token : Token} (other : token.isNumber = false) (apart : Apart rest) :
    Follows (token :: rest) := by
  refine ⟨apart_cons other apart, ?_⟩
  rintro _ ⟨⟩
  exact other

/-- The items of an array keep numbers apart if each item does. -/
lemma apart_itemTokens {items : List Json}
    (each : ∀ item ∈ items, ∀ {rest}, Follows rest → Apart (item.tokens ++ rest)) (follows : Follows rest) :
    Apart (itemTokens items ++ rest) := by
  induction items with
  | nil =>
    rw [itemTokens]
    exact follows.apart
  | cons item items ih =>
    obtain ⟨first, others⟩ := List.forall_mem_cons.mp each
    cases items with
    | nil =>
      rw [itemTokens]
      exact first follows
    | cons next items =>
      rw [itemTokens_cons_cons, List.append_assoc]
      exact first (follows_cons rfl (ih others))

/-- The fields of an object keep numbers apart if each value does. -/
lemma apart_fieldTokens {fields : List (Literal × Json)}
    (each : ∀ field ∈ fields, ∀ {rest}, Follows rest → Apart (field.2.tokens ++ rest))
    (follows : Follows rest) : Apart (fieldTokens fields ++ rest) := by
  induction fields with
  | nil =>
    rw [fieldTokens]
    exact follows.apart
  | cons field fields ih =>
    obtain ⟨first, others⟩ := List.forall_mem_cons.mp each
    cases fields with
    | nil =>
      rw [fieldTokens]
      exact apart_cons rfl (apart_cons rfl (first follows))
    | cons next fields =>
      rw [fieldTokens_cons_cons, List.cons_append, List.cons_append, List.append_assoc]
      exact apart_cons rfl (apart_cons rfl (first (follows_cons rfl (ih others))))

/-- No two numbers stand side by side in the tokens of a value and what follows it. -/
lemma apart_tokens (value : Json) (follows : Follows rest) : Apart (value.tokens ++ rest) := by
  induction value using induct generalizing rest with
  | array items ih =>
    rw [tokens, List.cons_append, List.cons_append, List.append_assoc]
    exact apart_cons rfl (apart_itemTokens ih (follows_cons rfl follows.apart))
  | object fields ih =>
    rw [tokens, List.cons_append, List.cons_append, List.append_assoc]
    exact apart_cons rfl (apart_fieldTokens ih (follows_cons rfl follows.apart))
  | number numeral =>
    rw [tokens]
    refine List.isChain_cons.mpr ⟨fun next head both => ?_, follows.apart⟩
    rw [follows.head next head] at both
    cases both.2
  | _ =>
    rw [tokens]
    exact apart_cons rfl follows.apart

/-- A value is read back from its text. -/
lemma parse?_compact {value : Json} (sound : value.Sound) : parse? value.compact = some value := by
  have apart := apart_tokens value follows_nil
  have read := @readsBack value _ [] (Nat.le_succ _)
  rw [List.append_nil] at apart read
  simp [parse?, compact, tokens?_flatMap sound apart, read]

end QubitRouting.Json
