import Mathlib.Tactic
import QubitRouting.Json.Token

/-!
# Tokens are read back

A token is read back from its text, whatever follows, as long as that cannot be taken for a part of it.
Only a number can go on in what follows it. A string is closed if reading it stops at its own closing
quote: the spelling of every text is, because escaping leaves no quote, no lone backslash and no control
character.
-/

namespace QubitRouting

/-! ### Strings -/

namespace Json

/-- A spelling that ends where its closing quote stands. -/
def Literal.Closed (literal : Literal) : Prop :=
  ∀ rest, spanLiteral (literal.spelling ++ '"' :: rest) = some (literal.spelling, rest)

/-- The code of a control character is spelt with four hexadecimal digits. -/
lemma numberIn?_hexPair : ∀ n < 32, Text.numberIn? 16 ('0' :: '0' :: Text.hexPair n) = some n := by
  decide

/-- The ways a character is escaped. -/
lemma escape_cases (c : Char) :
    (∃ letter, escape c = ['\\', letter] ∧ letter ≠ 'u' ∧ unescape? letter = some c) ∨
    (∃ a b, escape c = ['\\', 'u', '0', '0', a, b] ∧ Text.numberIn? 16 ['0', '0', a, b] = some c.toNat) ∨
    (escape c = [c] ∧ c ≠ '"' ∧ c ≠ '\\' ∧ ¬c < ' ') := by
  unfold escape
  split
  · next h => exact .inl ⟨'"', rfl, by decide, by rw [h]; rfl⟩
  split
  · next h => exact .inl ⟨'\\', rfl, by decide, by rw [h]; rfl⟩
  split
  · next h => exact .inl ⟨'b', rfl, by decide, by rw [h]; rfl⟩
  split
  · next h => exact .inl ⟨'f', rfl, by decide, by rw [h]; rfl⟩
  split
  · next h => exact .inl ⟨'n', rfl, by decide, by rw [h]; rfl⟩
  split
  · next h => exact .inl ⟨'r', rfl, by decide, by rw [h]; rfl⟩
  split
  · next h => exact .inl ⟨'t', rfl, by decide, by rw [h]; rfl⟩
  split
  · next control => exact .inr (.inl ⟨_, _, rfl, numberIn?_hexPair c.toNat control⟩)
  · next quote backslash _ _ _ _ _ plain => exact .inr (.inr ⟨rfl, quote, backslash, plain⟩)

/-- Reading a spelling goes over an escaped character as a whole. -/
lemma spanLiteral_escape (c : Char) (text : List Char) :
    spanLiteral (escape c ++ text)
      = (spanLiteral text).map fun result => (escape c ++ result.1, result.2) := by
  rcases escape_cases c with ⟨letter, escaped, notU, meant⟩ | ⟨a, b, escaped, meant⟩ |
    ⟨escaped, _, backslash, plain⟩
  · rw [escaped]
    cases read : spanLiteral text <;> simp [spanLiteral, notU, meant, read]
  · rw [escaped]
    cases read : spanLiteral text <;> simp [spanLiteral, meant, read]
  · rw [escaped]
    cases read : spanLiteral text <;> simp [spanLiteral, backslash, plain, read]

/-- The spelling of a text is closed. -/
lemma closed_ofText (text : String) : (Literal.ofText text).Closed := by
  intro rest
  rw [Literal.ofText]
  induction text.toList with
  | nil => simp [spanLiteral]
  | cons c chars ih =>
    rw [List.flatMap_cons, List.append_assoc, spanLiteral_escape, ih]
    rfl

/-- An escaped character is decoded to its code. -/
lemma codes?_escape (c : Char) (text : List Char) :
    codes? (escape c ++ text) = (codes? text).map (c.toNat :: ·) := by
  rcases escape_cases c with ⟨letter, escaped, notU, meant⟩ | ⟨a, b, escaped, meant⟩ |
    ⟨escaped, _, backslash, _⟩
  · rw [escaped]
    cases read : codes? text <;> simp [codes?, notU, meant, read]
  · rw [escaped]
    cases read : codes? text <;> simp [codes?, meant, read]
  · rw [escaped]
    cases read : codes? text <;> simp [codes?, backslash, read]

/-- A character is no half of a surrogate pair. -/
lemma not_surrogate (c : Char) : isHighSurrogate c.toNat = false ∧ isLowSurrogate c.toNat = false := by
  have valid := c.valid
  simp only [isHighSurrogate, isLowSurrogate, Bool.and_eq_false_iff, decide_eq_false_iff_not]
  unfold UInt32.isValidChar Nat.isValidChar at valid
  unfold Char.toNat
  omega

/-- Characters are read back from their codes. -/
lemma charsOfCodes?_toNat : ∀ chars : List Char, charsOfCodes? (chars.map Char.toNat) = some chars
  | [] => rfl
  | [c] => by
    obtain ⟨high, low⟩ := not_surrogate c
    simp [charsOfCodes?, high, low]
  | c :: next :: rest => by
    obtain ⟨high, low⟩ := not_surrogate c
    have ih := charsOfCodes?_toNat (next :: rest)
    rw [List.map_cons] at ih
    simp [charsOfCodes?, high, low, ih]

/-- A text is read back from its spelling. -/
@[simp]
lemma text?_ofText (text : String) : (Literal.ofText text).text? = some text := by
  have codes : codes? (Literal.ofText text).spelling = some (text.toList.map Char.toNat) := by
    rw [Literal.ofText]
    induction text.toList with
    | nil => rfl
    | cons c chars ih =>
      rw [List.flatMap_cons, codes?_escape, ih]
      rfl
  simp [Literal.text?, codes, charsOfCodes?_toNat]

end Json

/-! ### Numerals -/

namespace Numeral

variable {numeral : Numeral} {rest : List Char}

/-- A numeral that can be written: digits before the point, without leading zeros, and digits after it. -/
structure Sound (numeral : Numeral) : Prop where
  whole_ne_nil : numeral.whole ≠ []
  whole_digits : ∀ c ∈ numeral.whole, c.isDigit = true
  no_leading_zero : numeral.whole.head? = some '0' → numeral.whole = ['0']
  fraction_digits : ∀ c ∈ numeral.fraction, c.isDigit = true

/-- The point and the digits after it. -/
def fractionPart (numeral : Numeral) : List Char :=
  if numeral.fraction.isEmpty then [] else '.' :: numeral.fraction

/-- The power of ten as it is written. -/
def exponentPart (numeral : Numeral) : List Char :=
  numeral.exponent.elim [] fun exponent =>
    'e' :: ExponentSign.always.write exponent ++ Nat.toDigits 10 exponent.natAbs

/-- A numeral is written as a sign, the digits before the point, those after it and the power of ten. -/
lemma write_eq (numeral : Numeral) :
    numeral.write .always = (if numeral.negative then ['-'] else []) ++ numeral.whole
      ++ numeral.fractionPart ++ numeral.exponentPart := by
  rw [write, fractionPart, exponentPart]
  cases numeral.exponent <;> rfl

/-- The digits after the point are missing, or begin with the point. -/
lemma fractionPart_cases (numeral : Numeral) :
    numeral.fractionPart = [] ∨ ∃ text, numeral.fractionPart = '.' :: text := by
  rw [fractionPart]
  split
  · exact .inl rfl
  · exact .inr ⟨_, rfl⟩

/-- The power of ten is missing, or begins with its letter. -/
lemma exponentPart_cases (numeral : Numeral) :
    numeral.exponentPart = [] ∨ ∃ text, numeral.exponentPart = 'e' :: text := by
  rw [exponentPart]
  cases numeral.exponent with
  | none => exact .inl rfl
  | some exponent => exact .inr ⟨_, rfl⟩

/-- The digits of a number stand for it. -/
@[simp]
lemma valueOf_toDigits (n : Nat) : valueOf (Nat.toDigits 10 n) = n :=
  Nat.ofDigitChars_toDigits (by decide) (by decide)

/-- The digits of a number are digits. -/
lemma isDigit_of_mem {n : Nat} {c : Char} (mem : c ∈ Nat.toDigits 10 n) : c.isDigit = true :=
  Nat.isDigit_of_mem_toDigits (by decide) (by decide) mem

/-- The digits of a number above zero do not start with a zero. -/
lemma head?_toDigits_ne_zero {n : Nat} (pos : n ≠ 0) : (Nat.toDigits 10 n).head? ≠ some '0' := by
  induction n using Nat.strongRecOn with
  | ind n ih =>
    rw [Nat.toDigits_eq_if (by decide)]
    split
    · next small =>
      interval_cases n <;> simp_all [Nat.digitChar]
    · next large =>
      rw [List.head?_append_of_ne_nil _ Nat.toDigits_ne_nil]
      exact ih (n / 10) (by omega) (by omega)

/-- Digits that start with no zero can stand before a point. -/
lemma sound_of_head? {negative : Bool} {whole fraction : List Char} {exponent : Option Int}
    (whole_ne_nil : whole ≠ []) (whole_digits : ∀ c ∈ whole, c.isDigit = true)
    (head : whole.head? ≠ some '0') (fraction_digits : ∀ c ∈ fraction, c.isDigit = true) :
    Sound { negative, whole, fraction, exponent } :=
  ⟨whole_ne_nil, whole_digits, fun zero => absurd zero head, fraction_digits⟩

/-- A numeral with nothing but a zero before the point can be written. -/
lemma sound_of_zero {negative : Bool} {fraction : List Char}
    (fraction_digits : ∀ c ∈ fraction, c.isDigit = true) : Sound { negative, whole := ['0'], fraction } :=
  ⟨by simp, by simp, fun _ => rfl, fraction_digits⟩

/-- The numeral of a natural number can be written. -/
lemma sound_ofNat (n : Nat) : (ofNat n).Sound := by
  by_cases zero : n = 0
  · subst zero
    exact sound_of_zero (by simp)
  · exact sound_of_head? Nat.toDigits_ne_nil (fun c mem => isDigit_of_mem mem) (head?_toDigits_ne_zero zero)
      (by simp)

/-- Zeros are digits. -/
lemma isDigit_of_mem_zeros {count : Nat} {c : Char} (mem : c ∈ zeros count) : c.isDigit = true := by
  rw [List.eq_of_mem_replicate mem]
  rfl

/-- Every layout of a decimal can be written. -/
lemma sound_layOut (style : Style) (negative : Bool) (decimal : Decimal) :
    (style.layOut negative decimal).Sound := by
  unfold Style.layOut
  have digits {c : Char} (mem : c ∈ Nat.toDigits 10 decimal.digits) : c.isDigit = true := isDigit_of_mem mem
  have taken {k : Nat} (pos : 0 < k) (nonzero : decimal.digits ≠ 0) {exponent : Option Int} :
      Sound { negative, whole := (Nat.toDigits 10 decimal.digits).take k,
              fraction := (Nat.toDigits 10 decimal.digits).drop k, exponent } := by
    refine sound_of_head? ?_ (fun c mem => digits (List.mem_of_mem_take mem)) ?_
      fun c mem => digits (List.mem_of_mem_drop mem)
    · simp [Nat.toDigits_ne_nil, Nat.ne_of_gt pos]
    · rw [List.head?_take, if_neg (Nat.ne_of_gt pos)]
      exact head?_toDigits_ne_zero nonzero
  dsimp only
  split
  · exact sound_of_zero (by simp)
  · next nonzero =>
    split
    · split
      · refine sound_of_zero fun c mem => ?_
        rcases List.mem_append.mp mem with mem | mem
        · exact isDigit_of_mem_zeros mem
        · exact digits mem
      · next right =>
        split
        · refine sound_of_head? (by simp [Nat.toDigits_ne_nil]) (fun c mem => ?_) ?_ (by simp)
          · rcases List.mem_append.mp mem with mem | mem
            · exact digits mem
            · exact isDigit_of_mem_zeros mem
          · rw [List.head?_append_of_ne_nil _ Nat.toDigits_ne_nil]
            exact head?_toDigits_ne_zero nonzero
        · exact taken (by omega) nonzero
    · exact taken Nat.one_pos nonzero

end Numeral

/-! ### Numbers -/

namespace Json

variable {numeral : Numeral} {digits rest : List Char}

/-- What follows a number and cannot be taken for a part of it. -/
def Stops (rest : List Char) : Prop :=
  ∀ c, rest.head? = some c → c.isDigit = false ∧ c ≠ '.' ∧ c ≠ 'e' ∧ c ≠ 'E'

/-- All digits are taken up to where something else follows. -/
lemma spanDigits_append (all : ∀ c ∈ digits, c.isDigit = true)
    (stops : ∀ c, rest.head? = some c → c.isDigit = false) : spanDigits (digits ++ rest) = (digits, rest) := by
  rw [spanDigits, List.span_eq_takeWhile_dropWhile, List.takeWhile_append_of_pos all,
    List.dropWhile_append_of_pos all]
  cases rest with
  | nil => simp
  | cons c rest => simp [stops c rfl]

/-- The digits before the point are read back. -/
lemma lexWhole_append (sound : numeral.Sound) (stops : ∀ c, rest.head? = some c → c.isDigit = false) :
    lexWhole (numeral.whole ++ rest) = some (numeral.whole, rest) := by
  have span := spanDigits_append sound.whole_digits stops
  obtain ⟨c, whole, cons⟩ := List.exists_cons_of_ne_nil sound.whole_ne_nil
  by_cases zero : c = '0'
  · have only := sound.no_leading_zero (by rw [cons, zero]; rfl)
    rw [only]
    rfl
  · rw [cons, List.cons_append] at span
    rw [cons, List.cons_append]
    simp [lexWhole, zero, span]

/-- The digits after the point are read back. -/
lemma lexFraction_append (sound : numeral.Sound)
    (stops : ∀ c, rest.head? = some c → c.isDigit = false ∧ c ≠ '.') :
    lexFraction (numeral.fractionPart ++ rest) = some (numeral.fraction, rest) := by
  rw [Numeral.fractionPart]
  cases fraction : numeral.fraction with
  | nil =>
    cases rest with
    | nil => rfl
    | cons c rest => simp [lexFraction, (stops c rfl).2]
  | cons c digits =>
    have span := spanDigits_append (fraction ▸ sound.fraction_digits) fun c head => (stops c head).1
    rw [List.cons_append] at span
    simp [lexFraction, span]

/-- The digits of the power of ten are read back, with its sign. -/
lemma lexExponentDigits_append (negative : Bool) (n : Nat)
    (stops : ∀ c, rest.head? = some c → c.isDigit = false) :
    lexExponentDigits negative (Nat.toDigits 10 n ++ rest)
      = some (some (if negative then -(n : Int) else n), rest) := by
  have all : ∀ c ∈ Nat.toDigits 10 n, c.isDigit = true := fun c mem => Numeral.isDigit_of_mem mem
  have nonempty : Nat.toDigits 10 n ≠ [] := Nat.toDigits_ne_nil
  have span := spanDigits_append all stops
  have value := Numeral.valueOf_toDigits n
  obtain ⟨c, digits, cons⟩ := List.exists_cons_of_ne_nil nonempty
  rw [cons] at span value ⊢
  simp only [lexExponentDigits, span, value]

/-- The power of ten is read back. -/
lemma lexExponent_append (numeral : Numeral) (stops : Stops rest) :
    lexExponent (numeral.exponentPart ++ rest) = some (numeral.exponent, rest) := by
  rw [Numeral.exponentPart]
  cases numeral.exponent with
  | none =>
    cases rest with
    | nil => rfl
    | cons c rest =>
      obtain ⟨_, _, lower, upper⟩ := stops c rfl
      simp [lexExponent, lower, upper]
  | some exponent =>
    have digits (negative : Bool) := lexExponentDigits_append negative exponent.natAbs
      fun c head => (stops c head).1
    by_cases negative : exponent < 0
    · simp [lexExponent, Numeral.ExponentSign.write, negative, digits, abs_of_neg negative]
    · simp [lexExponent, Numeral.ExponentSign.write, negative, digits, abs_of_nonneg (not_lt.mp negative)]

/-- A number is read back, unless what follows goes on with it. -/
lemma lexNumeral_write (sound : numeral.Sound) (stops : Stops rest) :
    lexNumeral (numeral.write .always ++ rest) = some (numeral, rest) := by
  have beforeExponent : ∀ c, (numeral.exponentPart ++ rest).head? = some c → c.isDigit = false ∧ c ≠ '.' := by
    intro c head
    rcases numeral.exponentPart_cases with nothing | ⟨text, something⟩
    · rw [nothing, List.nil_append] at head
      exact ⟨(stops c head).1, (stops c head).2.1⟩
    · rw [something] at head
      cases head
      exact ⟨rfl, by decide⟩
  have beforeFraction : ∀ c, (numeral.fractionPart ++ (numeral.exponentPart ++ rest)).head? = some c →
      c.isDigit = false := by
    intro c head
    rcases numeral.fractionPart_cases with nothing | ⟨text, something⟩
    · rw [nothing, List.nil_append] at head
      exact (beforeExponent c head).1
    · rw [something] at head
      cases head
      rfl
  have magnitude : lexMagnitude numeral.negative
      (numeral.whole ++ (numeral.fractionPart ++ (numeral.exponentPart ++ rest))) = some (numeral, rest) := by
    simp [lexMagnitude, lexWhole_append sound beforeFraction, lexFraction_append sound beforeExponent,
      lexExponent_append numeral stops]
  rw [Numeral.write_eq, List.append_assoc, List.append_assoc, List.append_assoc]
  cases negative : numeral.negative with
  | true =>
    rw [negative] at magnitude
    exact magnitude
  | false =>
    rw [negative] at magnitude
    -- the first digit is no sign
    obtain ⟨c, whole, cons⟩ := List.exists_cons_of_ne_nil sound.whole_ne_nil
    have digit := sound.whole_digits c (by simp [cons])
    have notMinus : c ≠ '-' := by
      rintro rfl
      cases digit
    rw [cons, List.cons_append] at magnitude ⊢
    simp [lexNumeral, notMinus, magnitude]

/-! ### Texts of tokens -/

variable {token : Token} {tokens : List Token}

/-- A token that can be written. -/
def Token.Sound : Token → Prop
  | number numeral => numeral.Sound
  | string literal => literal.Closed
  | _ => True

/-- Whether a token is a number. -/
def Token.isNumber : Token → Bool
  | number _ => true
  | _ => false

/-- No two numbers stand side by side. -/
def Apart (tokens : List Token) : Prop := tokens.IsChain fun a b => ¬(a.isNumber = true ∧ b.isNumber = true)

/-- A number starts with a minus sign or a digit. -/
lemma write_numeral_cons (sound : numeral.Sound) :
    ∃ c text, numeral.write .always = c :: text ∧ (c = '-' ∨ c.isDigit = true) := by
  rw [Numeral.write_eq]
  obtain ⟨c, whole, cons⟩ := List.exists_cons_of_ne_nil sound.whole_ne_nil
  have digit := sound.whole_digits c (by simp [cons])
  cases numeral.negative with
  | true => exact ⟨'-', _, rfl, .inl rfl⟩
  | false => exact ⟨c, _, by rw [cons]; rfl, .inr digit⟩

/-- What begins a number is none of the characters that do not. -/
lemma ne_of_start {c d : Char} (start : c = '-' ∨ c.isDigit = true) (other : d ≠ '-' ∧ d.isDigit = false) :
    c ≠ d := by
  rintro rfl
  rcases start with minus | digit
  · exact other.1 minus
  · rw [other.2] at digit
    cases digit

/-- What starts like a number is read as one. -/
lemma lexToken_of_start {c : Char} (start : c = '-' ∨ c.isDigit = true) (text : List Char) :
    lexToken (c :: text) = (lexNumeral (c :: text)).map fun result => (.number result.1, result.2) := by
  unfold lexToken
  split
  case h_11 => cases lexNumeral (c :: text) <;> rfl
  all_goals next same => exact absurd (List.cons.inj same).1 (ne_of_start start (by decide))

/-- A token is read back from its text. -/
lemma lexToken_write (sound : token.Sound) (stops : token.isNumber = true → Stops rest) :
    lexToken (token.write ++ rest) = some (token, rest) := by
  cases token with
  | number numeral =>
    obtain ⟨c, text, cons, start⟩ := write_numeral_cons sound
    have read := lexNumeral_write sound (stops rfl)
    rw [cons, List.cons_append] at read
    rw [Token.write, cons, List.cons_append, lexToken_of_start start, read]
    rfl
  | string literal =>
    have closed := sound rest
    simp [lexToken, Token.write, closed]
  | bool value => cases value <;> rfl
  | _ => rfl

/-- The first character of a token is no blank, and does not go on with a number unless the token is one. -/
lemma write_cons (sound : token.Sound) : ∃ c text, token.write = c :: text ∧ isBlank c = false ∧
    (token.isNumber = false → ∀ rest, Stops (c :: rest)) := by
  have stops {c : Char} (other : c.isDigit = false ∧ c ≠ '.' ∧ c ≠ 'e' ∧ c ≠ 'E') (rest : List Char) :
      Stops (c :: rest) := by
    rintro _ ⟨⟩
    exact other
  cases token with
  | number numeral =>
    obtain ⟨c, text, cons, start⟩ := write_numeral_cons sound
    have other {d : Char} (apart : d ≠ '-' ∧ d.isDigit = false) : c ≠ d := ne_of_start start apart
    refine ⟨c, text, cons, ?_, fun no => by cases no⟩
    simp [isBlank, other (d := ' ') (by decide), other (d := '\n') (by decide), other (d := '\r') (by decide),
      other (d := '\t') (by decide)]
  | bool value => cases value <;> exact ⟨_, _, rfl, rfl, fun _ => stops (by decide)⟩
  | _ => exact ⟨_, _, rfl, rfl, fun _ => stops (by decide)⟩

/-- Tokens that do not begin with a number stop a number before them. -/
lemma stops_flatMap (sound : ∀ token ∈ tokens, token.Sound)
    (apart : ∀ token, tokens.head? = some token → token.isNumber = false) :
    Stops (tokens.flatMap Token.write) := by
  cases tokens with
  | nil =>
    intro c head
    cases head
  | cons token rest =>
    obtain ⟨c, text, cons, _, stops⟩ := write_cons (sound token List.mem_cons_self)
    rw [List.flatMap_cons, cons]
    exact stops (apart token rfl) _

/-- Tokens are read back from what is written for them. -/
lemma lexTokens_flatMap {fuel : Nat} (sound : ∀ token ∈ tokens, token.Sound) (apart : Apart tokens)
    (enough : (tokens.flatMap Token.write).length ≤ fuel) :
    lexTokens fuel (tokens.flatMap Token.write) = some tokens := by
  induction tokens generalizing fuel with
  | nil => cases fuel <;> rfl
  | cons token rest ih =>
    obtain ⟨first, others⟩ := List.forall_mem_cons.mp sound
    obtain ⟨next, apart⟩ := List.isChain_cons.mp apart
    have stops : token.isNumber = true → Stops (rest.flatMap Token.write) := by
      intro number
      refine stops_flatMap others fun other head => ?_
      simpa [number] using next other head
    have read := lexToken_write first stops
    obtain ⟨c, text, cons, notBlank, _⟩ := write_cons first
    rw [List.flatMap_cons, cons, List.cons_append] at enough ⊢
    rw [cons, List.cons_append] at read
    rw [List.length_cons, List.length_append] at enough
    obtain ⟨fuel, rfl⟩ : ∃ k, fuel = k + 1 := ⟨fuel - 1, by omega⟩
    have shorter : (rest.flatMap Token.write).length ≤ fuel := by omega
    simp [lexTokens, notBlank, read, ih others apart shorter]

/-- Tokens are read back from their texts, one after the other. -/
lemma tokens?_flatMap (sound : ∀ token ∈ tokens, token.Sound) (apart : Apart tokens) :
    tokens? (tokens.flatMap Token.write) = some tokens :=
  lexTokens_flatMap sound apart le_rfl

end Json

end QubitRouting
