import Mathlib
import SpreadWatch.Decimal.Text

/-!
The written form of a decimal gives the decimal back: its sign, its coefficient and its exponent, or
its payload. Every written number is a numeral, that is, digits with an optional point and an
optional exponent, and a numeral is read for the digits on both sides of the point.
-/

namespace SpreadWatch.Decimal

/-! ### Digits -/

theorem word_value_digits (n : ℕ) : Text.wordValue (Text.decimalDigits n) = n :=
  Nat.ofDigitChars_toDigits (by omega) le_rfl

theorem word_value_zeros (count : ℕ) (digits : List Char) :
    Text.wordValue (List.replicate count '0' ++ digits) = Text.wordValue digits := by
  induction count with
  | zero => rfl
  | succ count induction => exact induction

theorem digit_of_digits {n : ℕ} {c : Char} (member : c ∈ Text.decimalDigits n) :
    c.isDigit = true :=
  Nat.isDigit_of_mem_toDigits (by omega) le_rfl member

theorem digits_ne_nil (n : ℕ) : Text.decimalDigits n ≠ [] := Nat.toDigits_ne_nil

def StopsDigits (chars : List Char) : Prop := ∀ c ∈ chars.head?, c.isDigit = false

theorem split_digits {digits rest : List Char} (allDigits : ∀ c ∈ digits, c.isDigit = true)
    (stops : StopsDigits rest) :
    (digits ++ rest).takeWhile Char.isDigit = digits ∧
      (digits ++ rest).dropWhile Char.isDigit = rest := by
  rw [List.takeWhile_append_of_pos allDigits, List.dropWhile_append_of_pos allDigits]
  cases rest with
  | nil => simp
  | cons c rest =>
      have stop : c.isDigit = false := stops c rfl
      simp [stop]

/-! ### The alphabet of numbers -/

def alphabet : List Char :=
  ['-', '+', '.', 'E', 'N', 'a', 'I', 'n', 'f', 'i', 't', 'y', 's', '0', '1', '2', '3', '4', '5',
    '6', '7', '8', '9']

theorem alphabet_plain {c : Char} (member : c ∈ alphabet) :
    Text.isBlank c = false ∧ c ≠ '_' ∧ plainChar? c = some c := by
  have all :
      alphabet.all (fun c => ! Text.isBlank c && c != '_' && plainChar? c == some c) = true :=
    by decide
  simpa [and_assoc] using List.all_eq_true.mp all c member

theorem digit_in_alphabet {c : Char} (digit : c.isDigit = true) : c ∈ alphabet := by
  have upper : c.toNat ≤ 57 := by
    simp only [Char.isDigit, Bool.and_eq_true, decide_eq_true_eq] at digit
    exact UInt32.le_iff_toNat_le.mp digit.2
  have each : ∀ n < 58, (Char.ofNat n).isDigit = true → Char.ofNat n ∈ alphabet := by decide
  have found := each c.toNat (by omega)
  rw [Char.ofNat_toNat] at found
  exact found digit

theorem lower_of_digit {c : Char} (digit : c.isDigit = true) : c.toLower = c := by
  have all : alphabet.all (fun c => ! c.isDigit || c.toLower == c) = true := by decide
  simpa [digit] using List.all_eq_true.mp all c (digit_in_alphabet digit)

theorem exponent_text_alphabet (exponent : ℤ) :
    ∀ c ∈ 'E' :: exponentText exponent, c ∈ alphabet := by
  intro c member
  rcases List.mem_cons.mp member with rfl | member
  · decide
  · rcases List.mem_cons.mp member with rfl | digit
    · split_ifs <;> decide
    · exact digit_in_alphabet (digit_of_digits digit)

/-! ### Numerals -/

def pointed (fraction : List Char) : List Char :=
  if fraction.isEmpty then [] else '.' :: fraction

inductive Numeral (chars : List Char) (coefficient : ℕ) (exponent : ℤ) : Prop
  | intro (whole fraction mark : List Char) (place : ℤ)
      (spelled : chars = whole ++ pointed fraction ++ mark)
      (begins : whole ≠ [])
      (digits : ∀ c ∈ whole ++ fraction, c.isDigit = true)
      (marked : readExponent? mark = some place)
      (ends : ∀ c ∈ mark.head?, c = 'E')
      (known : ∀ c ∈ mark, c ∈ alphabet)
      (value : Text.wordValue (whole ++ fraction) = coefficient)
      (scale : place - fraction.length = exponent)

theorem read_numeral {chars : List Char} {coefficient : ℕ} {exponent : ℤ}
    (numeral : Numeral chars coefficient exponent) (negative : Bool) :
    readFinite? negative chars = some (.finite negative coefficient exponent) := by
  obtain ⟨whole, fraction, mark, place, spelled, begins, digits, marked, ends, -, value, scale⟩ :=
    numeral
  have wholeDigits : ∀ c ∈ whole, c.isDigit = true := fun c member => digits c (by simp [member])
  have fractionDigits : ∀ c ∈ fraction, c.isDigit = true :=
    fun c member => digits c (by simp [member])
  have markStops : StopsDigits mark := by
    intro c first
    rw [ends c first]
    rfl
  have someWhole : whole.isEmpty = false := by simpa using begins
  unfold readFinite?
  cases fraction with
  | nil =>
      obtain ⟨taken, left⟩ := split_digits wholeDigits markStops
      simp only [spelled, pointed, List.isEmpty_nil, if_true, List.append_nil, taken, left]
      cases mark with
      | nil => simp [someWhole, marked, ← value, ← scale]
      | cons c rest =>
          obtain rfl : c = 'E' := ends c rfl
          simp [someWhole, marked, ← value, ← scale]
  | cons first others =>
      have pointStops : StopsDigits ('.' :: (first :: others ++ mark)) := by
        rintro c ⟨⟩
        rfl
      obtain ⟨taken, left⟩ := split_digits wholeDigits pointStops
      obtain ⟨fractionTaken, fractionLeft⟩ := split_digits fractionDigits markStops
      have spelled : chars = whole ++ ('.' :: (first :: others ++ mark)) := by
        simpa [pointed] using spelled
      simp only [spelled, taken, left, fractionTaken, fractionLeft, someWhole, Bool.false_and,
        Bool.false_eq_true, if_false, marked, Option.map_some, ← value, ← scale]

theorem read_exponent_text (exponent : ℤ) :
    readExponent? ('E' :: exponentText exponent) = some exponent := by
  have begins : (Text.decimalDigits exponent.natAbs).isEmpty = false := by
    simpa using digits_ne_nil exponent.natAbs
  have digits : (Text.decimalDigits exponent.natAbs).all Char.isDigit = true :=
    List.all_eq_true.mpr fun c => digit_of_digits
  unfold readExponent? exponentText
  by_cases negative : exponent < 0
  · simp [negative, readSign, begins, digits, word_value_digits, abs_of_neg negative]
  · have nonneg := not_lt.mp negative
    simp [negative, readSign, begins, digits, word_value_digits, abs_of_nonneg nonneg]

theorem numeral_alphabet {chars : List Char} {coefficient : ℕ} {exponent : ℤ}
    (numeral : Numeral chars coefficient exponent) : ∀ c ∈ chars, c ∈ alphabet := by
  obtain ⟨whole, fraction, mark, place, spelled, -, digits, -, -, known, -, -⟩ := numeral
  have point : ∀ c ∈ pointed fraction, c = '.' ∨ c ∈ fraction := by
    intro c member
    unfold pointed at member
    split_ifs at member
    · cases member
    · exact List.mem_cons.mp member
  intro c member
  simp only [spelled, List.mem_append] at member
  rcases member with (early | middle) | late
  · exact digit_in_alphabet (digits c (by simp [early]))
  · rcases point c middle with rfl | middle
    · decide
    · exact digit_in_alphabet (digits c (by simp [middle]))
  · exact known c late

theorem numeral_unsigned {chars : List Char} {coefficient : ℕ} {exponent : ℤ}
    (numeral : Numeral chars coefficient exponent) : ∀ c ∈ chars.head?, c ≠ '-' ∧ c ≠ '+' := by
  obtain ⟨whole, fraction, mark, place, spelled, begins, digits, -⟩ := numeral
  intro c first
  cases whole with
  | nil => exact absurd rfl begins
  | cons digit rest =>
      have same : digit = c := by simpa [spelled] using first
      have isDigit := digits digit (by simp)
      rw [same] at isDigit
      constructor <;> rintro rfl <;> cases isDigit

theorem magnitude_text_numeral (coefficient : ℕ) (exponent : ℤ) :
    Numeral (magnitudeText coefficient exponent) coefficient exponent := by
  have digits : ∀ c ∈ Text.decimalDigits coefficient, c.isDigit = true := fun c => digit_of_digits
  have value := word_value_digits coefficient
  have nonempty := digits_ne_nil coefficient
  unfold magnitudeText
  dsimp only
  generalize Text.decimalDigits coefficient = written at *
  have positive : 0 < written.length := List.length_pos_iff.mpr nonempty
  split_ifs with positional whole leading short
  · exact .intro written [] [] 0 (by simp [pointed]) nonempty (by simpa using digits) rfl (by simp)
      (by simp) (by simpa using value) (by simp [whole])
  · -- The point stands among the digits, `exponent` places from the last.
    obtain ⟨k, kept⟩ : ∃ k : ℕ, (exponent + written.length - 1 + 1).toNat = k := ⟨_, rfl⟩
    have places : (k : ℤ) = exponent + written.length := by omega
    have fraction : (written.drop k).isEmpty = false := by
      simp only [List.isEmpty_eq_false_iff, ne_eq, List.drop_eq_nil_iff]
      omega
    rw [kept]
    refine .intro (written.take k) (written.drop k) [] 0 (by simp [pointed, fraction]) ?_
      (by simpa using digits) rfl (by simp) (by simp) (by simpa using value) ?_
    · simp only [ne_eq, List.take_eq_nil_iff]
      rintro (none | none)
      · omega
      · exact nonempty none
    · rw [List.length_drop]
      omega
  · -- The first digit stands behind the point and `zeros` zeros.
    obtain ⟨zeros, counted⟩ :
        ∃ zeros : ℕ, (-(exponent + written.length - 1) - 1).toNat = zeros := ⟨_, rfl⟩
    rw [counted]
    refine .intro ['0'] (List.replicate zeros '0' ++ written) [] 0 (by simp [pointed, nonempty])
      (by simp) ?_ rfl (by simp) (by simp) ?_ ?_
    · intro c member
      simp only [List.cons_append, List.nil_append, List.mem_cons, List.mem_append,
        List.mem_replicate] at member
      rcases member with rfl | ⟨-, rfl⟩ | member
      · rfl
      · rfl
      · exact digits c member
    · exact (word_value_zeros 1 _).trans ((word_value_zeros zeros written).trans value)
    · rw [List.length_append, List.length_replicate]
      omega
  · have single : written.take 1 = written := List.take_of_length_le short
    refine .intro written [] ('E' :: exponentText (exponent + written.length - 1)) _
      (by simp [pointed, single]) nonempty (by simpa using digits) (read_exponent_text _) (by simp)
      (exponent_text_alphabet _) (by simpa using value) ?_
    simp only [List.length_nil]
    omega
  · have halves : written.take 1 ++ written.drop 1 = written := List.take_append_drop 1 written
    refine .intro (written.take 1) (written.drop 1)
      ('E' :: exponentText (exponent + written.length - 1)) _ ?_ (by simpa using nonempty)
      (by rwa [halves]) (read_exponent_text _) (by simp) (exponent_text_alphabet _)
      (by rwa [halves]) ?_
    · have more : (written.drop 1).isEmpty = false := by
        simp only [List.isEmpty_eq_false_iff, ne_eq, List.drop_eq_nil_iff]
        omega
      simp only [pointed, more, Bool.false_eq_true, if_false, List.append_assoc]
    · rw [List.length_drop]
      omega

/-! ### Whole texts -/

theorem to_chars_alphabet (d : Decimal) : ∀ c ∈ d.toChars, c ∈ alphabet := by
  have sign : ∀ negative : Bool, (if negative then ['-'] else []) ⊆ alphabet := by decide
  have infinity : "Infinity".toList ⊆ alphabet := by decide
  have name : ∀ signaling : Bool, (if signaling then "sNaN" else "NaN").toList ⊆ alphabet := by
    decide
  intro c member
  cases d with
  | finite negative coefficient exponent =>
      rcases List.mem_append.mp member with early | late
      · exact sign negative early
      · exact numeral_alphabet (magnitude_text_numeral coefficient exponent) c late
  | infinite negative =>
      rcases List.mem_append.mp member with early | late
      · exact sign negative early
      · exact infinity late
  | nan negative signaling payload =>
      rcases List.mem_append.mp member with named | late
      · rcases List.mem_append.mp named with early | middle
        · exact sign negative early
        · exact name signaling middle
      · split_ifs at late
        · cases late
        · exact digit_in_alphabet (digit_of_digits late)

theorem trim_where_of_none {test : Char → Bool} {chars : List Char}
    (none : ∀ c ∈ chars, test c = false) : Text.trimWhere test chars = chars := by
  have kept : ∀ chars : List Char,
      (∀ c ∈ chars, test c = false) → chars.dropWhile test = chars := by
    intro chars none
    cases chars with
    | nil => rfl
    | cons c rest => simp [none c]
  rw [Text.trimWhere, kept chars none, kept chars.reverse (by simpa using none),
    List.reverse_reverse]

/-- A text of these characters is read as it stands. -/
theorem of_text_alphabet {chars : List Char} (known : ∀ c ∈ chars, c ∈ alphabet) :
    ofText (String.ofList chars) =
      match (readFinite? (readSign chars).1 (readSign chars).2).or
          (readSpecial? (readSign chars).1 (readSign chars).2) with
      | none => .error .conversionSyntax
      | some number => if inRange number then .ok number else .error .invalidOperation := by
  have trimmed : Text.trim chars = chars :=
    trim_where_of_none fun c member => (alphabet_plain (known c member)).1
  have kept : chars.filter (· != '_') = chars := by
    rw [List.filter_eq_self]
    intro c member
    simpa using (alphabet_plain (known c member)).2.1
  have plain : chars.mapM plainChar? = some chars := by
    clear trimmed kept
    induction chars with
    | nil => rfl
    | cons c rest induction =>
        have first := (alphabet_plain (known c (by simp))).2.2
        have others := induction fun c member => known c (by simp [member])
        simp [List.mapM_cons, first, others]
  cases read : (readFinite? (readSign chars).1 (readSign chars).2).or
      (readSpecial? (readSign chars).1 (readSign chars).2) with
  | none => simp only [ofText, String.toList_ofList, trimmed, kept, plain, read]
  | some number => simp only [ofText, String.toList_ofList, trimmed, kept, plain, read]

theorem read_sign_text (negative : Bool) {body : List Char}
    (unsigned : ∀ c ∈ body.head?, c ≠ '-' ∧ c ≠ '+') :
    readSign ((if negative then ['-'] else []) ++ body) = (negative, body) := by
  cases negative with
  | true => rfl
  | false =>
      cases body with
      | nil => rfl
      | cons c rest =>
          obtain ⟨minus, plus⟩ := unsigned c rfl
          simp [readSign, minus, plus]

theorem read_payload (payload : ℕ) :
    let digits := if payload = 0 then [] else Text.decimalDigits payload
    digits.map Char.toLower = digits ∧ digits.all Char.isDigit = true ∧
      Text.wordValue digits = payload := by
  dsimp only
  split_ifs with zero
  · exact ⟨rfl, rfl, zero.symm⟩
  · have digits : ∀ c ∈ Text.decimalDigits payload, c.isDigit = true := fun c => digit_of_digits
    refine ⟨?_, List.all_eq_true.mpr digits, word_value_digits payload⟩
    rw [List.map_congr_left fun c member => lower_of_digit (digits c member), List.map_id']

/-- A decimal in the range is read back from its text, down to the exponent or the payload. -/
theorem of_text_to_text {d : Decimal} (fits : inRange d = true) : ofText d.toText = .ok d := by
  rw [toText, of_text_alphabet (to_chars_alphabet d)]
  cases d with
  | finite negative coefficient exponent =>
      have numeral := magnitude_text_numeral coefficient exponent
      rw [toChars, read_sign_text negative (numeral_unsigned numeral), read_numeral numeral]
      simp [fits]
  | infinite negative =>
      rw [toChars, read_sign_text negative (by rintro c ⟨⟩; decide)]
      cases negative <;> rfl
  | nan negative signaling payload =>
      obtain ⟨lower, digits, value⟩ := read_payload payload
      have unread : ∀ rest, readFinite? negative ('N' :: rest) = none ∧
        readFinite? negative ('s' :: rest) = none := by
        intro rest
        exact ⟨rfl, rfl⟩
      rw [toChars, List.append_assoc]
      generalize (if payload = 0 then [] else Text.decimalDigits payload) = word at *
      cases signaling with
      | true =>
          rw [read_sign_text negative (by simp)]
          simp [unread, readSpecial?, lower, digits, value, inRange]
      | false =>
          rw [read_sign_text negative (by simp)]
          simp [unread, readSpecial?, lower, digits, value, inRange]

end SpreadWatch.Decimal
