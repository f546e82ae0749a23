import SpreadWatch.Calendar.ZoneTable
import SpreadWatch.Proofs.Decimal.Text
import SpreadWatch.Report.Schedule
import SpreadWatch.Value.Write

/-!
The texts of values that are no texts themselves. Such a text is made of the characters of numbers,
or begins in a way that tells its type, or has a blank in it. So it is neither a time of day nor the
name of a zone: these are only ever given as texts.
-/

namespace SpreadWatch

namespace Value

/-- The characters of numbers and dates, and of what stands for a value inside itself. -/
def numberChars : List Char := 'e' :: Decimal.alphabet

/-- What the text of a value that is neither a text nor a number can begin with. -/
def openers : List Char := ['N', 'T', 'F', 'b', '[', '(', '\x7b', 's', 'd', 'D', '\'', '"']

inductive Foreign (chars : List Char) : Prop
  | number (known : ∀ c ∈ chars, c ∈ numberChars)
  | opened {c : Char} {rest : List Char} (begins : chars = c :: rest) (opener : c ∈ openers)
  | spaced (blank : ' ' ∈ chars)

/-! ### The texts of numbers and dates -/

theorem digits_number (n : ℕ) : ∀ c ∈ Text.decimalDigits n, c ∈ numberChars := fun _ member =>
  List.mem_cons_of_mem _ (Decimal.digit_in_alphabet (Decimal.digit_of_digits member))

theorem zeros_number (count : ℕ) : ∀ c ∈ List.replicate count '0', c ∈ numberChars := by
  intro c member
  rw [List.eq_of_mem_replicate member]
  decide

theorem padded_number (width n : ℕ) : ∀ c ∈ Text.padded width n, c ∈ numberChars :=
  List.forall_mem_append.mpr ⟨zeros_number _, digits_number n⟩

theorem sign_number (negative : Bool) : ∀ c ∈ if negative then ['-'] else [], c ∈ numberChars := by
  cases negative <;> simp [numberChars, Decimal.alphabet]

theorem int_text_number (i : ℤ) : ∀ c ∈ (intText i).toList, c ∈ numberChars := by
  rw [intText, String.toList_ofList, List.forall_mem_append]
  have sign := sign_number (decide (i < 0))
  simp only [decide_eq_true_eq] at sign
  exact ⟨sign, digits_number _⟩

theorem int_text_foreign (i : ℤ) : Foreign (intText i).toList := .number (int_text_number i)

theorem positional_number {digits : List Char} (known : ∀ c ∈ digits, c ∈ numberChars)
    (point : ℤ) : ∀ c ∈ Binary64.positional digits point, c ∈ numberChars := by
  have zero : '0' ∈ numberChars := by decide
  have dot : '.' ∈ numberChars := by decide
  unfold Binary64.positional
  split_ifs
  · simp only [List.forall_mem_cons, List.forall_mem_append]
    exact ⟨zero, dot, zeros_number _, known⟩
  · simp only [List.forall_mem_cons, List.forall_mem_append]
    exact ⟨⟨known, zeros_number _⟩, dot, zero, by simp⟩
  · simp only [List.forall_mem_cons, List.forall_mem_append]
    exact ⟨fun c member => known c (List.mem_of_mem_take member), dot,
      fun c member => known c (List.mem_of_mem_drop member)⟩

theorem scientific_number {digits : List Char} (known : ∀ c ∈ digits, c ∈ numberChars)
    (exponent : ℤ) : ∀ c ∈ Binary64.scientific digits exponent, c ∈ numberChars := by
  have dot : '.' ∈ numberChars := by decide
  have fraction : ∀ c ∈ if digits.length ≤ 1 then [] else '.' :: digits.drop 1,
      c ∈ numberChars := by
    split_ifs
    · simp
    · rw [List.forall_mem_cons]
      exact ⟨dot, fun c member => known c (List.mem_of_mem_drop member)⟩
  unfold Binary64.scientific
  simp only [List.forall_mem_cons, List.forall_mem_append]
  refine ⟨⟨fun c member => known c (List.mem_of_mem_take member), fraction⟩, by decide, ?_,
    padded_number _ _⟩
  split_ifs <;> decide

theorem float_text_number (value : Binary64) : ∀ c ∈ value.toText.toList, c ∈ numberChars := by
  cases value with
  | nan => simp [Binary64.toText, numberChars, Decimal.alphabet]
  | infinite negative =>
      cases negative <;> simp [Binary64.toText, numberChars, Decimal.alphabet]
  | finite negative mantissa exponent =>
      rw [Binary64.toText, String.toList_ofList, List.forall_mem_append]
      refine ⟨sign_number negative, ?_⟩
      unfold Binary64.magnitudeText
      extract_lets numerator denominator leading
      split_ifs
      · simp [numberChars, Decimal.alphabet]
      · split
        extract_lets strip digits point
        split_ifs
        · exact positional_number (digits_number _) _
        · exact scientific_number (digits_number _) _

theorem float_text_foreign (value : Binary64) : Foreign value.toText.toList :=
  .number (float_text_number value)

theorem decimal_text_foreign (value : Decimal) : Foreign value.toText.toList := by
  apply Foreign.number
  intro c member
  rw [Decimal.toText, String.toList_ofList] at member
  exact List.mem_cons_of_mem _ (Decimal.to_chars_alphabet value c member)

theorem date_text_foreign (date : Calendar.Date) : Foreign date.toText.toList := by
  apply Foreign.number
  have dash : '-' ∈ numberChars := by decide
  rw [Calendar.Date.toText, String.toList_ofList, Calendar.Date.toChars]
  simp only [List.forall_mem_cons, List.forall_mem_append]
  exact ⟨⟨padded_number _ _, dash, padded_number _ _⟩, dash, padded_number _ _⟩

theorem moment_text_foreign (m : Calendar.Moment) :
    Foreign (String.ofList (m.toChars ' ')).toList := by
  apply Foreign.spaced
  rw [String.toList_ofList, Calendar.Moment.toChars]
  simp

/-! ### The texts of other values -/

def ForeignMarks (around : List (ℕ × String)) : Prop :=
  ∀ label mark, around.lookup label = some mark → Foreign mark.toList

theorem opened_foreign {text : String} {c : Char} (begins : text.toList.head? = some c)
    (opener : c ∈ openers) : Foreign text.toList := by
  obtain ⟨rest, chars⟩ := List.head?_eq_some_iff.mp begins
  exact .opened chars opener

theorem elision_foreign (value : Value) : Foreign (elision value).toList := by
  unfold elision
  split
  · exact opened_foreign (by simp) (by decide : '[' ∈ openers)
  · exact opened_foreign (by simp) (by decide : '\x7b' ∈ openers)

theorem shown_moment_foreign (m : Calendar.Moment) : Foreign (shownMoment m).toList := by
  have begins : ∀ a b c : String, ("datetime.datetime(" ++ a ++ b ++ c ++ ")").toList.head? =
      some 'd' := by
    simp
  exact opened_foreign (begins _ _ _) (by decide)

/-- Only a knot is shown by what is inside it; any other value tells its type at once. -/
theorem shown_foreign {around : List (ℕ × String)} (marks : ForeignMarks around) :
    ∀ value : Value, Foreign (shownIn around value).toList
  | .knot label body => by
      rw [shownIn]
      cases found : around.lookup label with
      | some mark => exact marks label mark found
      | none =>
          refine shown_foreign ?_ body
          intro other mark known
          rw [List.lookup_cons] at known
          split at known
          · cases known
            exact elision_foreign body
          · exact marks other mark known
  | .null => opened_foreign (by simp [shownIn]) (by decide : 'N' ∈ openers)
  | .bool true => opened_foreign (by simp [shownIn]) (by decide : 'T' ∈ openers)
  | .bool false => opened_foreign (by simp [shownIn]) (by decide : 'F' ∈ openers)
  | .int value => by
      rw [shownIn]
      exact int_text_foreign value
  | .float value => by
      rw [shownIn]
      exact float_text_foreign value
  | .decimal value => opened_foreign (by simp [shownIn]) (by decide : 'D' ∈ openers)
  | .text value => by
      have mark : Text.quoteMark value.toList ∈ openers := by
        unfold Text.quoteMark
        split_ifs <;> decide
      exact opened_foreign (by simp [shownIn, Text.quoted]) mark
  | .bytes value => opened_foreign (by simp [shownIn, Text.quotedBytes]) (by decide : 'b' ∈ openers)
  | .list items => opened_foreign (by simp [shownIn]) (by decide : '[' ∈ openers)
  | .pair first second => opened_foreign (by simp [shownIn]) (by decide : '(' ∈ openers)
  | .set [] => opened_foreign (by simp [shownIn]) (by decide : 's' ∈ openers)
  | .set (first :: rest) => opened_foreign (by simp [shownIn]) (by decide : '\x7b' ∈ openers)
  | .dict entries => opened_foreign (by simp [shownIn]) (by decide : '\x7b' ∈ openers)
  | .date value => opened_foreign (by simp [shownIn, shownDate]) (by decide : 'd' ∈ openers)
  | .moment value => by
      rw [shownIn]
      exact shown_moment_foreign value
  | .back label => by
      rw [shownIn]
      cases found : around.lookup label with
      | some mark => exact marks label mark found
      | none => exact .number (by simp [numberChars, Decimal.alphabet])

/-- The text of a value is foreign unless the value is a text. -/
theorem text_or_foreign (value : Value) :
    (∃ word, value = .text word) ∨ Foreign value.toText.toList := by
  have unmarked : ForeignMarks [] := by simp [ForeignMarks]
  have shown := shown_foreign unmarked value
  cases value with
  | text word => exact .inl ⟨word, rfl⟩
  | decimal value => exact .inr (decimal_text_foreign value)
  | date value => exact .inr (date_text_foreign value)
  | moment value => exact .inr (moment_text_foreign value)
  | _ => exact .inr shown

end Value

/-! ### What is never foreign -/

open Value

/-- Two words of digits with a colon between them. -/
theorem Report.colon_between {chars : List Char}
    (hours : Report.isDigitWord (chars.takeWhile (· != ':')) = true)
    (minutes : Report.isDigitWord ((chars.dropWhile (· != ':')).drop 1) = true) :
    ':' ∈ chars ∧ ∀ c ∈ chars, c = ':' ∨ Text.isDigitLike c = true := by
  simp only [Report.isDigitWord, Bool.and_eq_true, List.all_eq_true] at hours minutes
  have parts := chars.takeWhile_append_dropWhile (p := (· != ':'))
  cases rest : chars.dropWhile (· != ':') with
  | nil =>
      rw [rest] at minutes
      simp at minutes
  | cons mark after =>
      have colon : mark = ':' := by
        have stops := List.head?_dropWhile_not (· != ':') chars
        rw [rest] at stops
        simpa using stops
      subst colon
      rw [rest] at parts minutes
      rw [← parts]
      refine ⟨by simp, fun c member => ?_⟩
      rcases List.mem_append.mp member with early | late
      · exact .inr (hours.2 c early)
      · rcases List.mem_cons.mp late with rfl | late
        · exact .inl rfl
        · exact .inr (minutes.2 c late)

theorem Report.time_of_foreign {text : String} (foreign : Foreign text.toList) :
    ∃ failure, Report.TimeOfDay.ofText text = .error failure := by
  have malformed : (Report.isDigitWord (text.toList.takeWhile (· != ':')) &&
      Report.isDigitWord ((text.toList.dropWhile (· != ':')).drop 1)) = false := by
    by_contra formed
    rw [Bool.not_eq_false, Bool.and_eq_true] at formed
    obtain ⟨colon, each⟩ := Report.colon_between formed.1 formed.2
    have odd : ∀ c ∈ ' ' :: openers, ¬ (c = ':' ∨ Text.isDigitLike c = true) := by
      have all : (' ' :: openers).all (fun c => c != ':' && ! Text.isDigitLike c) = true := by
        decide
      simpa using List.all_eq_true.mp all
    cases foreign with
    | number known => exact absurd (known ':' colon) (by decide)
    | @opened c rest begins opener =>
        exact (odd c (by simp [opener])) (each c (by rw [begins]; exact List.mem_cons_self))
    | spaced blank => exact (odd ' ' (by simp)) (each ' ' blank)
  refine ⟨.reportTime (.malformed text), ?_⟩
  simp only [Report.TimeOfDay.ofText, malformed]
  rfl

theorem Calendar.zone_of_foreign {text : String} (foreign : Foreign text.toList) :
    ∃ failure, Calendar.zoneNamed text = .error failure := by
  unfold zoneNamed
  split_ifs
  · exact ⟨_, rfl⟩
  · cases found : namedZones.find? (·.name == text) with
    | none => exact ⟨_, rfl⟩
    | some zone =>
        have named : zone.name = text := by simpa using List.find?_some found
        have member : text ∈ namedZones.map (·.name) :=
          named ▸ List.mem_map_of_mem (List.mem_of_find?_eq_some found)
        have native : (namedZones.map (·.name)).all (fun name =>
            name.toList.any (! numberChars.contains ·) &&
              (name.toList.take 1).all (! openers.contains ·) &&
              ! name.toList.contains ' ') = true := by
          decide
        obtain ⟨⟨⟨c, inside, odd⟩, head⟩, blankless⟩ :
            ((∃ c ∈ text.toList, c ∉ numberChars) ∧ ∀ c ∈ text.toList.take 1, c ∉ openers) ∧
              ' ' ∉ text.toList := by
          simpa using List.all_eq_true.mp native text member
        cases foreign with
        | number known => exact absurd (known c inside) odd
        | opened begins opener => exact absurd opener (head _ (by simp [begins]))
        | spaced blank => exact absurd blank blankless

end SpreadWatch
