import SpreadWatch.Proofs.Config.Escape

/-!
Times of day in texts. A time is written as an hour and a minute, each a word of decimal digits in
any scripts and of any length, with a colon between them. The reader takes these texts and refuses
all others as no time of day, but for two kinds of text with very long or very great numbers: a time
that is padded with thousands of zeros is refused, and an hour or a minute that does not fit into a
machine word fails in another way, which the check of a configuration does not expect.
-/

namespace SpreadWatch

namespace Text

variable {word : List Char} {number : ℕ}

/-- A word of decimal digits, of any scripts, and the number that it spells. The digits are listed
from the last to the first. -/
structure Spells (word : List Char) (number : ℕ) : Prop where
  begins : word ≠ []
  digits : ∃ digits, List.Forall₂ (fun c digit => digitValue? c = some digit) word.reverse digits ∧
    Nat.ofDigits 10 digits = number

theorem digits_value_append (word : List Char) (c : Char) :
    digitsValue? (word ++ [c]) = do return 10 * (← digitsValue? word) + (← digitValue? c) := by
  rw [digitsValue?, List.foldl_append]
  rfl

theorem digits_value_eq_some : digitsValue? word = some number ↔
    ∃ digits, List.Forall₂ (fun c digit => digitValue? c = some digit) word.reverse digits ∧
      Nat.ofDigits 10 digits = number := by
  induction word using List.reverseRecOn generalizing number with
  | nil => simp [digitsValue?, eq_comm]
  | append_singleton word c induction =>
      rw [digits_value_append, List.reverse_append, List.reverse_singleton, List.singleton_append]
      simp only [Option.bind_eq_bind, Option.pure_def, Option.bind_eq_some_iff, Option.some.injEq,
        List.forall₂_cons_left_iff]
      constructor
      · rintro ⟨total, spelled, last, digit, rfl⟩
        obtain ⟨digits, each, value⟩ := induction.mp spelled
        refine ⟨last :: digits, ⟨last, digits, digit, each, rfl⟩, ?_⟩
        rw [Nat.ofDigits_cons, value, Nat.add_comm]
      · rintro ⟨_, ⟨last, digits, digit, each, rfl⟩, value⟩
        refine ⟨Nat.ofDigits 10 digits, induction.mpr ⟨digits, each, rfl⟩, last, digit, ?_⟩
        rw [← value, Nat.ofDigits_cons, Nat.add_comm]

theorem Spells.digit (spells : Spells word number) {c : Char} (member : c ∈ word) :
    (digitValue? c).isSome = true := by
  obtain ⟨digits, each, -⟩ := spells.digits
  obtain ⟨lengths, values⟩ := List.forall₂_iff_get.mp each
  obtain ⟨index, bound, rfl⟩ := List.getElem_of_mem (List.mem_reverse.mpr member)
  exact Option.isSome_of_eq_some (values index bound (lengths ▸ bound))

end Text

namespace Report

open Text (Spells)

variable {text : String} {hours minutes word : List Char} {time : TimeOfDay} {number : ℕ}

/-- A text that writes an hour and a minute, which need not lie within a day. -/
structure Written (text : String) (hours minutes : List Char) (time : TimeOfDay) : Prop where
  text : text.toList = hours ++ ':' :: minutes
  hours : Spells hours time.hour
  minutes : Spells minutes time.minute

def TimeOfDay.InDay (time : TimeOfDay) : Prop := time.hour < 24 ∧ time.minute < 60

/-! ### One word -/

theorem read_digits_of_spelled (spells : Spells word number) (short : word.length ≤ longestNumber) :
    readDigits word = .ok number := by
  rw [readDigits, if_neg (not_lt.mpr short), Text.digits_value_eq_some.mpr spells.digits]

theorem read_digits_of_long (long : longestNumber < word.length) :
    readDigits word = .error (.reportTime .unreadable) := by
  rw [readDigits, if_pos long]

theorem read_digits_cases (begins : word ≠ []) :
    readDigits word = .error (.reportTime .unreadable) ∨
      ∃ number, Spells word number ∧ readDigits word = .ok number := by
  by_cases long : longestNumber < word.length
  · exact .inl (read_digits_of_long long)
  · cases value : Text.digitsValue? word with
    | none => exact .inl (by rw [readDigits, if_neg long, value])
    | some number =>
        have spells : Spells word number := ⟨begins, Text.digits_value_eq_some.mp value⟩
        exact .inr ⟨number, spells, read_digits_of_spelled spells (not_lt.mp long)⟩

theorem digit_word_of_spelled (spells : Spells word number) : isDigitWord word = true := by
  simp only [isDigitWord, Bool.and_eq_true, List.all_eq_true, Bool.not_eq_true',
    List.isEmpty_eq_false_iff]
  refine ⟨spells.begins, fun c member => ?_⟩
  rw [Text.isDigitLike, spells.digit member, Bool.true_or]

/-! ### Two words -/

/-- The colon is no digit, so the words are what stands before and behind the first one. -/
theorem Written.split (written : Written text hours minutes time) :
    text.toList.takeWhile (· != ':') = hours ∧
      (text.toList.dropWhile (· != ':')).drop 1 = minutes := by
  have colonless : ∀ c ∈ hours, (c != ':') = true := by
    intro c member
    rw [bne_iff_ne]
    rintro rfl
    have digit := written.hours.digit member
    revert digit
    decide
  rw [written.text, List.takeWhile_append_of_pos colonless, List.dropWhile_append_of_pos colonless]
  simp

/-- An hour and a minute as a time of day. Numbers that are too great to be looked at come first. -/
def TimeOfDay.ofNumbers (hour minute : ℕ) : Except Failure TimeOfDay :=
  if greatestArgument < hour ∨ greatestArgument < minute then .error .outOfRange
  else if 24 ≤ hour then .error (.reportTime .hour)
  else if 60 ≤ minute then .error (.reportTime .minute)
  else .ok { hour, minute }

theorem of_text_of_words (before : text.toList.takeWhile (· != ':') = hours)
    (behind : (text.toList.dropWhile (· != ':')).drop 1 = minutes) :
    TimeOfDay.ofText text =
      if isDigitWord hours && isDigitWord minutes then do
        TimeOfDay.ofNumbers (← readDigits hours) (← readDigits minutes)
      else .error (.reportTime (.malformed text)) := by
  subst before behind
  unfold TimeOfDay.ofText
  dsimp only
  cases isDigitWord _ && isDigitWord _ with
  | false => rfl
  | true =>
      cases readDigits (text.toList.takeWhile (· != ':')) with
      | error failure => rfl
      | ok hour =>
          cases readDigits ((text.toList.dropWhile (· != ':')).drop 1) with
          | error failure => rfl
          | ok minute =>
              simp only [TimeOfDay.ofNumbers, bind, Except.bind, Bool.not_true, Bool.false_eq_true,
                if_false, Bool.or_eq_true, decide_eq_true_eq]
              split_ifs <;> rfl

/-- Reading a written time: words that are too long come before the numbers. -/
theorem of_text_written (written : Written text hours minutes time) :
    TimeOfDay.ofText text =
      if longestNumber < hours.length ∨ longestNumber < minutes.length then
        .error (.reportTime .unreadable)
      else TimeOfDay.ofNumbers time.hour time.minute := by
  obtain ⟨before, behind⟩ := written.split
  rw [of_text_of_words before behind, digit_word_of_spelled written.hours,
    digit_word_of_spelled written.minutes]
  simp only [Bool.and_self, if_true]
  by_cases longHours : longestNumber < hours.length
  · rw [read_digits_of_long longHours, if_pos (.inl longHours)]
    rfl
  rw [read_digits_of_spelled written.hours (not_lt.mp longHours)]
  by_cases longMinutes : longestNumber < minutes.length
  · rw [read_digits_of_long longMinutes, if_pos (.inr longMinutes)]
    rfl
  · rw [read_digits_of_spelled written.minutes (not_lt.mp longMinutes),
      if_neg (not_or.mpr ⟨longHours, longMinutes⟩)]
    rfl

/-- What stands around the first colon, if something stands behind it. -/
theorem words_around_colon {chars : List Char} (begins : (chars.dropWhile (· != ':')).drop 1 ≠ []) :
    chars = chars.takeWhile (· != ':') ++ ':' :: (chars.dropWhile (· != ':')).drop 1 := by
  have parts := chars.takeWhile_append_dropWhile (p := (· != ':'))
  have stops := List.head?_dropWhile_not (· != ':') chars
  cases rest : chars.dropWhile (· != ':') with
  | nil => exact absurd (by rw [rest]; rfl) begins
  | cons mark after =>
      rw [rest] at stops parts
      have colon : mark = ':' := by simpa using stops
      subst colon
      exact parts.symm

theorem of_text_unwritten (unwritten : ∀ hours minutes time, ¬ Written text hours minutes time) :
    ∃ problem, TimeOfDay.ofText text = .error (.reportTime problem) := by
  rw [of_text_of_words rfl rfl]
  split_ifs with words
  · rw [Bool.and_eq_true] at words
    have begins : ∀ {word}, isDigitWord word = true → word ≠ [] := by
      rintro _ digits rfl
      cases digits
    refine ⟨.unreadable, ?_⟩
    rcases read_digits_cases (begins words.1) with unread | ⟨hour, spelled, read⟩
    · rw [unread]
      rfl
    rcases read_digits_cases (begins words.2) with unread | ⟨minute, spelledBehind, -⟩
    · rw [read, unread]
      rfl
    · have split := words_around_colon (begins words.2)
      exact absurd ⟨split, spelled, spelledBehind⟩ (unwritten _ _ ⟨hour, minute⟩)
  · exact ⟨_, rfl⟩

/-! ### Whole texts -/

/-- An hour or a minute is so great that its range is not looked at. -/
def Far (text : String) : Prop :=
  ∃ hours minutes time, Written text hours minutes time ∧
    hours.length ≤ longestNumber ∧ minutes.length ≤ longestNumber ∧
    (greatestArgument < time.hour ∨ greatestArgument < time.minute)

/-- A time within a day that is padded with so many zeros that it is not read. -/
def Padded (text : String) : Prop :=
  ∃ hours minutes time, Written text hours minutes time ∧ time.InDay ∧
    (longestNumber < hours.length ∨ longestNumber < minutes.length)

/-- Exactly the times within a day that a text writes are read, and all other texts are refused as
no time of day. -/
structure ReadAsWritten (text : String) : Prop where
  reads : ∀ time, TimeOfDay.ofText text = .ok time ↔
    time.InDay ∧ ∃ hours minutes, Written text hours minutes time
  refuses : ∀ failure, TimeOfDay.ofText text = .error failure → ∃ problem,
    failure = .reportTime problem

theorem of_text_far (far : Far text) : TimeOfDay.ofText text = .error .outOfRange := by
  obtain ⟨hours, minutes, time, written, shortHours, shortMinutes, great⟩ := far
  rw [of_text_written written, if_neg (by omega), TimeOfDay.ofNumbers, if_pos great]

theorem of_text_padded (padded : Padded text) :
    TimeOfDay.ofText text = .error (.reportTime .unreadable) := by
  obtain ⟨hours, minutes, time, written, -, long⟩ := padded
  rw [of_text_written written, if_pos long]

theorem of_numbers_in_day (inDay : time.InDay) :
    TimeOfDay.ofNumbers time.hour time.minute = .ok time := by
  obtain ⟨hour, minute⟩ := inDay
  have small : ¬ (greatestArgument < time.hour ∨ greatestArgument < time.minute) := by
    rw [greatestArgument]
    omega
  rw [TimeOfDay.ofNumbers, if_neg small, if_neg (by omega), if_neg (by omega)]

theorem of_numbers_outside (outside : ¬ time.InDay)
    (small : ¬ (greatestArgument < time.hour ∨ greatestArgument < time.minute)) :
    ∃ problem, TimeOfDay.ofNumbers time.hour time.minute = .error (.reportTime problem) := by
  rw [TimeOfDay.ofNumbers, if_neg small]
  by_cases late : 24 ≤ time.hour
  · exact ⟨.hour, if_pos late⟩
  · refine ⟨.minute, ?_⟩
    rw [TimeOfDay.InDay] at outside
    rw [if_neg late, if_pos (by omega)]

/-- A text writes one time only. -/
theorem Written.unique {otherHours otherMinutes : List Char} {other : TimeOfDay}
    (written : Written text hours minutes time)
    (rewritten : Written text otherHours otherMinutes other) : other = time := by
  have sameHours := rewritten.split.1.symm.trans written.split.1
  have sameMinutes := rewritten.split.2.symm.trans written.split.2
  subst sameHours sameMinutes
  have value : ∀ {word : List Char} {a b : ℕ}, Spells word a → Spells word b → a = b := by
    intro word a b first second
    have spelled := Text.digits_value_eq_some.mpr first.digits
    rw [Text.digits_value_eq_some.mpr second.digits] at spelled
    exact (Option.some.inj spelled).symm
  obtain ⟨hour, minute⟩ := time
  obtain ⟨otherHour, otherMinute⟩ := other
  have hour_eq : otherHour = hour := value rewritten.hours written.hours
  have minute_eq : otherMinute = minute := value rewritten.minutes written.minutes
  rw [hour_eq, minute_eq]

theorem ReadAsWritten.of_refused {problem : ReportTimeProblem}
    (refused : TimeOfDay.ofText text = .error (.reportTime problem))
    (outside : ∀ hours minutes time, Written text hours minutes time → ¬ time.InDay) :
    ReadAsWritten text := by
  constructor
  · intro time
    rw [refused]
    refine iff_of_false (fun answered => nomatch answered) ?_
    rintro ⟨inDay, hours, minutes, written⟩
    exact outside hours minutes time written inDay
  · intro failure failed
    rw [refused] at failed
    cases failed
    exact ⟨problem, rfl⟩

theorem ReadAsWritten.of_read (written : Written text hours minutes time) (inDay : time.InDay)
    (read : TimeOfDay.ofText text = .ok time) : ReadAsWritten text := by
  constructor
  · intro other
    rw [read]
    constructor
    · rintro ⟨⟩
      exact ⟨inDay, hours, minutes, written⟩
    · rintro ⟨-, _, _, rewritten⟩
      rw [written.unique rewritten]
  · intro failure failed
    rw [read] at failed
    cases failed

theorem read_as_written_of (near : ¬ Far text) (bare : ¬ Padded text) : ReadAsWritten text := by
  by_cases inside : ∃ hours minutes time, Written text hours minutes time ∧ time.InDay
  · obtain ⟨hours, minutes, time, written, inDay⟩ := inside
    have short : ¬ (longestNumber < hours.length ∨ longestNumber < minutes.length) :=
      fun long => bare ⟨hours, minutes, time, written, inDay, long⟩
    apply ReadAsWritten.of_read written inDay
    rw [of_text_written written, if_neg short, of_numbers_in_day inDay]
  · obtain ⟨problem, refused⟩ :
        ∃ problem, TimeOfDay.ofText text = .error (.reportTime problem) := by
      by_cases writes : ∃ hours minutes time, Written text hours minutes time
      · obtain ⟨hours, minutes, time, written⟩ := writes
        rw [of_text_written written]
        split_ifs with long
        · exact ⟨_, rfl⟩
        · apply of_numbers_outside
          · exact fun inDay => inside ⟨hours, minutes, time, written, inDay⟩
          · exact fun great => near ⟨hours, minutes, time, written, by omega, by omega, great⟩
      · exact of_text_unwritten fun hours minutes time written =>
          writes ⟨hours, minutes, time, written⟩
    exact .of_refused refused fun hours minutes time written inDay =>
      inside ⟨hours, minutes, time, written, inDay⟩

theorem far_of_out_of_range (out : TimeOfDay.ofText text = .error .outOfRange) : Far text := by
  by_contra near
  by_cases padded : Padded text
  · rw [of_text_padded padded] at out
    cases out
  · obtain ⟨problem, other⟩ := (read_as_written_of near padded).refuses _ out
    cases other

theorem read_as_written_iff (text : String) : ReadAsWritten text ↔ ¬ Far text ∧ ¬ Padded text := by
  constructor
  · intro asWritten
    constructor
    · intro far
      obtain ⟨problem, other⟩ := asWritten.refuses _ (of_text_far far)
      cases other
    · intro padded
      have refused := of_text_padded padded
      obtain ⟨hours, minutes, time, written, inDay, -⟩ := padded
      rw [(asWritten.reads time).mpr ⟨inDay, hours, minutes, written⟩] at refused
      cases refused
  · rintro ⟨near, bare⟩
    exact read_as_written_of near bare

end Report

/-! ### Times of day in a configuration -/

namespace Config

open Report

variable {text : String} {part : Value} {entries : Entries}

/-- A text that is not far is looked at, and accepted exactly if it is read. -/
theorem report_time_looked_at (near : TimeOfDay.ofText text ≠ .error .outOfRange) :
    ∃ accepted, isReportTime (.text text) = .ok accepted ∧
      (accepted = true ↔ ∃ time, TimeOfDay.ofText text = .ok time) := by
  have written : (Value.text text).written.bind TimeOfDay.ofText = TimeOfDay.ofText text := rfl
  rw [isReportTime, written]
  cases read : TimeOfDay.ofText text with
  | ok time => exact ⟨true, rfl, by simp⟩
  | error failure =>
      rcases time_fails_with text failure read with rfl | ⟨problem, rfl⟩
      · exact absurd read near
      · exact ⟨false, rfl, by simp⟩

/-- A check that always answers finds fault with its own field only. -/
theorem check_plain_findings (mapping : part.entries? = some entries) (accepted : Value → Bool)
    (field message : String) :
    ∃ findings, checkMember field part (fun value =>
        return findingUnless (accepted value) field message value) = .ok findings ∧
      ∀ finding ∈ findings, finding.field = field := by
  rw [check_member_of_entries mapping]
  cases Entries.get? entries field with
  | none => exact ⟨[], rfl, by simp⟩
  | some value =>
      refine ⟨_, rfl, ?_⟩
      intro finding member
      rw [findingUnless] at member
      split_ifs at member
      · cases member
      · rw [List.mem_singleton.mp member]

theorem check_summary_of_near (mapping : part.entries? = some entries)
    (given : entries.get? "report_time" = some (.text text))
    (near : TimeOfDay.ofText text ≠ .error .outOfRange) :
    ∃ findings, checkSummary part = .ok findings ∧
      ((∃ finding ∈ findings, finding.field = "report_time") ↔
        ∀ time, TimeOfDay.ofText text ≠ .ok time) := by
  obtain ⟨enabled, enabledChecked, enabledFields⟩ :=
    check_plain_findings mapping isBool "enabled" "Must be a boolean"
  obtain ⟨zone, zoneChecked, zoneFields⟩ :=
    check_plain_findings mapping isZoneName "timezone" "Must be an IANA time zone name"
  obtain ⟨accepted, looked, acceptedIff⟩ := report_time_looked_at near
  obtain ⟨own, timeChecked, owned⟩ : ∃ own, checkMember "report_time" part (fun value => do
        return findingUnless (← isReportTime value) "report_time"
          "Must be a wall-clock time formatted HH:MM" value) = .ok own ∧
      ((∃ finding ∈ own, finding.field = "report_time") ↔ accepted = false) := by
    rw [check_member_of_entries mapping, given]
    dsimp only
    rw [looked]
    refine ⟨_, rfl, ?_⟩
    cases accepted <;> simp [findingUnless]
  refine ⟨enabled ++ own ++ zone, ?_, ?_⟩
  · rw [checkSummary, enabledChecked, timeChecked, zoneChecked]
    rfl
  · have notEnabled : ∀ finding ∈ enabled, finding.field ≠ "report_time" := by
      intro finding member
      rw [enabledFields finding member]
      decide
    have notZone : ∀ finding ∈ zone, finding.field ≠ "report_time" := by
      intro finding member
      rw [zoneFields finding member]
      decide
    have refused : accepted = false ↔ ∀ time, TimeOfDay.ofText text ≠ .ok time := by
      rw [← Bool.not_eq_true, acceptedIff, not_exists]
    rw [← refused, ← owned]
    constructor
    · rintro ⟨finding, member, field⟩
      rcases List.mem_append.mp member with early | late
      · rcases List.mem_append.mp early with first | found
        · exact absurd field (notEnabled finding first)
        · exact ⟨finding, found, field⟩
      · exact absurd field (notZone finding late)
    · rintro ⟨finding, found, field⟩
      exact ⟨finding, List.mem_append_left _ (List.mem_append_right _ found), field⟩

theorem check_summary_of_far (mapping : part.entries? = some entries)
    (given : entries.get? "report_time" = some (.text text))
    (far : TimeOfDay.ofText text = .error .outOfRange) :
    checkSummary part = .error .outOfRange := by
  obtain ⟨enabled, enabledChecked, -⟩ :=
    check_plain_findings mapping isBool "enabled" "Must be a boolean"
  have looked : isReportTime (.text text) = .error .outOfRange := by
    have read : (Value.text text).written.bind TimeOfDay.ofText = .error .outOfRange := far
    rw [isReportTime, read]
  rw [checkSummary, enabledChecked, check_member_of_entries mapping "report_time", given]
  dsimp only
  rw [looked]
  rfl

/-- Exactly the times within a day that a text writes are read, and every other text is refused as
no time of day, unless the text writes an hour or a minute that does not fit into a machine word, or
pads a time with thousands of zeros. Of a text that is not read, the check of a configuration
reports the report time, but at a number that does not fit it fails. -/
theorem report_times_read_iff (text : String) :
    (ReadAsWritten text ↔ ¬ Far text ∧ ¬ Padded text) ∧
    (Far text → TimeOfDay.ofText text = .error .outOfRange) ∧
    (Padded text → TimeOfDay.ofText text = .error (.reportTime .unreadable)) ∧
    ∀ {part : Value} {entries : Entries}, part.entries? = some entries →
      entries.get? "report_time" = some (.text text) →
      (Far text → checkSummary part = .error .outOfRange) ∧
      (¬ Far text → ∃ findings, checkSummary part = .ok findings ∧
        ((∃ finding ∈ findings, finding.field = "report_time") ↔
          ∀ time, TimeOfDay.ofText text ≠ .ok time)) := by
  refine ⟨read_as_written_iff text, of_text_far, of_text_padded, ?_⟩
  intro part entries mapping given
  refine ⟨fun far => check_summary_of_far mapping given (of_text_far far), fun near => ?_⟩
  apply check_summary_of_near mapping given
  intro out
  exact near (far_of_out_of_range out)

def vastHour : String := "2147483648:00"

theorem vast_hour_far : Far vastHour := by
  have spelled : ∀ {word : List Char} {number : ℕ}, word ≠ [] →
      Text.digitsValue? word = some number → Text.Spells word number :=
    fun begins value => ⟨begins, Text.digits_value_eq_some.mp value⟩
  refine ⟨"2147483648".toList, "00".toList, ⟨2147483648, 0⟩, ⟨by decide, ?_, ?_⟩, by decide,
    by decide, .inl (by decide)⟩
  · exact spelled (by decide) (by decide +kernel)
  · exact spelled (by decide) (by decide +kernel)

theorem vast_hour_fails_check :
    Far vastHour ∧ ¬ ReadAsWritten vastHour ∧
      checkSummary (.dict [(.text "report_time", .text vastHour)]) = .error .outOfRange := by
  obtain ⟨iff, -, -, checked⟩ := report_times_read_iff vastHour
  refine ⟨vast_hour_far, fun asWritten => (iff.mp asWritten).1 vast_hour_far, ?_⟩
  exact (checked rfl rfl).1 vast_hour_far

/-- Its reading does not end as that of a text that is no time of day, and so the check of a
configuration does not report it. -/
theorem vast_hour_not_refused :
    TimeOfDay.ofText vastHour = .error .outOfRange ∧ ¬ ReadAsWritten vastHour ∧
      ∀ findings, checkSummary (.dict [(.text "report_time", .text vastHour)]) ≠ .ok findings := by
  have out := of_text_far vast_hour_far
  refine ⟨out, fun asWritten => ?_, fun findings answered => ?_⟩
  · obtain ⟨problem, other⟩ := asWritten.refuses _ out
    cases other
  · have failed : checkSummary (.dict [(.text "report_time", .text vastHour)]) =
        .error .outOfRange := check_summary_of_far rfl rfl out
    rw [failed] at answered
    cases answered

end Config

end SpreadWatch
