import Mathlib
import SpreadWatch.Json.Reader
import SpreadWatch.Json.Writer

/-!
Strings in JSON. Every character is written in printable ASCII, those beyond the 16-bit units as a
pair of units, and what stands between the quotes is read back as it was.
-/

namespace SpreadWatch.Json

def IsPrintable (c : Char) : Prop := 0x20 ≤ c.toNat ∧ c.toNat < 0x7F

instance (c : Char) : Decidable (IsPrintable c) := inferInstanceAs (Decidable (_ ∧ _))

/-! ### Units -/

theorem hex_digits_one {n : ℕ} (small : n < 16) : Text.hexDigits 1 n = [n.digitChar] := by
  rw [Text.hexDigits, Nat.toDigits_of_lt_base small]
  rfl

theorem hex_digits_succ (width n : ℕ) :
    Text.hexDigits (width + 2) n = Text.hexDigits (width + 1) (n / 16) ++ [(n % 16).digitChar] := by
  unfold Text.hexDigits
  by_cases small : n < 16
  · rw [Nat.toDigits_of_lt_base small, Nat.div_eq_of_lt small, Nat.mod_eq_of_lt small]
    simp [List.replicate_succ', Nat.digitChar]
  · rw [Nat.toDigits_of_base_le (by omega) (not_lt.mp small)]
    simp

theorem hex_digits_four {n : ℕ} (small : n < 0x10000) :
    Text.hexDigits 4 n = [(n / 4096).digitChar, (n / 256 % 16).digitChar, (n / 16 % 16).digitChar,
      (n % 16).digitChar] := by
  rw [hex_digits_succ, hex_digits_succ, hex_digits_succ, hex_digits_one (by omega),
    Nat.div_div_eq_div_mul n, Nat.div_div_eq_div_mul n]
  rfl

theorem unit_of_digits {n : ℕ} (small : n < 0x10000) (more : List Char) :
    unit? (Text.hexDigits 4 n ++ more) = some (n, more) := by
  have value : ∀ d < 16, (if d.digitChar.isDigit then some (d.digitChar.toNat - 48)
      else if 'a' ≤ d.digitChar.toLower ∧ d.digitChar.toLower ≤ 'f' then
        some (d.digitChar.toLower.toNat - 87)
      else none) = some d := by decide
  rw [hex_digits_four small]
  simp only [unit?, List.cons_append, List.nil_append, List.take_succ_cons, List.take_zero,
    List.length_cons, List.length_nil, if_true, List.foldlM_cons, List.foldlM_nil,
    value (n / 4096) (by omega), value (n / 256 % 16) (by omega), value (n / 16 % 16) (by omega),
    value (n % 16) (by omega)]
  simp
  omega

theorem unit_printable {n : ℕ} (small : n < 0x10000) :
    ∀ c ∈ unitEscape n, IsPrintable c := by
  have digit : ∀ d < 16, IsPrintable d.digitChar := by decide
  rw [unitEscape, hex_digits_four small]
  simp only [List.mem_cons, List.not_mem_nil, or_false]
  rintro c (rfl | rfl | rfl | rfl | rfl | rfl)
  · decide
  · decide
  · exact digit _ (by omega)
  · exact digit _ (by omega)
  · exact digit _ (by omega)
  · exact digit _ (by omega)

theorem char_not_surrogate (c : Char) : c.toNat < 0xD800 ∨ 0xDFFF < c.toNat ∧ c.toNat < 0x110000 :=
  c.valid

theorem unit_char_of_single {c : Char} (small : c.toNat < 0x10000) (more : List Char) :
    unitChar (Text.hexDigits 4 c.toNat ++ more) = .ok (c, more) := by
  have valid := char_not_surrogate c
  rw [unitChar, unit_of_digits small]
  dsimp only [required, bind, Except.bind]
  rw [if_neg (by omega), if_neg (by omega), Char.ofNat_toNat]
  rfl

theorem unit_char_of_pair {c : Char} {offset : ℕ} (code : c.toNat = 0x10000 + offset)
    (more : List Char) :
    unitChar (Text.hexDigits 4 (0xD800 + offset / 0x400) ++
      (unitEscape (0xDC00 + offset % 0x400) ++ more)) = .ok (c, more) := by
  have valid := char_not_surrogate c
  have whole : 0x10000 + (0xD800 + offset / 0x400 - 0xD800) * 0x400 +
      (0xDC00 + offset % 0x400 - 0xDC00) = c.toNat := by omega
  rw [unitChar, unit_of_digits (by omega)]
  dsimp only [required, bind, Except.bind, unitEscape, List.cons_append]
  rw [if_pos (by omega)]
  simp only [unit_of_digits (show 0xDC00 + offset % 0x400 < 0x10000 by omega)]
  rw [if_pos (by omega), whole, Char.ofNat_toNat]
  rfl

/-! ### Characters and strings -/

theorem char_of_code {c : Char} {code : ℕ} (same : c.toNat = code) : c = Char.ofNat code := by
  rw [← same, Char.ofNat_toNat]

/-- What may be written for a character: a letter behind a backslash, the character itself, or its
one or two units. -/
inductive Escape (c : Char) : List Char → Prop
  | letter {letter : Char} (named : letterEscapes.lookup letter = some c) (noUnit : letter ≠ 'u')
      (printable : IsPrintable letter) : Escape c ['\\', letter]
  | plain (printable : IsPrintable c) (noQuote : c ≠ '"') (noBackslash : c ≠ '\\') : Escape c [c]
  | unit (small : c.toNat < 0x10000) : Escape c (unitEscape c.toNat)
  | pair {offset : ℕ} (code : c.toNat = 0x10000 + offset) :
      Escape c (unitEscape (0xD800 + offset / 0x400) ++ unitEscape (0xDC00 + offset % 0x400))

theorem escape_of_char (c : Char) : Escape c (escapedChar c) := by
  unfold escapedChar
  dsimp only
  split_ifs with quote backslash newline ret tab backspace feed printable small
  · obtain rfl := beq_iff_eq.mp quote
    exact .letter rfl (by decide) (by decide)
  · obtain rfl := beq_iff_eq.mp backslash
    exact .letter rfl (by decide) (by decide)
  · obtain rfl := beq_iff_eq.mp newline
    exact .letter rfl (by decide) (by decide)
  · obtain rfl := beq_iff_eq.mp ret
    exact .letter rfl (by decide) (by decide)
  · obtain rfl := beq_iff_eq.mp tab
    exact .letter rfl (by decide) (by decide)
  · obtain rfl := char_of_code backspace
    exact .letter rfl (by decide) (by decide)
  · obtain rfl := char_of_code feed
    exact .letter rfl (by decide) (by decide)
  · exact .plain printable (fun same => quote (beq_iff_eq.mpr same))
      fun same => backslash (beq_iff_eq.mpr same)
  · exact .unit small
  · exact .pair (Nat.add_sub_cancel' (not_lt.mp small)).symm

theorem Escape.printable {c : Char} {written : List Char} (escape : Escape c written) :
    ∀ d ∈ written, IsPrintable d := by
  have valid := char_not_surrogate c
  cases escape with
  | letter _ _ printable =>
      intro d member
      rcases List.mem_pair.mp member with rfl | rfl
      · decide
      · exact printable
  | plain printable _ _ =>
      intro d member
      rwa [List.mem_singleton.mp member]
  | unit small => exact unit_printable small
  | pair code =>
      intro d member
      rcases List.mem_append.mp member with first | second
      · exact unit_printable (by omega) d first
      · exact unit_printable (by omega) d second

section Step

variable {fuel : ℕ} {more chars rest : List Char}

theorem string_rest_letter (later : stringRest fuel more = .ok (chars, rest)) {letter c : Char}
    (named : letterEscapes.lookup letter = some c) (noUnit : letter ≠ 'u') :
    stringRest (fuel + 1) ('\\' :: letter :: more) = .ok (c :: chars, rest) := by
  rw [stringRest, named, later]
  · rfl
  · simpa using noUnit

theorem string_rest_unit (later : stringRest fuel more = .ok (chars, rest)) {digits : List Char}
    {c : Char} (unit : unitChar digits = .ok (c, more)) :
    stringRest (fuel + 1) ('\\' :: 'u' :: digits) = .ok (c :: chars, rest) := by
  rw [stringRest, unit]
  simp only [bind, Except.bind, later]
  rfl

/-- One step of the reader takes in what is written for one character. -/
theorem string_rest_escape (later : stringRest fuel more = .ok (chars, rest)) {c : Char}
    {written : List Char} (escape : Escape c written) :
    stringRest (fuel + 1) (written ++ more) = .ok (c :: chars, rest) := by
  cases escape with
  | letter named noUnit _ => exact string_rest_letter later named noUnit
  | plain printable noQuote noBackslash =>
      have high : ¬ c.toNat < 0x20 := not_lt.mpr printable.1
      simp [stringRest, later, noBackslash, high]
  | unit small => exact string_rest_unit later (unit_char_of_single small more)
  | pair code =>
      rw [List.append_assoc]
      exact string_rest_unit later (unit_char_of_pair code more)

end Step

theorem Escape.ne_nil {c : Char} {written : List Char} (escape : Escape c written) :
    written ≠ [] := by
  cases escape with
  | letter => exact List.cons_ne_nil _ _
  | plain => exact List.cons_ne_nil _ _
  | unit => exact List.cons_ne_nil _ _
  | pair => exact List.cons_ne_nil _ _

theorem string_rest_written (text rest : List Char) {fuel : ℕ} (enough : text.length < fuel) :
    stringRest fuel (text.flatMap escapedChar ++ '"' :: rest) = .ok (text, rest) := by
  induction text generalizing fuel with
  | nil =>
      obtain ⟨fuel, rfl⟩ : ∃ less, fuel = less + 1 := ⟨fuel - 1, by simp at enough; omega⟩
      rfl
  | cons c text induction =>
      rw [List.length_cons] at enough
      obtain ⟨fuel, rfl⟩ : ∃ less, fuel = less + 1 := ⟨fuel - 1, by omega⟩
      rw [List.flatMap_cons, List.append_assoc]
      exact string_rest_escape (induction (by omega)) (escape_of_char c)

end SpreadWatch.Json
