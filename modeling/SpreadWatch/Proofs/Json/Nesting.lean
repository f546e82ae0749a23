import SpreadWatch.Json.Reader
import SpreadWatch.Proofs.Decimal.Text
import SpreadWatch.Proofs.Failure

/-!
Brackets in JSON texts. The brackets of a text that is read as a whole close each other, strings
apart. So a text that breaks off inside a bracket is no JSON.
-/

namespace SpreadWatch.Json

inductive Spot where
  | outside
  | inside
  | escaped
deriving DecidableEq, Repr

structure Nesting where
  depth : Int
  spot : Spot := .outside
deriving DecidableEq, Repr

namespace Nesting

def isOpening (c : Char) : Bool := c == '[' || c == '\x7b'

def isClosing (c : Char) : Bool := c == ']' || c == '\x7d'

def after (nesting : Nesting) (c : Char) : Nesting :=
  match nesting.spot with
  | .escaped => { nesting with spot := .inside }
  | .inside =>
      if c = '"' then { nesting with spot := .outside }
      else if c = '\\' then { nesting with spot := .escaped }
      else nesting
  | .outside =>
      if c = '"' then { nesting with spot := .inside }
      else if isOpening c then { nesting with depth := nesting.depth + 1 }
      else if isClosing c then { nesting with depth := nesting.depth - 1 }
      else nesting

def through (nesting : Nesting) (chars : List Char) : Nesting := chars.foldl after nesting

theorem through_cons (nesting : Nesting) (c : Char) (rest : List Char) :
    nesting.through (c :: rest) = (nesting.after c).through rest := rfl

theorem through_append (nesting : Nesting) (first second : List Char) :
    nesting.through (first ++ second) = (nesting.through first).through second :=
  List.foldl_append

/-- A character that is neither a quote nor a bracket. -/
def isQuiet (c : Char) : Bool := c != '"' && ! isOpening c && ! isClosing c

variable {depth : Int} {c : Char} {chars rest : List Char}

theorem after_quiet (quiet : isQuiet c = true) :
    after ⟨depth, .outside⟩ c = ⟨depth, .outside⟩ := by
  simp only [isQuiet, Bool.and_eq_true, bne_iff_ne, Bool.not_eq_true'] at quiet
  simp [after, quiet]

theorem through_quiet (quiet : ∀ c ∈ chars, isQuiet c = true) :
    through ⟨depth, .outside⟩ chars = ⟨depth, .outside⟩ := by
  induction chars with
  | nil => rfl
  | cons c rest induction =>
      rw [through_cons, after_quiet (quiet c (by simp))]
      exact induction fun d member => quiet d (by simp [member])

theorem through_drop_while {p : Char → Bool} (quiet : ∀ c, p c = true → isQuiet c = true)
    (chars : List Char) :
    through ⟨depth, .outside⟩ (chars.dropWhile p) = through ⟨depth, .outside⟩ chars := by
  have split := List.takeWhile_append_dropWhile (p := p) (l := chars)
  have passed : ∀ c ∈ chars.takeWhile p, isQuiet c = true :=
    fun c member => quiet c (List.mem_takeWhile_imp member)
  conv_rhs => rw [← split, through_append, through_quiet passed]

theorem through_skip_white (chars : List Char) :
    through ⟨depth, .outside⟩ (skipWhite chars) = through ⟨depth, .outside⟩ chars := by
  apply through_drop_while
  intro c white
  simp only [isWhite, Bool.or_eq_true, beq_iff_eq] at white
  rcases white with ((rfl | rfl) | rfl) | rfl <;> decide

theorem quiet_of_digit (digit : c.isDigit = true) : isQuiet c = true := by
  have all : Decimal.alphabet.all isQuiet = true := by decide
  exact List.all_eq_true.mp all c (Decimal.digit_in_alphabet digit)

/-! ### Numbers and words -/

theorem through_whole_digits (chars : List Char) :
    through ⟨depth, .outside⟩ (wholeDigits chars).2 = through ⟨depth, .outside⟩ chars := by
  unfold wholeDigits
  split
  · rfl
  · exact through_drop_while (fun _ => quiet_of_digit) chars

theorem through_fraction (chars : List Char) :
    through ⟨depth, .outside⟩ (fraction chars).2 = through ⟨depth, .outside⟩ chars := by
  unfold fraction
  split
  · dsimp only
    split_ifs
    · rfl
    · exact through_drop_while (fun _ => quiet_of_digit) _
  · rfl

theorem through_read_sign (chars : List Char) :
    through ⟨depth, .outside⟩ (Decimal.readSign chars).2 = through ⟨depth, .outside⟩ chars := by
  unfold Decimal.readSign
  split <;> rfl

theorem through_exponent (chars : List Char) :
    through ⟨depth, .outside⟩ (exponent? chars).2 = through ⟨depth, .outside⟩ chars := by
  unfold exponent?
  split
  · rename_i mark rest
    split_ifs with marked
    · dsimp only
      split
      · rfl
      · have quiet : isQuiet mark = true := by
          simp only [Bool.or_eq_true, beq_iff_eq] at marked
          rcases marked with rfl | rfl <;> decide
        rw [through_cons, after_quiet quiet, ← through_read_sign rest]
        exact through_drop_while (fun _ => quiet_of_digit) _
    · rfl
  · rfl

theorem through_number {v : Value} (read : number chars = .ok (v, rest)) :
    through ⟨depth, .outside⟩ chars = through ⟨depth, .outside⟩ rest := by
  unfold number at read
  split at read
  rename_i negative unsigned signed
  have first : through ⟨depth, .outside⟩ unsigned = through ⟨depth, .outside⟩ chars := by
    split at signed <;> cases signed <;> rfl
  have behind : through ⟨depth, .outside⟩
      (exponent? (fraction (wholeDigits unsigned).2).2).2 = through ⟨depth, .outside⟩ chars := by
    rw [through_exponent, through_fraction, through_whole_digits, first]
  have left : rest = (exponent? (fraction (wholeDigits unsigned).2).2).2 := by
    dsimp only at read
    split_ifs at read <;> cases read <;> rfl
  rw [left, behind]

theorem through_word {v : Value} (read : word? chars = some (v, rest)) :
    through ⟨depth, .outside⟩ chars = through ⟨depth, .outside⟩ rest := by
  obtain ⟨⟨word, value⟩, listed, found⟩ := List.exists_of_findSome?_eq_some read
  obtain ⟨after, begun, same⟩ := Option.map_eq_some_iff.mp found
  cases same
  unfold afterWord? at begun
  split_ifs at begun with starts
  obtain ⟨tail, rfl⟩ := List.isPrefixOf_iff_prefix.mp starts
  have quiet : ∀ c ∈ word.toList, isQuiet c = true := by
    have all : words.all (fun entry => entry.1.toList.all isQuiet) = true := by decide
    exact List.all_eq_true.mp (List.all_eq_true.mp all _ listed)
  obtain rfl : tail = rest := by
    rw [← String.length_toList, List.drop_left] at begun
    exact Option.some.inj begun
  rw [through_append, through_quiet quiet]

/-! ### Strings -/

theorem after_inside (noQuote : c ≠ '"') (noBackslash : c ≠ '\\') :
    after ⟨depth, .inside⟩ c = ⟨depth, .inside⟩ := by
  simp [after, noQuote, noBackslash]

theorem through_inside (noQuote : '"' ∉ chars) (noBackslash : '\\' ∉ chars) :
    through ⟨depth, .inside⟩ chars = ⟨depth, .inside⟩ := by
  induction chars with
  | nil => rfl
  | cons c rest induction =>
      simp only [List.mem_cons, not_or] at noQuote noBackslash
      rw [through_cons, after_inside (Ne.symm noQuote.1) (Ne.symm noBackslash.1)]
      exact induction noQuote.2 noBackslash.2

/-- A number is folded from digits only if every digit has a value. -/
theorem valued_of_fold {value? : Char → Option ℕ} {digits : List Char} {start total : ℕ}
    (folded : digits.foldlM (fun total c => (value? c).map (16 * total + ·)) start = some total) :
    ∀ c ∈ digits, (value? c).isSome = true := by
  induction digits generalizing start with
  | nil => simp
  | cons digit rest induction =>
      rw [List.foldlM_cons] at folded
      obtain ⟨next, mapped, later⟩ := Option.bind_eq_some_iff.mp folded
      obtain ⟨number, valued, -⟩ := Option.map_eq_some_iff.mp mapped
      intro c member
      rcases List.mem_cons.mp member with rfl | member
      · rw [valued]
        rfl
      · exact induction later c member

theorem through_unit {unit : ℕ} (read : unit? chars = some (unit, rest)) :
    through ⟨depth, .inside⟩ chars = through ⟨depth, .inside⟩ rest := by
  unfold unit? at read
  extract_lets digits value? at read
  split_ifs at read with four
  obtain ⟨total, folded, same⟩ := Option.map_eq_some_iff.mp read
  obtain ⟨-, rfl⟩ := Prod.mk.inj same
  have valued := valued_of_fold folded
  have noQuote : '"' ∉ digits := fun member => absurd (valued _ member) (by decide)
  have noBackslash : '\\' ∉ digits := fun member => absurd (valued _ member) (by decide)
  have split : chars = digits ++ chars.drop 4 := (List.take_append_drop 4 chars).symm
  conv_lhs => rw [split, through_append, through_inside noQuote noBackslash]

theorem required_eq_ok {α : Type} {part : Option α} {a : α} (found : required part = .ok a) :
    part = some a := by
  cases part <;> cases found
  rfl

theorem through_unit_char (read : unitChar chars = .ok (c, rest)) :
    through ⟨depth, .inside⟩ chars = through ⟨depth, .inside⟩ rest := by
  unfold unitChar at read
  obtain ⟨⟨high, more⟩, first, read⟩ := bind_eq_ok read
  rw [through_unit (required_eq_ok first)]
  dsimp only at read
  split_ifs at read with pair
  · split at read
    · obtain ⟨⟨low, after⟩, second, read⟩ := bind_eq_ok read
      dsimp only at read
      split_ifs at read with paired
      obtain ⟨-, rfl⟩ := Prod.mk.inj (Except.ok.inj read)
      rw [through_cons, through_cons]
      exact through_unit (required_eq_ok second)
    · cases read
  · obtain ⟨-, rfl⟩ := Prod.mk.inj (Except.ok.inj read)
    rfl

theorem through_string_rest {fuel : ℕ} {text : List Char}
    (read : stringRest fuel chars = .ok (text, rest)) :
    through ⟨depth, .inside⟩ chars = through ⟨depth, .outside⟩ rest := by
  induction fuel generalizing chars text with
  | zero => cases read
  | succ fuel induction =>
      unfold stringRest at read
      split at read
      · cases read
      · cases read
      · cases read
        rfl
      · rename_i _ _ less digits same
        obtain rfl := Nat.succ.inj same
        obtain ⟨⟨c, more⟩, unit, read⟩ := bind_eq_ok read
        obtain ⟨⟨later, after⟩, string, answer⟩ := bind_eq_ok read
        cases answer
        rw [through_cons, through_cons, ← induction string]
        exact through_unit_char unit
      · rename_i _ _ less letter more _ same
        obtain rfl := Nat.succ.inj same
        obtain ⟨c, named, read⟩ := bind_eq_ok read
        obtain ⟨⟨later, after⟩, string, answer⟩ := bind_eq_ok read
        cases answer
        rw [through_cons, through_cons, ← induction string]
        rfl
      · rename_i _ _ less c more noQuote _ _ same
        obtain rfl := Nat.succ.inj same
        split_ifs at read with stops
        · cases read
        obtain ⟨⟨later, after⟩, string, answer⟩ := bind_eq_ok read
        cases answer
        have noBackslash : c ≠ '\\' := by
          rintro rfl
          exact stops rfl
        rw [through_cons, after_inside noQuote noBackslash, induction string]

/-! ### Values -/

/-- What the readers of values, of items and of entries take in. The latter two take in the closing
bracket of their collection as well. -/
structure Closes (fuel : ℕ) : Prop where
  value {level : ℕ} {chars rest : List Char} {v : Value} (depth : Int)
    (read : value level fuel chars = .ok (v, rest)) :
    through ⟨depth, .outside⟩ chars = through ⟨depth, .outside⟩ rest
  items {level : ℕ} {chars rest : List Char} {read : List Value} (depth : Int)
    (read : items level fuel chars = .ok (read, rest)) :
    through ⟨depth + 1, .outside⟩ chars = through ⟨depth, .outside⟩ rest
  entries {level : ℕ} {chars rest : List Char} {read : List (Value × Value)} (depth : Int)
    (read : entries level fuel chars = .ok (read, rest)) :
    through ⟨depth + 1, .outside⟩ chars = through ⟨depth, .outside⟩ rest

theorem through_open (depth : Int) (opening : isOpening c = true) (rest : List Char) :
    through ⟨depth, .outside⟩ (c :: rest) = through ⟨depth + 1, .outside⟩ rest := by
  simp only [isOpening, Bool.or_eq_true, beq_iff_eq] at opening
  rcases opening with rfl | rfl <;> rfl

theorem through_close (depth : Int) (closing : isClosing c = true) (rest : List Char) :
    through ⟨depth + 1, .outside⟩ (c :: rest) = through ⟨depth, .outside⟩ rest := by
  have back : after ⟨depth + 1, .outside⟩ c = ⟨depth, .outside⟩ := by
    simp only [isClosing, Bool.or_eq_true, beq_iff_eq] at closing
    rcases closing with rfl | rfl <;> simp [after, isOpening, isClosing]
  rw [through_cons, back]

theorem opening_of_code (brace : c.toNat = 0x7B) : isOpening c = true := by
  have same : c = '\x7b' := by
    rw [← Char.ofNat_toNat c, brace]
  rw [same]
  rfl

theorem closing_of_code (brace : c.toNat = 0x7D) : isClosing c = true := by
  have same : c = '\x7d' := by
    rw [← Char.ofNat_toNat c, brace]
  rw [same]
  rfl

theorem Closes.value_succ {fuel : ℕ} (closes : Closes fuel) {level : ℕ} {v : Value} (depth : Int)
    (read : Json.value level (fuel + 1) chars = .ok (v, rest)) :
    through ⟨depth, .outside⟩ chars = through ⟨depth, .outside⟩ rest := by
  unfold Json.value at read
  split at read
  · cases read
  · rename_i _ _ less more same
    obtain ⟨⟨text, behind⟩, string, answer⟩ := bind_eq_ok read
    cases answer
    exact through_string_rest string
  · rename_i _ _ less more same
    obtain rfl := Nat.succ.inj same
    rw [through_open depth rfl, ← through_skip_white]
    split_ifs at read with tooDeep
    · cases read
    split at read
    · rename_i closed
      cases read
      rw [closed, through_close depth rfl]
    · obtain ⟨⟨inner, behind⟩, taken, answer⟩ := bind_eq_ok read
      cases answer
      exact closes.items depth taken
  · rename_i _ _ less c more noQuote noBracket same
    obtain rfl := Nat.succ.inj same
    split_ifs at read with brace tooDeep
    · cases read
    · rw [through_open depth (opening_of_code brace), ← through_skip_white]
      split at read
      · cases read
      · rename_i first inner begun
        split_ifs at read with closing
        · cases read
          rw [begun, through_close depth (closing_of_code closing)]
        · obtain ⟨⟨pairs, behind⟩, taken, answer⟩ := bind_eq_ok read
          cases answer
          rw [begun]
          exact closes.entries depth taken
    · split at read
      · rename_i found word
        cases read
        exact through_word word
      · exact through_number read
  · cases read

theorem Closes.items_succ {fuel : ℕ} (closes : Closes fuel) {level : ℕ} {found : List Value}
    (depth : Int) (read : Json.items level (fuel + 1) chars = .ok (found, rest)) :
    through ⟨depth + 1, .outside⟩ chars = through ⟨depth, .outside⟩ rest := by
  unfold Json.items at read
  obtain ⟨⟨item, behind⟩, taken, read⟩ := bind_eq_ok read
  rw [← through_skip_white, closes.value (depth + 1) taken, ← through_skip_white]
  dsimp only at read
  split at read
  · rename_i closed
    cases read
    rw [closed, through_close depth rfl]
  · rename_i more comma
    obtain ⟨⟨later, last⟩, others, answer⟩ := bind_eq_ok read
    cases answer
    rw [comma, through_cons, after_quiet (by decide)]
    exact closes.items depth others
  · cases read

theorem Closes.entries_succ {fuel : ℕ} (closes : Closes fuel) {level : ℕ}
    {found : List (Value × Value)} (depth : Int)
    (read : Json.entries level (fuel + 1) chars = .ok (found, rest)) :
    through ⟨depth + 1, .outside⟩ chars = through ⟨depth, .outside⟩ rest := by
  unfold Json.entries at read
  rw [← through_skip_white]
  split at read
  · rename_i quote begun
    obtain ⟨⟨name, afterName⟩, string, read⟩ := bind_eq_ok read
    have named : through ⟨depth + 1, .outside⟩ (skipWhite chars) =
        through ⟨depth + 1, .outside⟩ (skipWhite afterName) := by
      rw [begun, through_skip_white]
      exact through_string_rest string
    rw [named]
    dsimp only at read
    split at read
    · rename_i more colon
      obtain ⟨⟨v, behind⟩, taken, read⟩ := bind_eq_ok read
      rw [colon, through_cons, after_quiet (by decide), ← through_skip_white,
        closes.value (depth + 1) taken, ← through_skip_white]
      dsimp only at read
      split at read
      · rename_i others comma
        obtain ⟨⟨later, last⟩, others, answer⟩ := bind_eq_ok read
        cases answer
        rw [comma, through_cons, after_quiet (by decide)]
        exact closes.entries depth others
      · rename_i mark last _ closed
        split_ifs at read with brace
        cases read
        rw [closed, through_close depth (closing_of_code brace)]
      · cases read
    · cases read
  · cases read

theorem closes_all (fuel : ℕ) : Closes fuel := by
  induction fuel with
  | zero =>
      constructor
      · intro _ _ _ _ _ read
        cases read
      · intro _ _ _ _ _ read
        cases read
      · intro _ _ _ _ _ read
        cases read
  | succ fuel induction =>
      exact ⟨induction.value_succ, induction.items_succ, induction.entries_succ⟩

/-- The brackets of a text that is JSON from beginning to end close each other. -/
theorem through_read {text : String} {v : Value} (read : Json.read text = .ok v) :
    through ⟨0, .outside⟩ text.toList = ⟨0, .outside⟩ := by
  obtain ⟨⟨found, rest⟩, taken, answer⟩ := bind_eq_ok read
  dsimp only at answer
  split_ifs at answer with blank
  have ended : skipWhite rest = [] := List.isEmpty_iff.mp blank
  rw [← through_skip_white, (closes_all _).value 0 taken, ← through_skip_white, ended]
  rfl

end Nesting

end SpreadWatch.Json
