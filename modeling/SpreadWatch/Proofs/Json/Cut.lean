import SpreadWatch.Proofs.Json.Nesting
import SpreadWatch.Proofs.Json.RoundTrip
import SpreadWatch.Proofs.Value.ForeignText

/-!
Indented texts that break off. An array is cut in one of its items, behind the items before it. What
is written leaves a bracket open then, or is nothing at all, so it is no JSON and none of its items
can be read again.
-/

namespace SpreadWatch.Json

/-! ### Where a text is cut -/

/-- Where a writing in two parts has failed. -/
theorem and_then_failed {first : Written} {next : Unit → Written} {text : String}
    {failure : Failure} (failed : first.andThen next = { text, failure := some failure }) :
    first = { text, failure := some failure } ∨
      ∃ more, first = { text := first.text } ∧ next () = { text := more, failure := some failure } ∧
        text = first.text ++ more := by
  obtain ⟨begun, _ | early⟩ := first
  · rw [and_then_text] at failed
    obtain ⟨rfl, late⟩ := Written.mk.inj failed
    exact .inr ⟨(next ()).text, rfl, by rw [← late], rfl⟩
  · exact .inl failed

theorem indented_int (depth : ℕ) (value : Int) :
    indented depth (.int value) = Written.of (intText value) := rfl

theorem behind_int (depth : ℕ) (lead : String) (value : Int) :
    behind depth lead (.int value) (indented depth (.int value)) =
      Written.of ((intText value).map (lead ++ lineStart depth ++ ·)) := by
  rw [indented_int]
  cases intText value <;> rfl

/-- Texts on lines of their own, the first behind a bracket or comma, the others behind commas. -/
def lined (depth : ℕ) (lead : String) : List String → String
  | [] => ""
  | text :: rest => lead ++ lineStart depth ++ text ++ lined depth "," rest

/-- What stands on the line of an item that breaks off. An integer leaves no line. -/
def remains : Value → String → List String
  | .int _, _ => []
  | _, begun => [begun]

theorem behind_stuck {depth : ℕ} {item : Value} {begun : String} {failure : Failure}
    (stuck : indented depth item = { text := begun, failure := some failure }) (lead : String) :
    behind depth lead item (indented depth item) =
      { text := lined depth lead (remains item begun), failure := some failure } := by
  cases item with
  | int value =>
      rw [behind_int]
      rw [indented_int] at stuck
      cases written : intText value with
      | ok text =>
          rw [written] at stuck
          cases stuck
      | error early =>
          rw [written] at stuck
          cases stuck
          rfl
  | _ =>
      rw [stuck]
      simp [behind, remains, lined]

/-- The items of a list up to the one that breaks off. -/
theorem indented_items_failed {depth : ℕ} {items : List Value} {lead text : String}
    {failure : Failure}
    (failed : indentedItems depth lead items = { text, failure := some failure }) :
    ∃ before item after texts begun, items = before ++ item :: after ∧
      List.Forall₂ (fun item text => indented depth item = { text }) before texts ∧
      indented depth item = { text := begun, failure := some failure } ∧
      text = lined depth lead (texts ++ remains item begun) := by
  induction items generalizing lead text with
  | nil => cases failed
  | cons item rest induction =>
      rw [indentedItems] at failed
      rcases written : indented depth item with ⟨begun, early | stop⟩
      · rw [written, behind_whole, and_then_text] at failed
        obtain ⟨rfl, late⟩ := Written.mk.inj failed
        have later : indentedItems depth "," rest =
            { text := (indentedItems depth "," rest).text, failure := some failure } := by
          rw [← late]
        obtain ⟨before, other, after, texts, stop, rfl, each, stuck, more⟩ := induction later
        refine ⟨item :: before, other, after, begun :: texts, stop, rfl, .cons written each, stuck,
          ?_⟩
        rw [more]
        rfl
      · rw [behind_stuck written] at failed
        cases failed
        exact ⟨[], item, rest, [], begun, rfl, .nil, written, rfl⟩

theorem indented_items_stopped {depth : ℕ} {before after : List Value} {item : Value}
    {texts : List String} {begun : String} {failure : Failure}
    (whole : List.Forall₂ (fun item text => indented depth item = { text }) before texts)
    (stuck : indented depth item = { text := begun, failure := some failure }) (lead : String) :
    indentedItems depth lead (before ++ item :: after) =
      { text := lined depth lead (texts ++ remains item begun), failure := some failure } := by
  induction whole generalizing lead with
  | nil =>
      rw [List.nil_append, indentedItems, behind_stuck stuck]
      rfl
  | cons here others induction =>
      rw [List.cons_append, indentedItems, here, behind_whole, and_then_text, induction ","]
      rfl

/-- The text of an array that breaks off in one of its items. -/
theorem indented_list_failed {depth : ℕ} {items : List Value} {text : String} {failure : Failure}
    (failed : indented depth (.list items) = { text, failure := some failure }) :
    ∃ before item after texts begun, items = before ++ item :: after ∧
      List.Forall₂ (fun item text => indented (depth + 1) item = { text }) before texts ∧
      indented (depth + 1) item = { text := begun, failure := some failure } ∧
      text = lined (depth + 1) "[" (texts ++ remains item begun) := by
  cases items with
  | nil => cases failed
  | cons first rest =>
      rw [indented] at failed
      · rcases and_then_failed failed with stopped | ⟨close, -, closed, -⟩
        · exact indented_items_failed stopped
        · cases closed
      · exact List.cons_ne_nil first rest

theorem indented_list_stopped {depth : ℕ} {before after : List Value} {item : Value}
    {texts : List String} {begun : String} {failure : Failure}
    (whole : List.Forall₂ (fun item text => indented (depth + 1) item = { text }) before texts)
    (stuck : indented (depth + 1) item = { text := begun, failure := some failure }) :
    indented depth (.list (before ++ item :: after)) =
      { text := lined (depth + 1) "[" (texts ++ remains item begun)
        failure := some failure } := by
  rw [indented, indented_items_stopped whole stuck]
  · rfl
  · simp

example : (indented 0 (.list [.null, .knot 0 (.dict [(.text "self", .back 0)])])).text =
    "[\n  null,\n  \x7b\n    \"self\": " := rfl

/-! ### Brackets of written texts -/

open Nesting

/-- What is written leaves so many brackets open, and closes all others that it opens. Where it has
failed, more of them may be open, and none where nothing is written. -/
def Written.Opens (count : ℕ) (written : Written) : Prop :=
  ∀ depth : Int, ∃ extra : ℕ,
    through ⟨depth, .outside⟩ written.text.toList = ⟨depth + extra, .outside⟩ ∧
      (written.failure = none → extra = count) ∧ (written.text ≠ "" → count ≤ extra)

theorem opens_failed (count : ℕ) (failure : Failure) :
    (Written.of (.error failure)).Opens count :=
  fun _ => ⟨0, by simp [Written.of, through], by simp [Written.of], by simp [Written.of]⟩

theorem opens_text {count : ℕ} {text : String}
    (crossed : ∀ depth, through ⟨depth, .outside⟩ text.toList = ⟨depth + count, .outside⟩) :
    Written.Opens count { text } :=
  fun depth => ⟨count, crossed depth, fun _ => rfl, fun _ => le_rfl⟩

theorem level_text {text : String}
    (crossed : ∀ depth, through ⟨depth, .outside⟩ text.toList = ⟨depth, .outside⟩) :
    Written.Opens 0 { text } :=
  opens_text fun depth => by simpa using crossed depth

theorem level_quiet {text : String} (quiet : ∀ c ∈ text.toList, isQuiet c = true) :
    Written.Opens 0 { text } :=
  level_text fun _ => through_quiet quiet

theorem level_word {text : String} (quiet : text.toList.all isQuiet = true) :
    Written.Opens 0 { text } :=
  level_quiet (List.all_eq_true.mp quiet)

theorem and_then_of_failed {first : Written} {failure : Failure}
    (failed : first.failure = some failure) (next : Unit → Written) :
    first.andThen next = first := by
  simp [Written.andThen, failed]

theorem Written.Opens.and_then {count : ℕ} {first : Written} {next : Unit → Written}
    (opens : first.Opens count) (level : (next ()).Opens 0) : (first.andThen next).Opens count := by
  intro depth
  obtain ⟨extra, crossed, whole, present⟩ := opens depth
  cases failed : first.failure with
  | some failure =>
      rw [and_then_of_failed failed]
      exact ⟨extra, crossed, whole, present⟩
  | none =>
      obtain rfl := whole failed
      obtain ⟨more, later, closed, -⟩ := level (depth + extra)
      refine ⟨extra + more, ?_, ?_, fun _ => Nat.le_add_right extra more⟩
      · simp only [Written.andThen, failed, String.toList_append, through_append, crossed]
        rw [later, Nat.cast_add, add_assoc]
      · intro unfailed
        rw [closed (by simpa [Written.andThen, failed] using unfailed), add_zero]

/-- A collection: the bracket that it opens is closed again, unless it breaks off. -/
theorem Written.Opens.closed {inner : Written} (opens : inner.Opens 1) {closing : String}
    (closes : ∀ depth, through ⟨depth + 1, .outside⟩ closing.toList = ⟨depth, .outside⟩) :
    (inner.andThen fun _ => { text := closing }).Opens 0 := by
  intro depth
  obtain ⟨extra, crossed, whole, -⟩ := opens depth
  cases failed : inner.failure with
  | some failure =>
      rw [and_then_of_failed failed]
      exact ⟨extra, crossed, by simp [failed], fun _ => extra.zero_le⟩
  | none =>
      obtain rfl := whole failed
      refine ⟨0, ?_, fun _ => rfl, fun _ => le_rfl⟩
      simp only [Written.andThen, failed, String.toList_append, through_append, crossed]
      simpa using closes depth

/-! ### The parts of a text -/

theorem through_unit_escape (depth : Int) {unit : ℕ} (small : unit < 0x10000) :
    through ⟨depth, .inside⟩ (unitEscape unit) = ⟨depth, .inside⟩ := by
  have plain : ∀ digit < 16, digit.digitChar ≠ '"' ∧ digit.digitChar ≠ '\\' := by decide
  have escape : through ⟨depth, .inside⟩ (unitEscape unit) =
      through ⟨depth, .inside⟩ (Text.hexDigits 4 unit) := rfl
  rw [escape, hex_digits_four small]
  apply through_inside
  · simp only [List.mem_cons, List.not_mem_nil, or_false, not_or]
    exact ⟨(plain _ (by omega)).1.symm, (plain _ (by omega)).1.symm, (plain _ (by omega)).1.symm,
      (plain _ (by omega)).1.symm⟩
  · simp only [List.mem_cons, List.not_mem_nil, or_false, not_or]
    exact ⟨(plain _ (by omega)).2.symm, (plain _ (by omega)).2.symm, (plain _ (by omega)).2.symm,
      (plain _ (by omega)).2.symm⟩

theorem through_escape (depth : Int) {c : Char} {written : List Char} (escape : Escape c written) :
    through ⟨depth, .inside⟩ written = ⟨depth, .inside⟩ := by
  have valid := char_not_surrogate c
  cases escape with
  | letter _ _ _ => rfl
  | plain _ noQuote noBackslash => exact after_inside noQuote noBackslash
  | unit small => exact through_unit_escape depth small
  | pair code =>
      rw [through_append, through_unit_escape depth (by omega),
        through_unit_escape depth (by omega)]

theorem through_string (depth : Int) (text : String) :
    through ⟨depth, .outside⟩ (stringText text).toList = ⟨depth, .outside⟩ := by
  have escaped (chars : List Char) :
      through ⟨depth, .inside⟩ (chars.flatMap escapedChar) = ⟨depth, .inside⟩ := by
    induction chars with
    | nil => rfl
    | cons c rest induction =>
        rw [List.flatMap_cons, through_append, through_escape depth (escape_of_char c), induction]
  have quote : after ⟨depth, .outside⟩ '"' = ⟨depth, .inside⟩ := rfl
  rw [stringText, String.toList_ofList, through_cons, quote, through_append, escaped]
  rfl

theorem quiet_number {c : Char} (known : c ∈ Value.numberChars) : isQuiet c = true := by
  have all : Value.numberChars.all isQuiet = true := by decide
  exact List.all_eq_true.mp all c known

theorem quiet_line_start (depth : ℕ) : ∀ c ∈ (lineStart depth).toList, isQuiet c = true := by
  have blanks : ∀ c ∈ List.replicate (2 * depth) ' ', isQuiet c = true := by
    intro c member
    rw [List.eq_of_mem_replicate member]
    rfl
  rw [line_start_new_line, String.toList_ofList, newLine, List.forall_mem_cons]
  exact ⟨by decide, blanks⟩

theorem level_int (value : Int) : (Written.of (intText value)).Opens 0 := by
  unfold intText Value.written
  split_ifs
  · exact level_quiet fun c member => quiet_number (Value.int_text_number value c member)
  · exact opens_failed 0 _

theorem level_float (value : Binary64) : Written.Opens 0 { text := floatText value } := by
  unfold floatText
  split
  · exact level_word (by decide)
  · split_ifs
    · exact level_word (by decide)
    · exact level_word (by decide)
  · exact level_quiet fun c member => quiet_number (Value.float_text_number value c member)

theorem level_atom (value : Value) : (Written.of (atomText value)).Opens 0 := by
  unfold atomText
  split
  · exact level_word (by decide)
  · split_ifs
    · exact level_word (by decide)
    · exact level_word (by decide)
  · exact level_int _
  · exact level_float _
  · exact level_text fun depth => through_string depth _
  · exact opens_failed 0 _
  · exact opens_failed 0 _

theorem level_key (name : Value → String) (key : Value) {lead : String}
    (quiet : ∀ c ∈ lead.toList, isQuiet c = true) :
    (Written.of ((keyText name key).map fun text => lead ++ text ++ ": ")).Opens 0 := by
  have named (text : String) : (Written.of ((Except.ok (stringText text)).map
      fun text => lead ++ text ++ ": ")).Opens 0 := by
    apply level_text
    intro depth
    rw [String.toList_append, String.toList_append, through_append, through_append,
      through_quiet quiet, through_string, through_quiet]
    simp [isQuiet, isOpening, isClosing]
  unfold keyText
  split
  · exact named _
  · exact named _
  · exact named _
  · rename_i value
    cases written : intText value with
    | ok text => exact named text
    | error failure => exact opens_failed 0 failure
  · exact named _
  · exact opens_failed 0 _

section Brackets

variable {text : String} {c : Char} {space : List Char} (quiet : ∀ d ∈ space, isQuiet d = true)

include quiet

theorem through_opening (opening : isOpening c = true) (begins : text.toList = c :: space)
    (depth : Int) : through ⟨depth, .outside⟩ text.toList = ⟨depth + 1, .outside⟩ := by
  rw [begins, through_open depth opening, through_quiet quiet]

theorem through_closing (closing : isClosing c = true) (ends : text.toList = space ++ [c])
    (depth : Int) : through ⟨depth + 1, .outside⟩ text.toList = ⟨depth, .outside⟩ := by
  rw [ends, through_append, through_quiet quiet, through_close depth closing]
  rfl

end Brackets

theorem level_empty {text : String} {opening closing : Char} (opens : isOpening opening = true)
    (closes : isClosing closing = true) (written : text.toList = [opening, closing]) :
    Written.Opens 0 { text } := by
  apply level_text
  intro depth
  rw [written, through_open depth opens, through_close depth closes]
  rfl

/-- An item with its bracket or comma: both as they follow each other, or neither. -/
theorem behind_cases (depth : ℕ) (lead : String) (item : Value) :
    (∃ failure, behind depth lead item (indented depth item) = Written.of (.error failure)) ∨
      behind depth lead item (indented depth item) =
        (Written.of (.ok (lead ++ lineStart depth))).andThen fun _ => indented depth item := by
  cases item with
  | int value =>
      rw [behind_int, indented_int]
      cases intText value with
      | ok text => exact .inr rfl
      | error failure => exact .inl ⟨failure, rfl⟩
  | _ => exact .inr rfl

theorem opens_behind {count depth : ℕ} {lead : String} {item : Value}
    (opens : Written.Opens count { text := lead ++ lineStart depth })
    (level : (indented depth item).Opens 0) :
    (behind depth lead item (indented depth item)).Opens count := by
  rcases behind_cases depth lead item with ⟨failure, missing⟩ | both
  · rw [missing]
    exact opens_failed count failure
  · rw [both]
    exact opens.and_then level

theorem opens_list (depth : ℕ) : Written.Opens 1 { text := "[" ++ lineStart depth } :=
  opens_text (through_opening (quiet_line_start depth) (show isOpening '[' = true from rfl)
    (by simp))

theorem opens_items {depth : ℕ} {item : Value} {rest : List Value}
    (level : (indented depth item).Opens 0) (levels : (indentedItems depth "," rest).Opens 0) :
    (indentedItems depth "[" (item :: rest)).Opens 1 := by
  rw [indentedItems]
  exact (opens_behind (opens_list depth) level).and_then levels

theorem quiet_comma (depth : ℕ) : ∀ c ∈ ("," ++ lineStart depth).toList, isQuiet c = true := by
  rw [String.toList_append, List.forall_mem_append]
  exact ⟨by simp [isQuiet, isOpening, isClosing], quiet_line_start depth⟩

theorem closes_list (depth : ℕ) (before : Int) :
    through ⟨before + 1, .outside⟩ (lineStart depth ++ "]").toList = ⟨before, .outside⟩ :=
  through_closing (quiet_line_start depth) (show isClosing ']' = true from rfl) (by simp) before

mutual

/-- No value leaves a bracket open, unless it cannot be encoded. -/
theorem level_indented (depth : ℕ) : ∀ value : Value, (indented depth value).Opens 0
  | .list [] => level_empty (show isOpening '[' = true from rfl)
      (show isClosing ']' = true from rfl) (by simp)
  | .list (item :: rest) => by
      rw [indented]
      · apply Written.Opens.closed _ (closes_list depth)
        exact opens_items (level_indented (depth + 1) item) (level_items (depth + 1) rest)
      · exact List.cons_ne_nil item rest
  | .dict [] => level_empty (show isOpening '\x7b' = true from rfl)
      (show isClosing '\x7d' = true from rfl) (by simp)
  | .dict (entry :: rest) => by
      rw [indented]
      · apply Written.Opens.closed
        · refine (opens_text ?_).and_then (level_entries (depth + 1) true (entry :: rest))
          exact through_opening (quiet_line_start (depth + 1))
            (show isOpening '\x7b' = true from rfl) (by simp)
        · exact through_closing (quiet_line_start depth) (show isClosing '\x7d' = true from rfl)
            (by simp)
      · exact List.cons_ne_nil entry rest
  | .pair first second => by
      rw [indented]
      apply Written.Opens.closed _ (closes_list depth)
      exact (opens_behind (opens_list _) (level_indented (depth + 1) first)).and_then
        (opens_behind (level_quiet (quiet_comma _)) (level_indented (depth + 1) second))
  | .knot label body => by
      rw [indented]
      exact level_indented depth body
  | .null => level_atom .null
  | .bool value => level_atom (.bool value)
  | .int value => level_atom (.int value)
  | .float value => level_atom (.float value)
  | .decimal value => level_atom (.decimal value)
  | .text value => level_atom (.text value)
  | .bytes value => level_atom (.bytes value)
  | .set members => level_atom (.set members)
  | .date value => level_atom (.date value)
  | .moment value => level_atom (.moment value)
  | .back label => level_atom (.back label)

theorem level_items (depth : ℕ) : ∀ items : List Value, (indentedItems depth "," items).Opens 0
  | [] => level_text fun _ => rfl
  | item :: rest => by
      rw [indentedItems]
      exact (opens_behind (level_quiet (quiet_comma _)) (level_indented depth item)).and_then
        (level_items depth rest)

theorem level_entries (depth : ℕ) (first : Bool) : ∀ entries : List (Value × Value),
    (indentedEntries depth first entries).Opens 0
  | [] => level_text fun _ => rfl
  | (key, value) :: rest => by
      have lead : ∀ c ∈ (if first then "" else "," ++ lineStart depth).toList,
          isQuiet c = true := by
        split_ifs
        · simp
        · exact quiet_comma depth
      rw [indentedEntries]
      exact (level_key Value.plainTypeName key lead).and_then
        ((level_indented depth value).and_then (level_entries depth false rest))

end

/-- An array that breaks off is no JSON, so none of its items can be read from it. -/
theorem cut_list_unread {depth : ℕ} {items : List Value} {text : String} {failure : Failure}
    (failed : indented depth (.list items) = { text, failure := some failure }) (v : Value) :
    read text ≠ .ok v := by
  cases items with
  | nil => cases failed
  | cons item rest =>
      have opens := opens_items (level_indented (depth + 1) item) (level_items (depth + 1) rest)
      rw [indented] at failed
      · rcases and_then_failed failed with stopped | ⟨close, -, closed, -⟩
        · rw [stopped] at opens
          obtain ⟨extra, crossed, -, left⟩ := opens 0
          intro read
          rw [through_read read] at crossed
          have same := congrArg Nesting.depth crossed
          have present : text ≠ "" := by
            rintro rfl
            cases read
          have open_bracket := left present
          simp only at same
          omega
        · cases closed
      · exact List.cons_ne_nil item rest

end SpreadWatch.Json
