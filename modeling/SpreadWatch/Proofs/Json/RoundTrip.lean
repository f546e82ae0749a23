import SpreadWatch.Proofs.Json.Layout

/-!
Both JSON writers are read back: each writes in a layout. The writer on one line puts a blank behind
commas and colons, the other one begins a new line for every part of a collection. All else that
they write is printable ASCII.
-/

namespace SpreadWatch.Json

variable {layout : Layout} {depth : ℕ}

/-! ### Writing -/

def narrow : Layout where
  inner _ := []
  between _ := [' ']
  outer _ := []
  innerWhite _ := by simp
  betweenWhite _ := by simp [isWhite]
  outerWhite _ := by simp

def newLine (depth : ℕ) : List Char := '\n' :: List.replicate (2 * depth) ' '

theorem new_line_white (depth : ℕ) : ∀ c ∈ newLine depth, isWhite c = true := by
  intro c member
  rcases List.mem_cons.mp member with rfl | blank
  · decide
  · obtain rfl := List.eq_of_mem_replicate blank
    decide

def wide : Layout where
  inner := newLine
  between := newLine
  outer := newLine
  innerWhite := new_line_white
  betweenWhite := new_line_white
  outerWhite := new_line_white

theorem key_text_name (typeName : Value → String) (name : String) :
    keyText typeName (.text name) = .ok (String.ofList (quoted name)) := rfl

theorem strung_narrow (depth : ℕ) (parts : List (List Char)) :
    narrow.strung depth [] parts = [',', ' '].intercalate parts := by
  induction parts with
  | nil => rfl
  | cons part others induction =>
      by_cases last : others = []
      · subst last
        simp [Layout.strung, strung]
      · rw [strung_cons, strung_lead _ last, induction, List.intercalate_cons_of_ne_nil last]
        simp [narrow]

theorem intercalate_parts (parts : List (List Char)) :
    ", ".intercalate (parts.map String.ofList) = String.ofList ([',', ' '].intercalate parts) := by
  apply String.toList_inj.mp
  rw [String.toList_intercalate, String.toList_ofList, List.map_map]
  simp [Function.comp_def]

theorem collection_narrow (depth : ℕ) (opening closing : Char) (parts : List (List Char)) :
    String.ofList [opening] ++ ", ".intercalate (parts.map String.ofList) ++
        String.ofList [closing] =
      String.ofList (narrow.collection depth opening closing parts) := by
  have close : narrow.close depth parts = [] := by
    unfold Layout.close
    split_ifs <;> rfl
  have inner : narrow.inner (depth + 1) = [] := rfl
  rw [intercalate_parts, ← String.ofList_append, ← String.ofList_append, Layout.collection, close,
    inner, strung_narrow]
  rfl

theorem compact_items {depth : ℕ} {items : List Value}
    (each : ∀ item ∈ items, compact item = .ok (String.ofList (laid narrow depth item))) :
    compactItems items = .ok ((laidItems narrow depth items).map String.ofList) := by
  induction items with
  | nil => rfl
  | cons item others induction =>
      have later := induction fun other member => each other (by simp [member])
      rw [compactItems, each item (by simp), later]
      rfl

theorem compact_entries {depth : ℕ} {entries : List (Value × Value)}
    (named : ∀ entry ∈ entries, ∃ name, entry.1 = .text name)
    (each : ∀ entry ∈ entries, compact entry.2 = .ok (String.ofList (laid narrow depth entry.2))) :
    compactEntries entries = .ok ((laidEntries narrow depth entries).map String.ofList) := by
  induction entries with
  | nil => rfl
  | cons entry others induction =>
      obtain ⟨key, value⟩ := entry
      obtain ⟨name, rfl⟩ : ∃ name, key = .text name := named (key, value) (by simp)
      have text := each (.text name, value) (by simp)
      have later := induction (fun other member => named other (by simp [member]))
        fun other member => each other (by simp [member])
      have written :
          String.ofList (quoted name) ++ ": " ++ String.ofList (laid narrow depth value) =
            String.ofList (entryChars (.text name) (laid narrow depth value)) := by
        apply String.toList_inj.mp
        simp [entryChars]
      rw [compactEntries, later, text]
      exact congrArg (fun entry => Except.ok (entry :: _)) written

/-- The writer on one line uses the narrow layout. -/
theorem compact_laid {room : ℕ} {v : Value} (plain : Plain room v) (depth : ℕ) :
    compact v = .ok (String.ofList (laid narrow depth v)) := by
  induction plain generalizing depth with
  | null => rfl
  | text text => rfl
  | list each induction =>
      rw [compact, compact_items fun item member => induction item member (depth + 1), laid,
        ← collection_narrow]
      rfl
  | dict named distinct each induction =>
      rw [compact, compact_entries named fun entry member => induction entry member (depth + 1),
        laid, ← collection_narrow]
      rfl

theorem and_then_text (text : String) (next : Unit → Written) :
    Written.andThen { text } next =
      { text := text ++ (next ()).text, failure := (next ()).failure } :=
  rfl

theorem line_start_new_line (depth : ℕ) : lineStart depth = String.ofList (newLine depth) := by
  apply String.toList_inj.mp
  simp [lineStart, newLine]

theorem behind_whole (depth : ℕ) (lead : String) (item : Value) (text : String) :
    behind depth lead item { text } = { text := lead ++ lineStart depth ++ text } := by
  cases item <;> rfl

theorem indented_items {depth : ℕ} {items : List Value}
    (each : ∀ item ∈ items, indented depth item = { text := String.ofList (laid wide depth item) })
    (lead : String) :
    indentedItems depth lead items = { text := String.ofList (wide.strung depth
      (lead.toList ++ newLine depth) (laidItems wide depth items)) } := by
  induction items generalizing lead with
  | nil => rfl
  | cons item others induction =>
      have later := induction (fun other member => each other (by simp [member])) ","
      rw [indentedItems, each item (by simp), later, behind_whole, line_start_new_line, laidItems,
        strung_cons, and_then_text]
      congr 1
      apply String.toList_inj.mp
      simp [wide]

theorem indented_entries {depth : ℕ} {entries : List (Value × Value)}
    (named : ∀ entry ∈ entries, ∃ name, entry.1 = .text name)
    (each : ∀ entry ∈ entries,
      indented depth entry.2 = { text := String.ofList (laid wide depth entry.2) })
    (first : Bool) :
    indentedEntries depth first entries = { text := String.ofList (wide.strung depth
      (if first then [] else ',' :: newLine depth) (laidEntries wide depth entries)) } := by
  induction entries generalizing first with
  | nil => rfl
  | cons entry others induction =>
      obtain ⟨key, value⟩ := entry
      obtain ⟨name, rfl⟩ : ∃ name, key = .text name := named (key, value) (by simp)
      have text : indented depth value = { text := String.ofList (laid wide depth value) } :=
        each (.text name, value) (by simp)
      have later := induction (fun other member => named other (by simp [member]))
        (fun other member => each other (by simp [member])) false
      rw [indentedEntries, text, later, line_start_new_line, laidEntries, strung_cons,
        key_text_name]
      simp only [Except.map, Written.of, and_then_text]
      congr 1
      apply String.toList_inj.mp
      cases first <;> simp [wide, entryChars]

/-- The indenting writer uses the wide layout. -/
theorem indented_laid {room : ℕ} {v : Value} (plain : Plain room v) (depth : ℕ) :
    indented depth v = { text := String.ofList (laid wide depth v) } := by
  induction plain generalizing depth with
  | null => rfl
  | text text => rfl
  | @list room items each induction =>
      have texts := indented_items (fun item member => induction item member (depth + 1)) "["
      cases items with
      | nil => rfl
      | cons item others =>
          rw [indented, texts, line_start_new_line, laid, and_then_text]
          · congr 1
            apply String.toList_inj.mp
            rw [Layout.collection, strung_lead (wide.inner (depth + 1)) (by simp [laidItems]),
              strung_lead (("[" : String).toList ++ newLine (depth + 1)) (by simp [laidItems])]
            simp [Layout.close, wide, laidItems]
          · exact List.cons_ne_nil item others
  | @dict room entries named distinct each induction =>
      have texts := indented_entries named (fun entry member => induction entry member (depth + 1))
        true
      cases entries with
      | nil => rfl
      | cons entry others =>
          rw [indented, texts, line_start_new_line, line_start_new_line, laid]
          · simp only [Written.of, and_then_text, if_true]
            congr 1
            apply String.toList_inj.mp
            rw [Layout.collection, strung_lead (wide.inner (depth + 1)) (by simp [laidEntries])]
            simp [Layout.close, wide, laidEntries]
          · exact List.cons_ne_nil entry others

/-! ### Characters -/

section Chars

variable {P : Char → Prop}

def Layout.Gaps (layout : Layout) (P : Char → Prop) : Prop :=
  ∀ depth, ∀ c ∈ layout.inner depth ++ layout.between depth ++ layout.outer depth, P c

theorem strung_chars (printable : ∀ c, IsPrintable c → P c) (gaps : layout.Gaps P)
    {parts : List (List Char)} (each : ∀ part ∈ parts, ∀ c ∈ part, P c) {lead : List Char}
    (leads : ∀ c ∈ lead, P c) : ∀ c ∈ layout.strung depth lead parts, P c := by
  have comma : ∀ c ∈ ',' :: layout.between depth, P c := by
    intro c member
    rcases List.mem_cons.mp member with rfl | gap
    · exact printable ',' (by decide)
    · exact gaps depth c (by simp [gap])
  induction parts generalizing lead with
  | nil =>
      intro c member
      cases member
  | cons part others induction =>
      intro c member
      rw [strung_cons, List.mem_append, List.mem_append] at member
      rcases member with early | here | late
      · exact leads c early
      · exact each part (by simp) c here
      · exact induction (fun part member => each part (by simp [member])) comma c late

theorem collection_chars (printable : ∀ c, IsPrintable c → P c) (gaps : layout.Gaps P)
    {opening closing : Char} (opens : IsPrintable opening) (closes : IsPrintable closing)
    {parts : List (List Char)} (each : ∀ part ∈ parts, ∀ c ∈ part, P c) :
    ∀ c ∈ layout.collection depth opening closing parts, P c := by
  have inner : ∀ c ∈ layout.inner (depth + 1), P c :=
    fun c member => gaps (depth + 1) c (by simp [member])
  have close : ∀ c ∈ layout.close depth parts, P c := by
    intro c member
    unfold Layout.close at member
    split_ifs at member
    · cases member
    · exact gaps depth c (by simp [member])
  intro c member
  rw [Layout.collection, List.mem_cons, List.mem_append, List.mem_append,
    List.mem_singleton] at member
  rcases member with rfl | middle | gap | rfl
  · exact printable _ opens
  · exact strung_chars printable gaps each inner c middle
  · exact close c gap
  · exact printable _ closes

theorem quoted_printable (text : String) : ∀ c ∈ quoted text, IsPrintable c := by
  intro c member
  simp only [quoted, List.mem_cons, List.mem_append, List.mem_flatMap, List.not_mem_nil,
    or_false] at member
  rcases member with rfl | ⟨d, -, escaped⟩ | rfl
  · decide
  · exact (escape_of_char d).printable c escaped
  · decide

theorem laid_chars (printable : ∀ c, IsPrintable c → P c) (gaps : layout.Gaps P) {room : ℕ}
    {v : Value} (plain : Plain room v) (depth : ℕ) : ∀ c ∈ laid layout depth v, P c := by
  induction plain generalizing depth with
  | null =>
      have null : ∀ c ∈ ['n', 'u', 'l', 'l'], IsPrintable c := by simp [IsPrintable]
      exact fun c member => printable c (null c member)
  | text text => exact fun c member => printable c (quoted_printable text c member)
  | list each induction =>
      rw [laid, laid_items_eq_map]
      apply collection_chars printable gaps (by decide) (by decide)
      intro part member
      obtain ⟨item, held, rfl⟩ := List.mem_map.mp member
      exact induction item held (depth + 1)
  | dict named distinct each induction =>
      rw [laid, laid_entries_eq_map]
      apply collection_chars printable gaps (by decide) (by decide)
      intro part member c inside
      obtain ⟨entry, held, rfl⟩ := List.mem_map.mp member
      obtain ⟨name, key⟩ := named entry held
      simp only [key, entryChars, List.mem_append, List.mem_cons] at inside
      rcases inside with name | rfl | rfl | value
      · exact printable c (quoted_printable _ c name)
      · exact printable _ (by decide)
      · exact printable _ (by decide)
      · exact induction entry held (depth + 1) c value

end Chars

theorem narrow_printable {room : ℕ} {v : Value} (plain : Plain room v) (depth : ℕ) :
    ∀ c ∈ laid narrow depth v, IsPrintable c := by
  refine laid_chars (fun c printable => printable) ?_ plain depth
  intro depth c member
  obtain rfl : c = ' ' := by simpa [narrow] using member
  decide

theorem wide_no_return {room : ℕ} {v : Value} (plain : Plain room v) (depth : ℕ) :
    ∀ c ∈ laid wide depth v, c ≠ '\r' := by
  refine laid_chars ?_ ?_ plain depth
  · rintro c printable rfl
    exact absurd printable (by decide)
  · intro depth c member
    simp only [wide, List.mem_append, or_self] at member
    rcases List.mem_cons.mp member with rfl | blank
    · decide
    · obtain rfl := List.eq_of_mem_replicate blank
      decide

theorem read_indented {room : ℕ} {v : Value} (plain : Plain room v) (shallow : room ≤ deepest) :
    (indented 0 v).failure = none ∧ read (indented 0 v).text = .ok v := by
  rw [indented_laid plain 0]
  exact ⟨rfl, read_laid plain shallow wide⟩

end SpreadWatch.Json
