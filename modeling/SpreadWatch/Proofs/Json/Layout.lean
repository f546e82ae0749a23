import SpreadWatch.Proofs.Json.Strings

/-!
Texts of JSON values in a layout. A layout says which blanks stand behind brackets and commas, and
the reader passes over blanks: so a text of any layout is read for the value that it was laid out
from. This is about values of null, texts, lists and mappings with distinct texts as keys.
-/

namespace SpreadWatch.Json

/-! ### Layouts -/

/-- Where blanks stand in a text: at the beginning of a collection, behind a comma, and at the end
of a collection. They depend on the number of collections around. -/
structure Layout where
  inner : ℕ → List Char
  between : ℕ → List Char
  outer : ℕ → List Char
  innerWhite : ∀ depth, ∀ c ∈ inner depth, isWhite c = true
  betweenWhite : ∀ depth, ∀ c ∈ between depth, isWhite c = true
  outerWhite : ∀ depth, ∀ c ∈ outer depth, isWhite c = true

def quoted (text : String) : List Char := '"' :: (text.toList.flatMap escapedChar ++ ['"'])

/-- Parts one behind the other: a lead, the first part, and each further part behind its comma. -/
def strung (lead comma : List Char) : List (List Char) → List Char
  | [] => []
  | part :: rest => lead ++ (part ++ strung comma comma rest)

def Layout.close (layout : Layout) (depth : ℕ) (parts : List (List Char)) : List Char :=
  if parts.isEmpty then [] else layout.outer depth

def Layout.strung (layout : Layout) (depth : ℕ) (lead : List Char) (parts : List (List Char)) :
    List Char :=
  Json.strung lead (',' :: layout.between depth) parts

def Layout.collection (layout : Layout) (depth : ℕ) (opening closing : Char)
    (parts : List (List Char)) : List Char :=
  opening :: (layout.strung (depth + 1) (layout.inner (depth + 1)) parts ++
    (layout.close depth parts ++ [closing]))

def entryChars (key : Value) (value : List Char) : List Char :=
  match key with
  | .text name => quoted name ++ ':' :: ' ' :: value
  | _ => ':' :: ' ' :: value

mutual

/-- A value in a layout. What is neither a text nor a list nor a mapping is laid out as null. -/
def laid (layout : Layout) (depth : ℕ) : Value → List Char
  | .text text => quoted text
  | .list items => layout.collection depth '[' ']' (laidItems layout (depth + 1) items)
  | .dict entries =>
      layout.collection depth '\x7b' '\x7d' (laidEntries layout (depth + 1) entries)
  | _ => ['n', 'u', 'l', 'l']

def laidItems (layout : Layout) (depth : ℕ) : List Value → List (List Char)
  | [] => []
  | item :: rest => laid layout depth item :: laidItems layout depth rest

def laidEntries (layout : Layout) (depth : ℕ) : List (Value × Value) → List (List Char)
  | [] => []
  | (key, value) :: rest =>
      entryChars key (laid layout depth value) :: laidEntries layout depth rest

end

/-- Null, texts, and lists and mappings of such values, in so many levels. The keys of a mapping are
distinct texts. -/
inductive Plain : ℕ → Value → Prop
  | null {room : ℕ} : Plain room .null
  | text {room : ℕ} (text : String) : Plain room (.text text)
  | list {room : ℕ} {items : List Value} (each : ∀ item ∈ items, Plain room item) :
      Plain (room + 1) (.list items)
  | dict {room : ℕ} {entries : List (Value × Value)}
      (named : ∀ entry ∈ entries, ∃ name, entry.1 = .text name)
      (distinct : (entries.map (·.1)).Nodup)
      (each : ∀ entry ∈ entries, Plain room entry.2) : Plain (room + 1) (.dict entries)

variable {layout : Layout} {depth : ℕ}

theorem laid_items_eq_map (items : List Value) :
    laidItems layout depth items = items.map (laid layout depth) := by
  induction items with
  | nil => rw [laidItems, List.map_nil]
  | cons item rest induction => rw [laidItems, induction, List.map_cons]

theorem laid_entries_eq_map (entries : List (Value × Value)) :
    laidEntries layout depth entries =
      entries.map fun entry => entryChars entry.1 (laid layout depth entry.2) := by
  induction entries with
  | nil => rw [laidEntries, List.map_nil]
  | cons entry rest induction => rw [laidEntries, induction, List.map_cons]

/-! ### Passing over blanks -/

theorem skip_white_solid {c : Char} (solid : isWhite c = false) (rest : List Char) :
    skipWhite (c :: rest) = c :: rest := by
  simp [skipWhite, solid]

theorem skip_white_gap {gap : List Char} (white : ∀ c ∈ gap, isWhite c = true) {c : Char}
    (solid : isWhite c = false) (rest : List Char) : skipWhite (gap ++ c :: rest) = c :: rest := by
  rw [skipWhite, List.dropWhile_append_of_pos white]
  exact skip_white_solid solid rest

/-- A text that begins with a character that is neither blank nor a closing bracket. -/
def Solid (chars : List Char) : Prop :=
  ∃ c rest, chars = c :: rest ∧ isWhite c = false ∧ c ≠ ']' ∧ c ≠ '\x7d'

theorem laid_solid (layout : Layout) (depth : ℕ) (value : Value) :
    Solid (laid layout depth value) := by
  cases value with
  | text text => exact ⟨'"', _, by rw [laid]; rfl, by decide, by decide, by decide⟩
  | list items => exact ⟨'[', _, by rw [laid]; rfl, by decide, by decide, by decide⟩
  | dict entries => exact ⟨'\x7b', _, by rw [laid]; rfl, by decide, by decide, by decide⟩
  | _ => exact ⟨'n', _, by rw [laid] <;> simp, by decide, by decide, by decide⟩

theorem entry_solid (name : String) (value : List Char) :
    Solid (entryChars (.text name) value) :=
  ⟨'"', _, rfl, by decide, by decide, by decide⟩

theorem skip_white_laid {gap : List Char} (white : ∀ c ∈ gap, isWhite c = true) {part : List Char}
    (solid : Solid part) (rest : List Char) : skipWhite (gap ++ (part ++ rest)) = part ++ rest := by
  obtain ⟨c, tail, rfl, visible, -⟩ := solid
  exact skip_white_gap white visible _

section Strung

variable {lead : List Char} {part : List Char} {parts : List (List Char)}

theorem strung_cons :
    layout.strung depth lead (part :: parts) =
      lead ++ (part ++ layout.strung depth (',' :: layout.between depth) parts) := rfl

theorem strung_lead (lead : List Char) (present : parts ≠ []) :
    layout.strung depth lead parts = lead ++ layout.strung depth [] parts := by
  cases parts with
  | nil => exact absurd rfl present
  | cons part rest => rfl

theorem strung_comma (gap : List Char) (present : parts ≠ []) :
    layout.strung depth (',' :: gap) parts = ',' :: layout.strung depth gap parts := by
  rw [strung_lead (',' :: gap) present, strung_lead gap present, List.cons_append]

theorem Layout.strung_length (layout : Layout) (depth : ℕ) (lead : List Char)
    (parts : List (List Char)) :
    (layout.strung depth [] parts).length ≤ (layout.strung depth lead parts).length := by
  cases parts with
  | nil => rfl
  | cons part rest => simp [strung_cons]

theorem skip_white_strung (white : ∀ c ∈ lead, isWhite c = true) (present : parts ≠ [])
    (solid : ∀ part ∈ parts, Solid part) (rest : List Char) :
    skipWhite (layout.strung depth lead parts ++ rest) = layout.strung depth [] parts ++ rest := by
  cases parts with
  | nil => exact absurd rfl present
  | cons part others =>
      simp only [strung_cons, List.append_assoc, List.nil_append]
      exact skip_white_laid white (solid part (by simp)) _

theorem Layout.strung_solid (layout : Layout) (depth : ℕ) (present : parts ≠ [])
    (solid : ∀ part ∈ parts, Solid part) : Solid (layout.strung depth [] parts) := by
  cases parts with
  | nil => exact absurd rfl present
  | cons part others =>
      obtain ⟨c, tail, rfl, visible⟩ := solid part (by simp)
      exact ⟨c, _, rfl, visible⟩

end Strung

/-! ### Reading -/

/-- The reader takes in a laid-out value, whatever stands behind it. -/
def Reads (layout : Layout) (depth : ℕ) (v : Value) : Prop :=
  ∀ fuel rest, (laid layout depth v).length ≤ fuel →
    value depth fuel (laid layout depth v ++ rest) = .ok (v, rest)

theorem reads_null : Reads layout depth .null := by
  intro fuel rest enough
  obtain ⟨fuel, rfl⟩ : ∃ less, fuel = less + 1 := ⟨fuel - 1, by simp [laid] at enough; omega⟩
  have word : word? ('n' :: 'u' :: 'l' :: 'l' :: rest) = some (.null, rest) := by
    simp [word?, words, afterWord?]
    rfl
  simp [laid, Json.value, word]
  rfl

theorem read_quoted (text : String) (rest : List Char) {fuel : ℕ}
    (enough : (quoted text).length ≤ fuel + 1) :
    stringRest (fuel + 1) (text.toList.flatMap escapedChar ++ '"' :: rest) =
      .ok (text.toList, rest) := by
  have lengths : text.toList.length ≤ (text.toList.flatMap escapedChar).length := by
    induction text.toList with
    | nil => simp
    | cons c others induction =>
        have positive := List.length_pos_iff.mpr (escape_of_char c).ne_nil
        rw [List.flatMap_cons, List.length_append, List.length_cons]
        omega
  rw [quoted, List.length_cons, List.length_append] at enough
  exact string_rest_written text.toList rest (by omega)

theorem reads_text (text : String) : Reads layout depth (.text text) := by
  intro fuel rest enough
  obtain ⟨fuel, rfl⟩ : ∃ less, fuel = less + 1 :=
    ⟨fuel - 1, by simp [laid, quoted] at enough; omega⟩
  rw [laid] at enough ⊢
  simp only [quoted, List.cons_append, List.append_assoc, List.nil_append, Json.value,
    read_quoted text rest enough]
  simp [bind, Except.bind]
  rfl

theorem items_solid (items : List Value) : ∀ part ∈ laidItems layout depth items, Solid part := by
  rw [laid_items_eq_map]
  intro part member
  obtain ⟨item, -, rfl⟩ := List.mem_map.mp member
  exact laid_solid layout depth item

theorem read_items {items : List Value} (each : ∀ item ∈ items, Reads layout depth item)
    (present : items ≠ []) {lead close : List Char} (leadWhite : ∀ c ∈ lead, isWhite c = true)
    (closeWhite : ∀ c ∈ close, isWhite c = true) (rest : List Char) {fuel : ℕ}
    (enough : (layout.strung depth lead (laidItems layout depth items)).length < fuel) :
    Json.items depth fuel
        (layout.strung depth lead (laidItems layout depth items) ++ (close ++ ']' :: rest)) =
      .ok (items, rest) := by
  induction items generalizing lead fuel with
  | nil => exact absurd rfl present
  | cons item others induction =>
      obtain ⟨fuel, rfl⟩ : ∃ less, fuel = less + 1 := ⟨fuel - 1, by omega⟩
      have solid : ∀ part ∈ laidItems layout depth (item :: others), Solid part := items_solid _
      rw [laidItems] at enough solid ⊢
      rw [Json.items, skip_white_strung leadWhite (by simp) solid, strung_cons, List.nil_append,
        List.append_assoc]
      rw [strung_cons, List.length_append, List.length_append] at enough
      rw [each item (by simp) fuel _ (by omega)]
      simp only [bind, Except.bind]
      by_cases last : others = []
      · subst last
        rw [laidItems, Layout.strung, strung, List.nil_append,
          skip_white_gap closeWhite (by decide)]
        rfl
      · have present : laidItems layout depth others ≠ [] := by
          rw [laid_items_eq_map]
          simpa using last
        rw [strung_comma _ present, List.length_cons] at enough
        rw [strung_comma _ present, List.cons_append, skip_white_solid (by decide)]
        have read : Json.items depth fuel
            (layout.strung depth (layout.between depth) (laidItems layout depth others) ++
              (close ++ ']' :: rest)) = .ok (others, rest) :=
          induction (fun other member => each other (by simp [member])) last
            (layout.betweenWhite depth) (by omega)
        simp only [read]
        rfl

theorem reads_list {items : List Value} (each : ∀ item ∈ items, Reads layout (depth + 1) item)
    (shallow : depth < deepest) : Reads layout depth (.list items) := by
  intro fuel rest enough
  rw [laid, Layout.collection] at enough ⊢
  simp only [List.length_cons, List.length_append] at enough
  obtain ⟨fuel, rfl⟩ : ∃ less, fuel = less + 1 := ⟨fuel - 1, by omega⟩
  simp only [List.cons_append, List.append_assoc, List.nil_append, Json.value]
  rw [if_neg (not_le.mpr shallow)]
  by_cases empty : items = []
  · subst empty
    rw [laidItems, Layout.strung, strung, List.nil_append, Layout.close, List.isEmpty_nil,
      if_pos rfl, List.nil_append, skip_white_solid (by decide)]
    rfl
  · have present : laidItems layout (depth + 1) items ≠ [] := by
      rw [laid_items_eq_map]
      simpa using empty
    have close : layout.close depth (laidItems layout (depth + 1) items) = layout.outer depth := by
      simp [Layout.close, present]
    have read : Json.items (depth + 1) fuel
        (layout.strung (depth + 1) [] (laidItems layout (depth + 1) items) ++
          (layout.outer depth ++ ']' :: rest)) = .ok (items, rest) := by
      have shorter := layout.strung_length (depth + 1) (layout.inner (depth + 1))
        (laidItems layout (depth + 1) items)
      exact read_items each empty (by simp) (layout.outerWhite depth) rest (by omega)
    rw [skip_white_strung (layout.innerWhite _) present (items_solid items), close]
    obtain ⟨c, tail, head, -, noBracket, -⟩ := layout.strung_solid (depth + 1) present
      (items_solid items)
    rw [head, List.cons_append] at read ⊢
    split
    · rename_i others bracket
      injection bracket with same
      exact absurd same noBracket
    · rw [read]
      rfl

/-! ### Mappings -/

theorem insert_new {entries : List (Value × Value)} {name : String} (value : Value)
    (named : ∀ entry ∈ entries, ∃ other, entry.1 = .text other)
    (absent : Value.text name ∉ entries.map (·.1)) :
    Entries.insert entries (.text name) value = entries ++ [(.text name, value)] := by
  induction entries with
  | nil => rfl
  | cons entry others induction =>
      obtain ⟨key, old⟩ := entry
      obtain ⟨other, rfl⟩ : ∃ other, key = .text other := named (key, old) (by simp)
      simp only [List.map_cons, List.mem_cons, not_or] at absent
      have differs : other ≠ name := fun same => absent.1 (by rw [same])
      have later := induction (fun entry member => named entry (by simp [member])) absent.2
      simp [Entries.insert, Value.sameKey, differs, later]

/-- A mapping whose keys are distinct texts is what its entries give one after the other. -/
theorem of_pairs_distinct {entries : List (Value × Value)}
    (named : ∀ entry ∈ entries, ∃ name, entry.1 = .text name)
    (distinct : (entries.map (·.1)).Nodup) : Entries.ofPairs entries = entries := by
  unfold Entries.ofPairs
  induction entries using List.reverseRecOn with
  | nil => rfl
  | append_singleton early entry induction =>
      obtain ⟨key, value⟩ := entry
      obtain ⟨name, rfl⟩ : ∃ name, key = .text name := named (key, value) (by simp)
      have earlyNamed : ∀ entry ∈ early, ∃ name, entry.1 = .text name :=
        fun entry member => named entry (by simp [member])
      rw [List.map_append, List.nodup_append] at distinct
      obtain ⟨earlyDistinct, -, apart⟩ := distinct
      rw [List.foldl_append, induction earlyNamed earlyDistinct]
      exact insert_new value earlyNamed fun member => apart _ member _ (by simp) rfl

theorem entries_solid {entries : List (Value × Value)}
    (named : ∀ entry ∈ entries, ∃ name, entry.1 = .text name) :
    ∀ part ∈ laidEntries layout depth entries, Solid part := by
  rw [laid_entries_eq_map]
  intro part member
  obtain ⟨entry, held, rfl⟩ := List.mem_map.mp member
  obtain ⟨name, key⟩ := named entry held
  rw [key]
  exact entry_solid name _

theorem read_entries {entries : List (Value × Value)}
    (named : ∀ entry ∈ entries, ∃ name, entry.1 = .text name)
    (each : ∀ entry ∈ entries, Reads layout depth entry.2)
    (present : entries ≠ []) {lead close : List Char} (leadWhite : ∀ c ∈ lead, isWhite c = true)
    (closeWhite : ∀ c ∈ close, isWhite c = true) (rest : List Char) {fuel : ℕ}
    (enough : (layout.strung depth lead (laidEntries layout depth entries)).length < fuel) :
    Json.entries depth fuel
        (layout.strung depth lead (laidEntries layout depth entries) ++ (close ++ '\x7d' :: rest)) =
      .ok (entries, rest) := by
  induction entries generalizing lead fuel with
  | nil => exact absurd rfl present
  | cons entry others induction =>
      obtain ⟨fuel, rfl⟩ : ∃ less, fuel = less + 1 := ⟨fuel - 1, by omega⟩
      have solid : ∀ part ∈ laidEntries layout depth (entry :: others), Solid part :=
        entries_solid named
      obtain ⟨key, value⟩ := entry
      obtain ⟨name, rfl⟩ : ∃ name, key = .text name := named (key, value) (by simp)
      have reads : Reads layout depth value := each (.text name, value) (by simp)
      rw [laidEntries] at enough solid ⊢
      rw [Json.entries, skip_white_strung leadWhite (by simp) solid]
      rw [strung_cons, List.length_append, List.length_append] at enough
      simp only [entryChars, List.length_append, List.length_cons] at enough
      simp only [strung_cons, entryChars, quoted, List.nil_append, List.cons_append,
        List.append_assoc]
      rw [read_quoted name _ (by omega)]
      simp only [bind, Except.bind]
      rw [skip_white_solid (by decide)]
      have spaced : ∀ rest, skipWhite (' ' :: (laid layout depth value ++ rest)) =
          laid layout depth value ++ rest :=
        skip_white_laid (by simp [isWhite] : ∀ c ∈ [' '], isWhite c = true) (laid_solid _ _ value)
      simp only [spaced, reads fuel _ (by omega), String.ofList_toList]
      by_cases last : others = []
      · subst last
        rw [laidEntries, Layout.strung, strung, List.nil_append,
          skip_white_gap closeWhite (by decide)]
        rfl
      · have present : laidEntries layout depth others ≠ [] := by
          rw [laid_entries_eq_map]
          simpa using last
        rw [strung_comma _ present, List.length_cons] at enough
        rw [strung_comma _ present, List.cons_append, skip_white_solid (by decide)]
        have read : Json.entries depth fuel
            (layout.strung depth (layout.between depth) (laidEntries layout depth others) ++
              (close ++ '\x7d' :: rest)) = .ok (others, rest) :=
          induction (fun other member => named other (by simp [member]))
            (fun other member => each other (by simp [member])) last (layout.betweenWhite depth)
            (by omega)
        simp only [read]
        rfl

theorem reads_dict {entries : List (Value × Value)}
    (named : ∀ entry ∈ entries, ∃ name, entry.1 = .text name)
    (distinct : (entries.map (·.1)).Nodup)
    (each : ∀ entry ∈ entries, Reads layout (depth + 1) entry.2)
    (shallow : depth < deepest) : Reads layout depth (.dict entries) := by
  intro fuel rest enough
  rw [laid, Layout.collection] at enough ⊢
  simp only [List.length_cons, List.length_append] at enough
  obtain ⟨fuel, rfl⟩ : ∃ less, fuel = less + 1 := ⟨fuel - 1, by omega⟩
  simp only [List.cons_append, List.append_assoc, List.nil_append]
  have opening : Char.toNat '\x7b' = 0x7B := rfl
  rw [Json.value, if_pos opening]
  · dsimp only
    rw [if_neg (not_le.mpr shallow)]
    by_cases empty : entries = []
    · subst empty
      rw [laidEntries, Layout.strung, strung, List.nil_append, Layout.close, List.isEmpty_nil,
        if_pos rfl, List.nil_append, skip_white_solid (by decide)]
      rfl
    · have present : laidEntries layout (depth + 1) entries ≠ [] := by
        rw [laid_entries_eq_map]
        simpa using empty
      have close : layout.close depth (laidEntries layout (depth + 1) entries) =
          layout.outer depth := by simp [Layout.close, present]
      have read : Json.entries (depth + 1) fuel
          (layout.strung (depth + 1) [] (laidEntries layout (depth + 1) entries) ++
            (layout.outer depth ++ '\x7d' :: rest)) = .ok (entries, rest) := by
        have shorter := layout.strung_length (depth + 1) (layout.inner (depth + 1))
          (laidEntries layout (depth + 1) entries)
        exact read_entries named each empty (by simp) (layout.outerWhite depth) rest (by omega)
      rw [skip_white_strung (layout.innerWhite _) present (entries_solid named), close]
      obtain ⟨c, tail, head, -, -, noBrace⟩ := layout.strung_solid (depth + 1) present
        (entries_solid named)
      have different : c.toNat ≠ 0x7D := fun code => noBrace (char_of_code code)
      rw [head, List.cons_append] at read ⊢
      dsimp only
      rw [if_neg different, read]
      simp only [bind, Except.bind, of_pairs_distinct named distinct]
      rfl
  · decide
  · decide

theorem reads_of_plain {room : ℕ} {v : Value} (plain : Plain room v)
    (shallow : depth + room ≤ deepest) : Reads layout depth v := by
  induction plain generalizing depth with
  | null => exact reads_null
  | text text => exact reads_text text
  | list each induction =>
      exact reads_list (fun item member => induction item member (by omega)) (by omega)
  | dict named distinct each induction =>
      exact reads_dict named distinct (fun entry member => induction entry member (by omega))
        (by omega)

/-- A text in a layout is read for the value that was laid out. -/
theorem read_laid {room : ℕ} {v : Value} (plain : Plain room v) (shallow : room ≤ deepest)
    (layout : Layout) : read (String.ofList (laid layout 0 v)) = .ok v := by
  obtain ⟨c, tail, head, visible, -⟩ := laid_solid layout 0 v
  have skipped : skipWhite (laid layout 0 v) = laid layout 0 v := by
    rw [head]
    exact skip_white_solid visible tail
  have reads : Reads layout 0 v := reads_of_plain plain (by omega)
  have found := reads (2 * (laid layout 0 v).length + 2) [] (by omega)
  rw [List.append_nil] at found
  simp only [read, String.toList_ofList, skipped, found, bind, Except.bind]
  rfl

end SpreadWatch.Json
