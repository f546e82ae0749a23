import SpreadWatch.Proofs.Decimal.Text
import SpreadWatch.Proofs.Pair
import SpreadWatch.Proofs.WaterMark.Atomicity

/-!
The summary of the water marks as a text to be read. Its lines are those of four blocks of the same
pairs in the same order, and a line gives its pair and its value back, although what separates them
may also stand in an instrument: the exchanges are cut off from the front, the value from the end.
So trackers with different marks have different summaries.
-/

namespace SpreadWatch

/-! ### Cutting a text -/

namespace Text

def cutFirst (mark : Char) : List Char → Option (List Char × List Char)
  | [] => none
  | c :: rest =>
      if c = mark then some ([], rest)
      else (cutFirst mark rest).map fun (before, behind) => (c :: before, behind)

def cutLast (separator : List Char) : List Char → Option (List Char × List Char)
  | [] => none
  | c :: rest =>
      match cutLast separator rest with
      | some (before, behind) => some (c :: before, behind)
      | none => ((c :: rest).dropPrefix? separator).map fun behind => ([], behind)

theorem cut_first_eq_some_iff {mark : Char} {text before behind : List Char} :
    cutFirst mark text = some (before, behind) ↔
      text = before ++ mark :: behind ∧ mark ∉ before := by
  induction text generalizing before with
  | nil => simp [cutFirst]
  | cons c rest induction =>
      rw [cutFirst]
      by_cases here : c = mark
      · cases before with
        | nil => simp [here]
        | cons first others => simp +contextual [here]
      · rw [if_neg here, Option.map_eq_some_iff]
        constructor
        · rintro ⟨⟨others, _⟩, found, same⟩
          cases same
          obtain ⟨rfl, absent⟩ := induction.mp found
          exact ⟨rfl, List.not_mem_cons_of_ne_of_not_mem (Ne.symm here) absent⟩
        · rintro ⟨same, absent⟩
          cases before with
          | nil => exact absurd (List.head_eq_of_cons_eq same) here
          | cons first others =>
              obtain ⟨rfl, restSame⟩ := List.cons.inj same
              have later := List.not_mem_of_not_mem_cons absent
              exact ⟨(others, behind), induction.mpr ⟨restSame, later⟩, rfl⟩

section Last

variable {separator : List Char} (nonempty : separator ≠ [])
include nonempty

theorem cut_last_eq_none_iff {text : List Char} :
    cutLast separator text = none ↔ ¬ separator <:+: text := by
  induction text with
  | nil => simp [cutLast, nonempty]
  | cons c rest induction =>
      rw [cutLast, List.infix_cons_iff, not_or, ← induction]
      cases cutLast separator rest with
      | none =>
          simp [List.prefix_iff_exists_eq_append, Option.eq_none_iff_forall_ne_some,
            List.dropPrefix?_eq_some_iff]
      | some => simp

/-- No place of the separator is behind the last one, not even one that overlaps it. -/
theorem cut_last_eq_some_iff {text before behind : List Char} :
    cutLast separator text = some (before, behind) ↔
      text = before ++ separator ++ behind ∧ ¬ separator <:+: (separator ++ behind).tail := by
  induction text generalizing before behind with
  | nil => simp [cutLast, nonempty]
  | cons c rest induction =>
      rw [cutLast]
      cases later : cutLast separator rest with
      | none =>
          have absent := (cut_last_eq_none_iff nonempty).mp later
          simp only [Option.map_eq_some_iff, List.dropPrefix?_eq_some_iff, beq_iff_eq,
            exists_eq_right, Prod.mk.injEq]
          constructor
          · rintro ⟨_, same, rfl, rfl⟩
            rw [← same]
            exact ⟨same, absent⟩
          · rintro ⟨same, -⟩
            cases before with
            | nil => exact ⟨behind, same, rfl, rfl⟩
            | cons first others =>
                exact absurd ⟨others, behind, (List.tail_eq_of_cons_eq same).symm⟩ absent
      | some cut =>
          obtain ⟨others, last⟩ := cut
          obtain ⟨same, final⟩ := induction.mp later
          constructor
          · rintro ⟨⟩
            exact ⟨congrArg (c :: ·) same, final⟩
          · rintro ⟨again, behindFinal⟩
            cases before with
            | nil =>
                rw [List.nil_append] at again
                rw [← again, List.tail_cons, same] at behindFinal
                exact absurd (List.infix_append others separator last) behindFinal
            | cons first begun =>
                obtain ⟨rfl, restAgain⟩ := List.cons.inj again
                cases later.symm.trans (induction.mpr ⟨restAgain, behindFinal⟩)
                rfl

end Last

end Text

/-! ### Lines -/

/-- No part of the pair breaks a line, and the exchanges are free of what ends them there. -/
structure Pair.Legible (pair : Pair) : Prop where
  long : '\n' ∉ pair.long.toList ∧ '/' ∉ pair.long.toList
  short : '\n' ∉ pair.short.toList ∧ ' ' ∉ pair.short.toList
  instrument : '\n' ∉ pair.instrument.toList

/-- A result of a legible pair, with spreads in the range of all decimals. -/
structure SpreadResult.Legible (result : SpreadResult) : Prop where
  pair : result.pair.Legible
  spreads : ∀ spread, result.entry = some spread ∨ result.exit = some spread →
    spread.inRange = true

/-- The pair and the value that a line is about: the first slash ends the long exchange, the next
space the short one, and the last colon with a space behind it the instrument. -/
def readLine? (line : String) : Option (Pair × Decimal) := do
  let (long, rest) ← Text.cutFirst '/' line.toList
  let (short, rest) ← Text.cutFirst ' ' rest
  let (instrument, value) ← Text.cutLast [':', ' '] rest
  let value ← (Decimal.ofText (String.ofList value)).toOption
  return ({ long := String.ofList long, short := String.ofList short,
            instrument := String.ofList instrument }, value)

def lineOf (pair : Pair) (value : Decimal) : String := pair.toText ++ ": " ++ value.toText

theorem line_of_chars (pair : Pair) (value : Decimal) :
    (lineOf pair value).toList = pair.long.toList ++ '/' :: (pair.short.toList ++ ' ' ::
      (pair.instrument.toList ++ [':', ' '] ++ value.toChars)) := by
  simp [lineOf, Pair.toText, Decimal.toText]

theorem line_ne_empty (pair : Pair) (value : Decimal) : lineOf pair value ≠ "" := by
  intro empty
  have chars := line_of_chars pair value
  rw [empty] at chars
  simp at chars

theorem decimal_chars_ne (value : Decimal) {c : Char} (foreign : c ∉ Decimal.alphabet) :
    c ∉ value.toChars :=
  fun member => foreign (Decimal.to_chars_alphabet value c member)

theorem line_unbroken {pair : Pair} (legible : pair.Legible) (value : Decimal) :
    '\n' ∉ (lineOf pair value).toList := by
  have unbroken : '\n' ∉ value.toChars := decimal_chars_ne value (by decide)
  simp [line_of_chars, legible.long.1, legible.short.1, legible.instrument, unbroken]

/-- A line gives the pair and the value back that it has been written for. -/
theorem read_line_of {pair : Pair} (legible : pair.Legible) {value : Decimal}
    (fits : value.inRange = true) : readLine? (lineOf pair value) = some (pair, value) := by
  have colonless : ':' ∉ value.toChars := decimal_chars_ne value (by decide)
  have final : ¬ [':', ' '] <:+: ([':', ' '] ++ value.toChars).tail := by
    intro later
    have colon := later.subset (List.mem_cons_self ..)
    simp [colonless] at colon
  have long := Text.cut_first_eq_some_iff.mpr ⟨line_of_chars pair value, legible.long.2⟩
  have short : ∀ rest, Text.cutFirst ' ' (pair.short.toList ++ ' ' :: rest) =
      some (pair.short.toList, rest) :=
    fun _ => Text.cut_first_eq_some_iff.mpr ⟨rfl, legible.short.2⟩
  have instrument :
      Text.cutLast [':', ' '] (pair.instrument.toList ++ [':', ' '] ++ value.toChars) =
        some (pair.instrument.toList, value.toChars) :=
    (Text.cut_last_eq_some_iff (by simp)).mpr ⟨rfl, final⟩
  have read : Decimal.ofText (String.ofList value.toChars) = .ok value :=
    Decimal.of_text_to_text fits
  simp only [readLine?, Option.bind_eq_bind, Option.bind_some, long, short, instrument, read,
    Except.toOption, String.ofList_toList]
  rfl

/-! ### Values -/

namespace Mark

/-- A value that a mark can have: the one it starts from, or a spread recorded for the pair. -/
def Drawn (mark : Mark) (history : List SpreadResult) (pair : Pair) (value : Decimal) : Prop :=
  value = mark.start ∨ ∃ result ∈ history, result.pair = pair ∧ mark.spreadOf result = some value

def Draws (mark : Mark) (history : List SpreadResult) (table : MarkTable) : Prop :=
  ∀ pair value, table.get? pair = some value → mark.Drawn history pair value

theorem Drawn.later {mark : Mark} {history : List SpreadResult} {pair : Pair} {value : Decimal}
    (drawn : mark.Drawn history pair value) (result : SpreadResult) :
    mark.Drawn (history ++ [result]) pair value := by
  rcases drawn with start | ⟨earlier, member, recorded⟩
  · exact .inl start
  · exact .inr ⟨earlier, List.mem_append_left _ member, recorded⟩

theorem extreme_of_two {mark : Mark} {known spread value : Decimal}
    (computed : mark.extreme known spread = .ok value) : value = known ∨ value = spread := by
  have chosen : ∀ compared : Except Decimal.Signal Bool,
      (do return if ← compared then spread else known) = Except.ok value →
      value = known ∨ value = spread := by
    rintro (signal | _ | _) ⟨⟩
    · exact .inl rfl
    · exact .inr rfl
  cases mark <;> exact chosen _ computed

theorem extend_draws {mark : Mark} {history : List SpreadResult} {table next : MarkTable}
    {result : SpreadResult} (draws : mark.Draws history table)
    (extended : Tracker.extend table mark result.pair (mark.spreadOf result) = .ok next) :
    mark.Draws (history ++ [result]) next := by
  cases given : mark.spreadOf result with
  | none =>
      rw [given] at extended
      cases extended
  | some spread =>
      rw [given, extend_eq_ok_iff] at extended
      obtain ⟨value, computed, rfl⟩ := extended
      intro pair found lookup
      rw [PairTable.get_set] at lookup
      split_ifs at lookup with same
      · cases lookup
        cases same
        rcases extreme_of_two computed with rfl | rfl
        · cases before : table.get? result.pair with
          | none => exact .inl rfl
          | some old => exact (draws result.pair old before).later result
        · exact .inr ⟨result, by simp, rfl, given⟩
      · exact (draws pair found lookup).later result

end Mark

namespace Tracker

/-- All marks after some results, as values and not only as numbers. -/
def Keeps (history : List SpreadResult) (tracker : Tracker) : Prop :=
  ∀ mark : Mark, mark.Tracks history (tracker.table mark) ∧
    mark.Draws history (tracker.table mark)

theorem keeps_nothing : Keeps [] {} := by
  intro mark
  refine ⟨tracks_nothing mark, fun pair value found => ?_⟩
  cases mark <;> cases found

theorem record_keeps {history : List SpreadResult} {tracker : Tracker}
    (keeps : Keeps history tracker) {result : SpreadResult} (numeric : result.Numeric) :
    ∃ next, (record result).ending tracker = (.ok (), next) ∧ Keeps (history ++ [result]) next := by
  have step : ∀ (mark : Mark) (table : MarkTable),
      mark.Tracks history table ∧ mark.Draws history table → ∃ next,
        extend table mark result.pair (mark.spreadOf result) = .ok next ∧
          mark.Tracks (history ++ [result]) next ∧ mark.Draws (history ++ [result]) next := by
    rintro mark table ⟨tracks, draws⟩
    obtain ⟨next, extended, tracked⟩ :=
      Mark.extend_tracks tracks (mark.quantity_of_numeric numeric)
    exact ⟨next, extended, tracked, Mark.extend_draws draws extended⟩
  exact record_all step keeps

theorem calls_keep_values {calls : List Call} (numeric : ∀ call ∈ calls, call.Numeric) :
    ∃ tracker, Action.ending (calls.forM Call.run) {} = (.ok (), tracker) ∧
      Keeps (sinceReset calls) tracker :=
  calls_keep keeps_nothing (fun keeps _ number => record_keeps keeps number) keeps_nothing numeric

/-! ### The text -/

variable {tracker : Tracker} {history : List SpreadResult}

def linesOf (text : String) : List String := (text.toList.splitOn '\n').map String.ofList

def linesFor (tracker : Tracker) (mark : Mark) : List String :=
  (tracker.table mark).sorted.map fun (pair, value) => lineOf pair value

theorem lines_of_intercalate {lines : List String} (nonempty : lines ≠ [])
    (unbroken : ∀ line ∈ lines, '\n' ∉ line.toList) :
    linesOf ("\n".intercalate lines) = lines := by
  have each : ∀ chars ∈ lines.map String.toList, '\n' ∉ chars := by
    simpa using unbroken
  rw [linesOf, String.toList_intercalate, show "\n".toList = ['\n'] from rfl,
    List.splitOn_intercalate _ each (by simpa using nonempty), List.map_map]
  simp [Function.comp_def]

theorem intercalate_groups {α : Type} (separator : String) {group : α → List String}
    (filled : ∀ member, group member ≠ []) (members : List α) :
    separator.intercalate (members.map fun member => separator.intercalate (group member)) =
      separator.intercalate (members.flatMap group) := by
  induction members with
  | nil => rfl
  | cons first rest induction =>
      cases rest with
      | nil => simp
      | cons second others =>
          have someRest : (second :: others).flatMap group ≠ [] := by
            simp [filled second]
          rw [List.flatMap_cons, String.intercalate_append_of_ne_nil (filled first) someRest,
            ← induction]
          exact String.intercalate_cons_cons

theorem intercalate_ne_empty {separator line : String} (rest : List String) (filled : line ≠ "") :
    separator.intercalate (line :: rest) ≠ "" := by
  cases rest with
  | nil => simpa using filled
  | cons next others => simp [String.intercalate_cons_cons, filled]

theorem section_text (title : String) {lines : List String} (filled : ∀ line ∈ lines, line ≠ "") :
    (if ("\n".intercalate lines).isEmpty then title ++ ":"
      else title ++ ":\n" ++ "\n".intercalate lines) =
      "\n".intercalate ((title ++ ":") :: lines) := by
  cases lines with
  | nil => simp
  | cons line rest =>
      have someBlock : ("\n".intercalate (line :: rest)).isEmpty = false := by
        simpa using intercalate_ne_empty rest (filled line (by simp))
      have ended : title ++ ":" ++ "\n" = title ++ ":\n" := by
        rw [String.append_assoc]
        rfl
      rw [someBlock, String.intercalate_cons_cons, ended]
      rfl

theorem summary_text (tracker : Tracker) :
    tracker.summary = "\n".intercalate
      (Mark.all.flatMap fun mark => (mark.title ++ ":") :: tracker.linesFor mark) := by
  have filled : ∀ mark, ∀ line ∈ tracker.linesFor mark, line ≠ "" := by
    intro mark line member
    obtain ⟨⟨pair, value⟩, -, rfl⟩ := List.mem_map.mp member
    exact line_ne_empty pair value
  rw [← intercalate_groups "\n" (by simp), summary, blocks, List.map_map]
  exact congrArg _ (List.map_congr_left fun mark _ => section_text mark.title (filled mark))

/-! ### Reading the text -/

/-- A summary that can be read: the tracked pairs are increasing and have a value under each mark,
and under each title there is a line for each of them, which gives the pair and the value back. -/
structure ReadsBack (tracker : Tracker) (lines : Mark → List String) : Prop where
  increasing : tracker.keys.Pairwise Pair.Below
  tracked : ∀ mark pair, pair ∈ tracker.keys ↔
    ∃ value, (tracker.table mark).get? pair = some value
  blocks : linesOf tracker.summary =
    Mark.all.flatMap fun mark => (mark.title ++ ":") :: lines mark
  read : ∀ mark, (lines mark).map readLine? =
    tracker.keys.map fun pair => ((tracker.table mark).get? pair).map (pair, ·)

def SameMarks (first second : Tracker) : Prop :=
  ∀ (mark : Mark) (pair : Pair), (first.table mark).get? pair = (second.table mark).get? pair

theorem keys_of_keeps (keeps : Keeps history tracker) (mark : Mark) :
    (tracker.table mark).keys = tracker.keys := by
  refine Pair.sort_eq_of_same_members (keeps mark).1.nodup (keeps .minEntry).1.nodup fun pair => ?_
  rw [(keeps mark).1.keys]
  exact ((keeps .minEntry).1.keys pair).symm

theorem recorded_of_keeps (keeps : Keeps history tracker) (pair : Pair) :
    pair ∈ tracker.keys ↔ ∃ result ∈ history, result.pair = pair := by
  rw [keys, PairTable.keys, (Pair.sort_perm _).mem_iff]
  exact (keeps .minEntry).1.keys pair

theorem tracked_of_keeps (keeps : Keeps history tracker) (mark : Mark) (pair : Pair) :
    pair ∈ tracker.keys ↔ ∃ value, (tracker.table mark).get? pair = some value := by
  rw [recorded_of_keeps keeps, ← (keeps mark).1.keys, PairTable.mem_keys_iff]

theorem legible_of_keeps (keeps : Keeps history tracker)
    (legible : ∀ result ∈ history, result.Legible) {mark : Mark} {pair : Pair} {value : Decimal}
    (found : (tracker.table mark).get? pair = some value) :
    pair.Legible ∧ value.inRange = true := by
  constructor
  · have key := (PairTable.mem_keys_iff _ pair).mpr ⟨value, found⟩
    obtain ⟨result, member, rfl⟩ := ((keeps mark).1.keys pair).mp key
    exact (legible result member).pair
  · rcases (keeps mark).2 pair value found with rfl | ⟨result, member, -, given⟩
    · cases mark <;> decide +kernel
    · refine (legible result member).spreads value ?_
      cases mark with
      | minEntry | maxEntry => exact .inl given
      | minExit | maxExit => exact .inr given

theorem read_values {α β : Type} {find : α → Option β} {text : β → String}
    {read : String → Option β} {keys : List α}
    (each : ∀ key ∈ keys, ∃ value, find key = some value ∧ read (text value) = some value) :
    ((keys.filterMap find).map text).map read = keys.map find := by
  induction keys with
  | nil => rfl
  | cons key rest induction =>
      obtain ⟨value, found, reads⟩ := each key (by simp)
      have others := induction fun other member => each other (by simp [member])
      rw [List.filterMap_cons_some found, List.map_cons, List.map_cons, List.map_cons, reads,
        found, others]

theorem reads_back (keeps : Keeps history tracker)
    (legible : ∀ result ∈ history, result.Legible) : ReadsBack tracker tracker.linesFor where
  increasing := Pair.sort_increasing (keeps .minEntry).1.nodup
  tracked := tracked_of_keeps keeps
  blocks := by
    rw [summary_text, lines_of_intercalate (by simp [Mark.all])]
    intro line member
    obtain ⟨mark, -, member⟩ := List.mem_flatMap.mp member
    rcases List.mem_cons.mp member with rfl | member
    · cases mark <;> decide
    · obtain ⟨⟨pair, value⟩, sorted, rfl⟩ := List.mem_map.mp member
      obtain ⟨pair, -, found⟩ := List.mem_filterMap.mp sorted
      obtain ⟨value, found, same⟩ := Option.map_eq_some_iff.mp found
      cases same
      exact line_unbroken (legible_of_keeps keeps legible found).1 value
  read := by
    intro mark
    rw [← keys_of_keeps keeps mark]
    refine read_values fun pair member => ?_
    rw [keys_of_keeps keeps mark] at member
    obtain ⟨value, found⟩ := (tracked_of_keeps keeps mark pair).mp member
    obtain ⟨pairLegible, fits⟩ := legible_of_keeps keeps legible found
    exact ⟨(pair, value), by rw [found]; rfl, read_line_of pairLegible fits⟩

/-- What can be read from a block is what the table of its mark holds. -/
theorem ReadsBack.holds_iff {lines : Mark → List String} (reads : ReadsBack tracker lines)
    (mark : Mark) (pair : Pair) (value : Decimal) :
    some (pair, value) ∈ (lines mark).map readLine? ↔
      (tracker.table mark).get? pair = some value := by
  rw [reads.read, List.mem_map]
  constructor
  · rintro ⟨other, -, found⟩
    obtain ⟨known, found, same⟩ := Option.map_eq_some_iff.mp found
    cases same
    exact found
  · intro found
    exact ⟨pair, (reads.tracked mark pair).mpr ⟨value, found⟩, by rw [found]; rfl⟩

/-- Groups of one length each are known from the list of them all. -/
theorem groups_eq_of_flat_map {α β : Type} {first second : α → List β} {m n : ℕ} {members : List α}
    (firstLength : ∀ member, (first member).length = m)
    (secondLength : ∀ member, (second member).length = n)
    (same : members.flatMap first = members.flatMap second) :
    ∀ member ∈ members, first member = second member := by
  cases members with
  | nil => simp
  | cons head rest =>
      have total := congrArg List.length same
      simp only [List.length_flatMap, firstLength, secondLength, List.map_const',
        List.sum_replicate, List.length_cons, smul_eq_mul] at total
      obtain rfl : m = n := Nat.eq_of_mul_eq_mul_left (Nat.succ_pos _) total
      clear total
      generalize head :: rest = members at same
      induction members with
      | nil => simp
      | cons head rest induction =>
          obtain ⟨heads, rests⟩ :=
            List.append_inj same ((firstLength head).trans (secondLength head).symm)
          exact List.forall_mem_cons.mpr ⟨heads, induction rests⟩

theorem ReadsBack.same_marks {other : Tracker} {lines others : Mark → List String}
    (reads : ReadsBack tracker lines) (otherReads : ReadsBack other others)
    (same : tracker.summary = other.summary) : SameMarks tracker other := by
  have length : ∀ {tracker : Tracker} {lines : Mark → List String}, ReadsBack tracker lines →
      ∀ mark, ((mark.title ++ ":") :: lines mark).length = tracker.keys.length + 1 := by
    intro tracker lines reads mark
    have counted := congrArg List.length (reads.read mark)
    rw [List.length_map, List.length_map] at counted
    rw [List.length_cons, counted]
  have flat := reads.blocks.symm.trans ((congrArg linesOf same).trans otherReads.blocks)
  have sections := groups_eq_of_flat_map (length reads) (length otherReads) flat
  intro mark pair
  ext value
  rw [← reads.holds_iff, ← otherReads.holds_iff, (List.cons.inj (sections mark mark.mem_all)).2]

/-- The summary depends on nothing but the marks. -/
theorem SameMarks.summary_eq {other : Tracker} {otherHistory : List SpreadResult}
    (same : SameMarks tracker other) (keeps : Keeps history tracker)
    (otherKeeps : Keeps otherHistory other) : tracker.summary = other.summary := by
  have keys : tracker.keys = other.keys := by
    refine Pair.sort_eq_of_same_members (keeps .minEntry).1.nodup (otherKeeps .minEntry).1.nodup
      fun pair => ?_
    have found : tracker.minEntry.get? pair = other.minEntry.get? pair := same .minEntry pair
    rw [PairTable.mem_keys_iff, PairTable.mem_keys_iff, found]
  have lines : ∀ mark, tracker.linesFor mark = other.linesFor mark := by
    intro mark
    simp only [linesFor, PairTable.sorted, keys_of_keeps keeps, keys_of_keeps otherKeeps, keys,
      same mark]
  simp only [summary_text, lines]

/-- After any calls whose results since the last reset are legible, their pairs are tracked, and the
summary consists of the blocks of the four marks and gives every pair and every value back, down to
the digits. So two such summaries are the same exactly if all marks are. -/
theorem summary_reads_back (calls : List Call) (numeric : ∀ call ∈ calls, call.Numeric)
    (legible : ∀ result ∈ sinceReset calls, result.Legible) :
    ∃ tracker, Action.ending (calls.forM Call.run) {} = (.ok (), tracker) ∧
      (∀ pair, pair ∈ tracker.keys ↔ ∃ result ∈ sinceReset calls, result.pair = pair) ∧
      (∃ lines, ReadsBack tracker lines) ∧
      ∀ others : List Call, (∀ call ∈ others, call.Numeric) →
        (∀ result ∈ sinceReset others, result.Legible) →
        ∃ other, Action.ending (others.forM Call.run) {} = (.ok (), other) ∧
          (tracker.summary = other.summary ↔ SameMarks tracker other) := by
  obtain ⟨tracker, ran, keeps⟩ := calls_keep_values numeric
  have reads := reads_back keeps legible
  refine ⟨tracker, ran, recorded_of_keeps keeps, ⟨_, reads⟩,
    fun others othersNumeric othersLegible => ?_⟩
  obtain ⟨other, otherRan, otherKeeps⟩ := calls_keep_values othersNumeric
  have otherReads := reads_back otherKeeps othersLegible
  exact ⟨other, otherRan, reads.same_marks otherReads,
    fun same => same.summary_eq keeps otherKeeps⟩

def perpetual : SpreadResult where
  pair := { long := "okx", short := "kraken", instrument := "BTC/USD: perp" }
  longQuote := none
  shortQuote := none
  entry := some (.finite true 10 (-4))
  exit := some (.finite false 0 (-2))

def perpetualCalls : List Call := [.record perpetual, .record (resultOf "okx" .zero .zero)]

/-- An instrument with a slash, a colon and a space in it is read back all the same. -/
theorem perpetual_reads_back :
    ∃ tracker, Action.ending (perpetualCalls.forM Call.run) {} = (.ok (), tracker) ∧
      perpetual.pair ∈ tracker.keys ∧ ∃ lines, ReadsBack tracker lines := by
  have numeric : ∀ call ∈ perpetualCalls, call.Numeric := by
    intro call member
    simp only [perpetualCalls, List.mem_cons, List.not_mem_nil, or_false] at member
    rcases member with rfl | rfl <;> exact ⟨⟨_, rfl, rfl⟩, _, rfl, rfl⟩
  have legible : ∀ result ∈ sinceReset perpetualCalls, result.Legible := by
    intro result member
    have fits : ∀ result ∈ sinceReset perpetualCalls,
        (∀ spread ∈ result.entry, spread.inRange = true) ∧
        ∀ spread ∈ result.exit, spread.inRange = true := by
      decide +kernel
    refine ⟨?_, ?_⟩
    · simp only [perpetualCalls, sinceReset, Call.extend, List.foldl, List.nil_append,
        List.cons_append, List.mem_cons, List.not_mem_nil, or_false] at member
      rcases member with rfl | rfl <;> exact ⟨by decide, by decide, by decide⟩
    · rintro spread (entry | exit)
      · exact (fits result member).1 spread entry
      · exact (fits result member).2 spread exit
  have recorded : ∃ result ∈ sinceReset perpetualCalls, result.pair = perpetual.pair :=
    ⟨perpetual, List.mem_cons_self .., rfl⟩
  obtain ⟨tracker, ran, tracked, reads, -⟩ := summary_reads_back perpetualCalls numeric legible
  exact ⟨tracker, ran, (tracked perpetual.pair).mpr recorded, reads⟩

end Tracker

end SpreadWatch
