import SpreadWatch.Proofs.Files
import SpreadWatch.Proofs.Market
import SpreadWatch.Proofs.Sink.Publish

/-!
What sinks that append to a file leave in it: the events of the accepted results, all of them, once
each and in the order of publishing. In both forms the file is read back to these events, and the
decimals in an event are read back to those of its result.
-/

namespace SpreadWatch.Sink

open SpreadWatch.Action

/-! ### Texts of files -/

def heldText (form : FileForm) (events : List Value) : String :=
  if events.isEmpty then "" else (fileText form [] "" events).text

/-- A text is read back to events: as one array, or line by line. Every line ends with a line feed,
so nothing stands behind the last one. -/
def Holds (text : String) : FileForm → List Value → Prop
  | .array, events => Json.read text = .ok (.list events)
  | .lines, events => ∃ lines, text.toList.splitOn '\n' = lines ++ [[]] ∧
      List.Forall₂ (fun line event => Json.read (String.ofList line) = .ok event) lines events

def lineOf (event : Value) : List Char := Json.laid Json.narrow 0 event

/-- Whole lines, each ended by a line feed, are what a text is split into. -/
theorem split_lines {lines : List (List Char)} (whole : ∀ line ∈ lines, '\n' ∉ line) :
    (lines.flatMap (· ++ ['\n'])).splitOn '\n' = lines ++ [[]] := by
  have joined : ['\n'].intercalate (lines ++ [[]]) = lines.flatMap (· ++ ['\n']) := by
    clear whole
    induction lines with
    | nil => rfl
    | cons line rest induction =>
        rw [List.cons_append, List.intercalate_cons_of_ne_nil (by simp), induction,
          List.flatMap_cons]
  rw [← joined]
  apply List.splitOn_intercalate _ _ (by simp)
  intro line member
  rcases List.mem_append.mp member with held | last
  · exact whole line held
  · rw [List.mem_singleton.mp last]
    simp

section Texts

variable {events : List Value} (plain : ∀ event ∈ events, Json.Plain 2 event)

include plain

theorem event_lines_plain : eventLines events =
    { text := String.ofList (events.flatMap fun event => lineOf event ++ ['\n']) } := by
  induction events with
  | nil => rfl
  | cons event rest induction =>
      have later := induction fun other member => plain other (by simp [member])
      rw [eventLines, Json.compact_laid (plain event (by simp)) 0, later]
      simp only [Except.map, Json.Written.of, Json.and_then_text]
      congr 1
      apply String.toList_inj.mp
      simp [lineOf]

theorem array_written :
    Json.indented 0 (.list events) =
      { text := String.ofList (Json.laid Json.wide 0 (.list events)) } :=
  Json.indented_laid (.list plain) 0

theorem held_text_lines : heldText .lines events =
    String.ofList (events.flatMap fun event => lineOf event ++ ['\n']) := by
  unfold heldText
  split_ifs with none
  · rw [List.isEmpty_iff.mp none]
    rfl
  · rw [fileText, event_lines_plain plain]
    exact String.empty_append

theorem held_array_no_return : ∀ c ∈ (heldText .array events).toList, c ≠ '\r' := by
  unfold heldText
  split_ifs with none
  · simp
  · rw [fileText, List.nil_append, array_written plain, String.toList_ofList]
    exact Json.wide_no_return (.list plain) 0

theorem held_text_holds (form : FileForm) (present : events ≠ []) :
    Holds (heldText form events) form events := by
  cases form with
  | array =>
      have text : heldText .array events = (Json.indented 0 (.list events)).text := by
        simp [heldText, fileText, present]
      rw [text]
      exact (Json.read_indented (.list plain) (by decide)).2
  | lines =>
      refine ⟨events.map lineOf, ?_, ?_⟩
      · have lines : (events.flatMap fun event => lineOf event ++ ['\n']) =
            (events.map lineOf).flatMap (· ++ ['\n']) := by rw [List.flatMap_map]
        rw [held_text_lines plain, String.toList_ofList, lines]
        apply split_lines
        intro line member feed
        obtain ⟨event, held, rfl⟩ := List.mem_map.mp member
        exact absurd (Json.narrow_printable (plain event held) 0 _ feed) (by decide)
      · rw [List.forall₂_map_left_iff, List.forall₂_same]
        intro event held
        exact Json.read_laid (plain event held) (by decide) Json.narrow

omit plain in
theorem holds_empty {form : FileForm} (holds : Holds "" form events) : events = [] := by
  cases form with
  | array =>
      have unread : Json.read "" = .error .malformed := rfl
      rw [Holds, unread] at holds
      cases holds
  | lines =>
      obtain ⟨lines, split, each⟩ := holds
      have single : ("" : String).toList.splitOn '\n' = [[]] := rfl
      have none : lines = [] := by
        rw [single] at split
        simpa using split.symm
      rw [none] at each
      cases each
      rfl

/-- Appending an event to a file writes its text behind the one of the events before. -/
theorem file_text_appends (form : FileForm) {event : Value} (event_plain : Json.Plain 2 event) :
    fileText form (if form = .array then events else []) (heldText form events) [event] =
      { text := heldText form (events ++ [event]) } := by
  have longer : ∀ other ∈ events ++ [event], Json.Plain 2 other := by
    intro other member
    rcases List.mem_append.mp member with held | last
    · exact plain other held
    · rw [List.mem_singleton.mp last]
      exact event_plain
  cases form with
  | array => simp [fileText, heldText, array_written longer]
  | lines =>
      have single : eventLines [event] = { text := String.ofList (lineOf event ++ ['\n']) } := by
        rw [event_lines_plain (by simpa using event_plain)]
        simp
      rw [held_text_lines plain, held_text_lines longer, fileText, single]
      simp only [Json.Written.of, Json.and_then_text]
      congr 1
      apply String.toList_inj.mp
      simp

end Texts

/-! ### Appending one event -/

variable {files : Files} {path : FilePath} {place : List String}

theorem held_events_of_opens {text : String} (opens : files.Opens path place text)
    (plain : ∀ c ∈ text.toList, c ≠ '\r') {events : List Value}
    (held : text = "" ∧ events = [] ∨ Json.read text = .ok (.list events)) :
    heldEvents files path = .ok events := by
  have empty : Json.read "" = .error .malformed := rfl
  cases opens with
  | file named found here =>
      rw [heldEvents, Files.read_text_of_file named found here plain]
      rcases held with ⟨rfl, rfl⟩ | read
      · simp only [empty]
      · simp only [read]
  | nothing named found here above =>
      obtain ⟨failure, unread⟩ : ∃ failure, files.readText path = .error failure := by
        simp only [Files.readText, named, Files.stat, found, bind, Except.bind, here]
        exact ⟨_, rfl⟩
      rw [heldEvents, unread]
      rcases held with ⟨-, rfl⟩ | read
      · rfl
      · rw [empty] at read
        cases read

theorem write_events_appends (form : FileForm) {events : List Value} {event : Value}
    (plain : ∀ event ∈ events, Json.Plain 2 event) (event_plain : Json.Plain 2 event)
    (opens : files.Opens path place (heldText form events)) :
    writeEvents files path form true [event] =
      (files.put place (.file (heldText form (events ++ [event]))), none) := by
  have written := file_text_appends plain form event_plain
  have held : (if (true && decide (form = .array)) = true then heldEvents files path else .ok []) =
      .ok (if form = .array then events else []) := by
    cases form with
    | lines => rfl
    | array =>
        apply held_events_of_opens opens (held_array_no_return plain)
        by_cases none : events = []
        · exact .inl ⟨by rw [none]; rfl, none⟩
        · exact .inr (held_text_holds plain .array none)
  simp only [writeEvents, Files.open_place_iff.mpr opens, held, if_true, written]

/-! ### Publishing -/

section Publish

variable {sink : Sink} {outlets : Outlets} {result : SpreadResult} {event : Value}
  {form : FileForm} {next : Files}

theorem deliver_result_to_file (medium : sink.medium = .file path form true)
    (told : result.toEvent = .ok event)
    (wrote : writeEvents outlets.files path form true [event] = (next, none)) :
    (deliverResult result).ending (sink, outlets) =
      (.ok (.succeeded ("Written to " ++ path.toText)),
        (sink, { outlets with files := next })) := by
  have delivered : (deliver [event]).ending (sink, outlets) =
      (.ok [.succeeded ("Written to " ++ path.toText)],
        (sink, { outlets with files := next })) := by
    rw [deliver, ending_bind_ok (ending_get _)]
    dsimp only
    rw [medium]
    dsimp only
    rw [deliverToFile, ending_bind_ok (ending_get _)]
    simp only [wrote]
    rfl
  rw [deliverResult, ending_try_catch, told, ending_bind_ok (ending_lift _ _),
    ending_bind_ok delivered]
  rfl

theorem publish_to_file (medium : sink.medium = .file path form true)
    (accepted : sink.accepts result.pair.instrument = .ok true)
    (told : result.toEvent = .ok event)
    (wrote : writeEvents outlets.files path form true [event] = (next, none)) :
    (publish result).ending (sink, outlets) =
      (.ok (some (.succeeded ("Written to " ++ path.toText))),
        ({ sink with delivered := sink.delivered + 1 }, { outlets with files := next })) := by
  rw [publish, ending_bind_ok (ending_get _)]
  dsimp only
  rw [accepted, ending_bind_ok (ending_lift _ _)]
  simp only [Bool.not_true, Bool.false_eq_true, if_false]
  rw [ending_bind_ok (deliver_result_to_file medium told wrote),
    ending_bind_ok (ending_modify _ _)]
  rfl

end Publish

def publishing : List SpreadResult → Channel → List (Except Failure (Option Receipt)) × Channel
  | [], channel => ([], channel)
  | result :: rest, channel =>
      let (answer, next) := (publish result).run channel
      let (answers, last) := publishing rest next
      (answer :: answers, last)

/-- A sink that appends to a file, over files in which that file is there with certain events. -/
structure Appends (path : FilePath) (place : List String) (form : FileForm) (events : List Value)
    (channel : Channel) : Prop where
  medium : channel.1.medium = .file path form true
  askable : channel.1.Askable
  plain : ∀ event ∈ events, Json.Plain 2 event
  opens : channel.2.files.Opens path place (heldText form events)

def answerOf (path : FilePath) (sink : Sink) (result : SpreadResult) :
    Except Failure (Option Receipt) :=
  .ok (if sink.wants result.pair.instrument then some (.succeeded ("Written to " ++ path.toText))
    else none)

/-- One publishing appends the event of a result that the sink wants, and nothing for others. -/
theorem publish_appends {form : FileForm} {events : List Value} {channel : Channel}
    (appends : Appends path place form events channel) {result : SpreadResult} {event : Value}
    (told : result.toEvent = .ok event) (plain : Json.Plain 2 event) :
    ∃ next, (publish result).ending channel = (answerOf path channel.1 result, next) ∧
      next.1.instruments = channel.1.instruments ∧
      if channel.1.wants result.pair.instrument then
        Appends path place form (events ++ [event]) next
      else next = channel := by
  obtain ⟨sink, outlets⟩ := channel
  have answer : sink.accepts result.pair.instrument = .ok (sink.wants result.pair.instrument) :=
    accepts_of_askable appends.askable _
  cases wanted : sink.wants result.pair.instrument with
  | false =>
      rw [wanted] at answer
      exact ⟨(sink, outlets), by simp [publish_passes_over answer, answerOf, wanted], rfl, rfl⟩
  | true =>
      rw [wanted] at answer
      have wrote := write_events_appends form appends.plain plain appends.opens
      have published := publish_to_file appends.medium answer told wrote
      refine ⟨({ sink with delivered := sink.delivered + 1 }, { outlets with
        files := outlets.files.put place (.file (heldText form (events ++ [event]))) }),
        by simp [published, answerOf, wanted], rfl, appends.medium, appends.askable, ?_,
        Files.opens_put appends.opens _⟩
      intro other member
      rcases List.mem_append.mp member with held | last
      · exact appends.plain other held
      · rw [List.mem_singleton.mp last]
        exact plain

def Tells (result : SpreadResult) (event : Value) : Prop :=
  result.toEvent = .ok event ∧ event.prices = .ok result.prices

theorem wants_of_instruments {sink other : Sink} (same : other.instruments = sink.instruments) :
    other.wants = sink.wants := by
  funext instrument
  rw [wants, wants, accepts, accepts, same]

theorem publishing_appends {form : FileForm} {events : List Value} {channel : Channel}
    (appends : Appends path place form events channel) {results : List SpreadResult}
    (whole : ∀ result ∈ results, result.Whole) :
    ∃ added, List.Forall₂ Tells
        (results.filter fun result => channel.1.wants result.pair.instrument) added ∧
      (publishing results channel).1 = results.map (answerOf path channel.1) ∧
      Appends path place form (events ++ added) (publishing results channel).2 ∧
      (added = [] → (publishing results channel).2.2.files = channel.2.files) := by
  induction results generalizing events channel with
  | nil => exact ⟨[], .nil, rfl, by simpa [publishing] using appends, fun _ => rfl⟩
  | cons result rest induction =>
      obtain ⟨event, told, plain, prices⟩ := event_of_whole (whole result (by simp))
      obtain ⟨next, published, instruments, step⟩ := publish_appends appends told plain
      have sameWants := wants_of_instruments instruments
      have sameAnswers : answerOf path next.1 = answerOf path channel.1 := by
        funext other
        rw [answerOf, answerOf, sameWants]
      have opened : (publish result).run channel = (answerOf path channel.1 result, next) :=
        published
      have restWhole : ∀ other ∈ rest, other.Whole :=
        fun other member => whole other (by simp [member])
      simp only [publishing, opened]
      split_ifs at step with wanted
      · obtain ⟨added, tell, answers, held, -⟩ := induction step restWhole
        rw [sameWants] at tell
        rw [List.append_assoc] at held
        refine ⟨event :: added, ?_, ?_, held, fun none => nomatch none⟩
        · rw [List.filter_cons_of_pos (by simpa using wanted)]
          exact .cons ⟨told, prices⟩ tell
        · rw [answers, sameAnswers, List.map_cons]
      · subst step
        obtain ⟨added, tell, answers, held, kept⟩ := induction appends restWhole
        refine ⟨added, ?_, by rw [answers, List.map_cons], held, kept⟩
        rw [List.filter_cons_of_neg (by simpa using wanted)]
        exact tell

/-- A sink that appends to a file which is not there yet, or empty, answers every result that it
wants with success. Afterwards the file holds the events of just these results, in the order of
publishing, and is read back to them; every event tells the decimals of its result. -/
theorem file_holds_events {form : FileForm} {channel : Channel}
    (medium : channel.1.medium = .file path form true) (askable : channel.1.Askable)
    (opens : channel.2.files.openPlace path = .ok (place, "")) {results : List SpreadResult}
    (whole : ∀ result ∈ results, result.Whole) :
    ∃ events, List.Forall₂ Tells
        (results.filter fun result => channel.1.wants result.pair.instrument) events ∧
      (publishing results channel).1 = results.map (answerOf path channel.1) ∧
      (events = [] → (publishing results channel).2.2.files = channel.2.files) ∧
      (events ≠ [] → ∃ text, (publishing results channel).2.2.files.stat path = .ok (.file text) ∧
        Holds text form events) := by
  have empty : heldText form [] = "" := rfl
  have appends : Appends path place form [] channel :=
    ⟨medium, askable, by simp, Files.open_place_iff.mp (by rw [opens, empty])⟩
  obtain ⟨events, tell, answers, held, kept⟩ := publishing_appends appends whole
  rw [List.nil_append] at held
  refine ⟨events, tell, answers, kept, fun present => ?_⟩
  have holds := held_text_holds held.plain form present
  refine ⟨heldText form events, Files.stat_of_opens held.opens ?_, holds⟩
  intro none
  rw [none] at holds
  exact present (holds_empty holds)

/-- A journal of one instrument, in a file that is not there yet. -/
def journal : Channel :=
  ({ name := .text "journal", instruments := .list [.text "BTC/USD"],
      medium := .file ⟨"", ["spreads.json"]⟩ .array true },
    { clock := ⟨0, none, false⟩ })

def journalResults : List SpreadResult :=
  ["BTC/USD", "ETH/USD", "BTC/USD"].map fun instrument =>
    { pair := ⟨"Börse \n", "okx", instrument⟩
      longQuote := some ⟨some (.finite false 19990 (-2)), none, none⟩
      shortQuote := some ⟨none, some (.nan false false 0), none⟩
      entry := some (.finite true 0 (-8))
      exit := some (.infinite true) }

theorem journal_holds_events :
    ∃ events text, (publishing journalResults journal).2.2.files.stat ⟨"", ["spreads.json"]⟩ =
        .ok (.file text) ∧
      Json.read text = .ok (.list events) ∧
      List.Forall₂ Tells [journalResults[0], journalResults[2]] events ∧
      (publishing journalResults journal).1.map (fun answer => answer.toOption.map Option.isSome) =
        [some true, some false, some true] := by
  have whole : ∀ result ∈ journalResults, result.Whole := by
    intro result member
    obtain ⟨instrument, -, rfl⟩ := List.mem_map.mp member
    refine ⟨⟨_, rfl⟩, ⟨_, rfl⟩, ⟨_, rfl⟩, ⟨_, rfl⟩, ?_⟩
    intro d told
    simp only [SpreadResult.prices, Option.bind_some, List.mem_cons, Option.some.injEq,
      reduceCtorEq, List.not_mem_nil, false_or, or_false] at told
    rcases told with rfl | rfl | rfl | rfl <;> decide +kernel
  have opens : journal.2.files.openPlace ⟨"", ["spreads.json"]⟩ = .ok (["spreads.json"], "") := by
    rfl
  obtain ⟨events, tell, answers, -, held⟩ :=
    file_holds_events rfl (.inr ⟨["BTC/USD"], rfl⟩) opens whole
  have wanted : (journalResults.filter fun result => journal.1.wants result.pair.instrument) =
      [journalResults[0], journalResults[2]] := by
    rfl
  rw [wanted] at tell
  have present : events ≠ [] := by
    rintro rfl
    cases tell
  obtain ⟨text, there, holds⟩ := held present
  exact ⟨events, text, there, holds, tell, by rw [answers]; rfl⟩

end SpreadWatch.Sink
