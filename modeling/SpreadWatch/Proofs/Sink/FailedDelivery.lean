import SpreadWatch.Proofs.Files
import SpreadWatch.Proofs.Json.Cut
import SpreadWatch.Proofs.Sink.Publish

/-!
What a delivery leaves in its file when an event cannot be encoded. The file is opened before the
first event is looked at, so it holds all that was encoded up to there: whole lines behind those
that are kept, or the beginning of an array in place of the one that was there, of which nothing
can be read any more. The file is as it was only where nothing was opened, or where just this text
stood in it before.
-/

namespace SpreadWatch.Sink

open SpreadWatch.Action

/-! ### Texts that break off -/

/-- The text of events of which one cannot be encoded: the events before it are there as a whole,
and of itself what an array holds of it up to the failure. Where this is no line at all, the comma
before it is missing too, and with it the bracket if no event stands before. -/
inductive BreaksOff (failure : Failure) : FileForm → List Value → String → Prop
  | lines {before after : List Value} {event : Value} {lines : List String}
      (whole : List.Forall₂ (fun event line => Json.compact event = .ok line) before lines)
      (stuck : Json.compact event = .error failure) :
      BreaksOff failure .lines (before ++ event :: after) (String.join (lines.map (· ++ "\n")))
  | array {before after : List Value} {event : Value} {texts : List String} {begun : String}
      (whole : List.Forall₂ (fun event text => Json.indented 1 event = { text }) before texts)
      (stuck : Json.indented 1 event = { text := begun, failure := some failure }) :
      BreaksOff failure .array (before ++ event :: after)
        (Json.lined 1 "[" (texts ++ Json.remains event begun))

theorem event_lines_stopped {before after : List Value} {event : Value} {lines : List String}
    {failure : Failure}
    (whole : List.Forall₂ (fun event line => Json.compact event = .ok line) before lines)
    (stuck : Json.compact event = .error failure) :
    eventLines (before ++ event :: after) =
      { text := String.join (lines.map (· ++ "\n")), failure := some failure } := by
  induction whole with
  | nil =>
      rw [List.nil_append, eventLines, stuck]
      rfl
  | @cons other line before lines here others induction =>
      rw [List.cons_append, eventLines, here, induction]
      simp [Except.map, Json.Written.of, Json.Written.andThen]

theorem event_lines_failed {events : List Value} {text : String} {failure : Failure}
    (failed : eventLines events = { text, failure := some failure }) :
    BreaksOff failure .lines events text := by
  induction events generalizing text with
  | nil => cases failed
  | cons event rest induction =>
      rw [eventLines] at failed
      cases encoded : Json.compact event with
      | error early =>
          rw [encoded] at failed
          cases failed
          have broken : BreaksOff failure .lines ([] ++ event :: rest)
              (String.join (List.map (· ++ "\n") [])) := .lines .nil encoded
          exact broken
      | ok line =>
          rw [encoded] at failed
          rcases Json.and_then_failed failed with here | ⟨more, -, later, rfl⟩
          · cases here
          · obtain ⟨whole, stuck⟩ := induction later
            rename_i before after stop lines
            have broken : BreaksOff failure .lines (event :: before ++ stop :: after)
                (String.join ((line :: lines).map (· ++ "\n"))) :=
              .lines (.cons encoded whole) stuck
            simpa [Except.map, Json.Written.of] using broken

/-- The present text of a file that stays in it when events are written. -/
def keptText (form : FileForm) (appends : Bool) (known : String) : String :=
  if appends && form = .lines then known else ""

/-- The events of a file that are written anew in front of others. -/
def earlierEvents (files : Files) (path : FilePath) (form : FileForm) (appends : Bool) :
    Except Failure (List Value) :=
  if appends && form = .array then heldEvents files path else .ok []

/-- A writing fails just where the text of its events breaks off. -/
theorem file_text_failed_iff {form : FileForm} {appends : Bool} {held events : List Value}
    {known text : String} {failure : Failure} (alone : form = .lines → held = []) :
    fileText form held (if appends then known else "") events =
        { text, failure := some failure } ↔
      ∃ begun, BreaksOff failure form (held ++ events) begun ∧
        text = keptText form appends known ++ begun := by
  constructor
  · intro failed
    cases form with
    | array =>
        obtain ⟨before, event, after, texts, begun, listed, whole, stuck, rfl⟩ :=
          Json.indented_list_failed failed
        rw [listed]
        exact ⟨_, .array whole stuck, by simp [keptText]⟩
    | lines =>
        rw [fileText] at failed
        rcases Json.and_then_failed failed with here | ⟨begun, -, broken, rfl⟩
        · cases here
        · rw [alone rfl]
          exact ⟨begun, event_lines_failed broken, by simp [keptText, Json.Written.of]⟩
  · rintro ⟨begun, breaks, rfl⟩
    cases form with
    | array =>
        generalize listed : held ++ events = all at breaks
        cases breaks with
        | array whole stuck =>
            rw [fileText, listed, Json.indented_list_stopped whole stuck]
            simp [keptText]
    | lines =>
        rw [alone rfl, List.nil_append] at breaks
        cases breaks with
        | lines whole stuck =>
            rw [fileText, event_lines_stopped whole stuck]
            simp [keptText, Json.Written.of, Json.and_then_text]

theorem BreaksOff.unique {failure : Failure} {form : FileForm} {events : List Value}
    {first second : String} (one : BreaksOff failure form events first)
    (other : BreaksOff failure form events second) : first = second := by
  have written {text : String} (breaks : BreaksOff failure form events text) :
      fileText form [] (if false then "" else "") events = { text, failure := some failure } := by
    apply (file_text_failed_iff fun _ => rfl).mpr
    exact ⟨text, breaks, by simp [keptText]⟩
  exact (Json.Written.mk.inj ((written one).symm.trans (written other))).1

/-- The beginning of an array is no JSON. -/
theorem BreaksOff.unread {failure : Failure} {events : List Value} {text : String}
    (breaks : BreaksOff failure .array events text) (value : Value) :
    Json.read text ≠ .ok value := by
  cases breaks with
  | @array before after event texts begun whole stuck =>
      have cut : Json.indented 0 (.list (before ++ event :: after)) = _ :=
        Json.indented_list_stopped whole stuck
      exact Json.cut_list_unread cut value

/-! ### The file afterwards -/

inductive Leaves (files : Files) (path : FilePath) (form : FileForm) (appends : Bool)
    (events : List Value) (failure : Failure) : Files → Prop
  | unnamed (unnamed : Files.checkName path = .error failure) :
      Leaves files path form appends events failure files
  | untaken (untaken : earlierEvents files path form appends = .error failure) :
      Leaves files path form appends events failure files
  | cut {place : List String} {known begun : String} {held : List Value}
      (opens : files.Opens path place known)
      (taken : earlierEvents files path form appends = .ok held)
      (breaks : BreaksOff failure form (held ++ events) begun) :
      Leaves files path form appends events failure
        (files.put place (.file (keptText form appends known ++ begun)))

/-- The failures that leave everything as it was: nothing has been opened, or what is left of the
events stood in the file before. -/
inductive Spares (files : Files) (path : FilePath) (form : FileForm) (appends : Bool)
    (events : List Value) (failure : Failure) : Prop
  | unnamed (unnamed : Files.checkName path = .error failure)
  | untaken (untaken : earlierEvents files path form appends = .error failure)
  | standing {place : List String} {known begun : String} {held : List Value}
      (found : files.placeOf path = .ok place) (here : files.entry? place = some (.file known))
      (taken : earlierEvents files path form appends = .ok held)
      (breaks : BreaksOff failure form (held ++ events) begun)
      (same : keptText form appends known ++ begun = known)

variable {files next : Files} {path : FilePath} {form : FileForm} {appends : Bool}
  {events : List Value} {failure : Failure}

theorem Leaves.same_iff (leaves : Leaves files path form appends events failure next) :
    (∀ place, next.entry? place = files.entry? place) ↔
      Spares files path form appends events failure := by
  cases leaves with
  | unnamed unnamed => exact ⟨fun _ => .unnamed unnamed, fun _ _ => rfl⟩
  | untaken untaken => exact ⟨fun _ => .untaken untaken, fun _ _ => rfl⟩
  | @cut place known begun held opens taken breaks =>
      have written : Files.entry?
          (files.put place (.file (keptText form appends known ++ begun))) place =
            some (.file (keptText form appends known ++ begun)) :=
        Files.entry_put_self opens.inside
      constructor
      · intro same
        cases opens with
        | file named found here =>
            refine .standing found here taken breaks ?_
            simpa [written, here] using same place
        | nothing named found here above =>
            have there := same place
            rw [written, here] at there
            cases there
      · intro spares other
        cases spares with
        | unnamed unnamed => exact absurd unnamed opens.not_failed
        | untaken untaken =>
            rw [untaken] at taken
            cases taken
        | @standing there text left earlier found here takenToo breaksToo same =>
            obtain rfl : held = earlier := Except.ok.inj (taken.symm.trans takenToo)
            obtain rfl : begun = left := breaks.unique breaksToo
            obtain rfl : place = there := Except.ok.inj (opens.found.symm.trans found)
            obtain rfl : known = text := opens.text_of_file here
            by_cases apart : other = place
            · rw [apart, written, same, here]
            · exact Files.entry_put_other apart

/-- A delivery that opens a file and takes its events in leaves a text there that breaks off. -/
theorem Leaves.broken {place : List String} {known : String} {held : List Value}
    (leaves : Leaves files path form appends events failure next)
    (opens : files.Opens path place known)
    (taken : earlierEvents files path form appends = .ok held) :
    ∃ begun, BreaksOff failure form (held ++ events) begun ∧
      next = files.put place (.file (keptText form appends known ++ begun)) := by
  cases leaves with
  | unnamed unnamed => exact absurd unnamed opens.not_failed
  | untaken untaken =>
      rw [untaken] at taken
      cases taken
  | @cut there text begun earlier opensToo takenToo breaks =>
      obtain rfl : place = there := Except.ok.inj (opens.found.symm.trans opensToo.found)
      obtain rfl : known = text := opens.unique opensToo
      obtain rfl : held = earlier := Except.ok.inj (taken.symm.trans takenToo)
      exact ⟨begun, breaks, rfl⟩

/-- Of an array that has been opened nothing can be read afterwards. -/
theorem Leaves.unread {place : List String} {known : String} {held : List Value}
    (leaves : Leaves files path .array appends events failure next)
    (opens : files.Opens path place known)
    (taken : earlierEvents files path .array appends = .ok held) :
    ∃ text, next.entry? place = some (.file text) ∧ ∀ value, Json.read text ≠ .ok value := by
  obtain ⟨begun, breaks, rfl⟩ := leaves.broken opens taken
  refine ⟨_, Files.entry_put_self opens.inside, ?_⟩
  intro value
  simpa [keptText] using breaks.unread value

theorem check_name_of_open_failed (textual : isTextFailure failure = true)
    (failed : files.openPlace path = .error failure) : Files.checkName path = .error failure := by
  rcases bind_eq_error failed with unnamed | ⟨_, -, afterName⟩
  · exact unnamed
  · rcases bind_eq_error afterName with misplaced | ⟨place, -, afterPlace⟩
    · cases followed : files.placeOf path with
      | error problem =>
          rw [followed] at misplaced
          cases misplaced
          cases textual
      | ok place =>
          rw [followed] at misplaced
          cases misplaced
    · split at afterPlace <;> cases afterPlace <;> cases textual

theorem write_events_leaves (textual : isTextFailure failure = true)
    (failed : (writeEvents files path form appends events).2 = some failure) :
    Leaves files path form appends events failure
      (writeEvents files path form appends events).1 := by
  unfold writeEvents at failed ⊢
  cases opened : files.openPlace path with
  | error early =>
      rw [opened] at failed
      cases failed
      exact .unnamed (check_name_of_open_failed textual opened)
  | ok there =>
      obtain ⟨place, known⟩ := there
      rw [opened] at failed
      dsimp only at failed ⊢
      cases taken : earlierEvents files path form appends with
      | error early =>
          rw [earlierEvents] at taken
          rw [taken] at failed ⊢
          cases failed
          exact .untaken taken
      | ok held =>
          have alone : form = .lines → held = [] := by
            rintro rfl
            simpa [earlierEvents] using taken.symm
          have opens := Files.open_place_iff.mp opened
          rw [earlierEvents] at taken
          rw [taken] at failed ⊢
          dsimp only at failed ⊢
          obtain ⟨begun, breaks, text⟩ := (file_text_failed_iff alone).mp
            (show fileText form held (if appends then known else "") events = ⟨_, some failure⟩ by
              rw [← failed])
          rw [text]
          exact .cut opens taken breaks

theorem file_receipt_differs (found failure : Failure) :
    Receipt.failed "File system error" found ≠ Receipt.failed "JSON encoding error" failure := by
  intro same
  have message := congrArg (·.message.toList.head?) same
  simp [Receipt.failed] at message

/-- A delivery to a file whose receipts tell of a failure of encoding has failed in writing, and the
files are as the writing has left them. -/
theorem delivered_of_encoding_failure {channel next : Channel}
    (medium : channel.1.medium = .file path form appends) (present : events ≠ [])
    (failed : (deliver events).ending channel =
      (.ok (events.map fun _ => .failed "JSON encoding error" failure), next)) :
    isTextFailure failure = true ∧
      (writeEvents channel.2.files path form appends events).2 = some failure ∧
      next.2.files = (writeEvents channel.2.files path form appends events).1 := by
  obtain ⟨sink, outlets⟩ := channel
  obtain ⟨event, rest, rfl⟩ := List.exists_cons_of_ne_nil present
  rw [deliver, ending_bind_ok (ending_get _)] at failed
  dsimp only at medium failed
  rw [medium] at failed
  dsimp only at failed
  rw [deliverToFile, ending_bind_ok (ending_get _)] at failed
  set written := writeEvents outlets.files path form appends (event :: rest) with wrote
  have started : ending (set (sink, { outlets with files := written.1 }) : Action Channel PUnit)
      (sink, outlets) = (.ok ⟨⟩, (sink, { outlets with files := written.1 })) := ending_set _ _
  simp only [← wrote, ending_bind_ok started] at failed
  cases stopped : written.2 with
  | none => simp [stopped, Receipt.failed, Receipt.succeeded] at failed
  | some found =>
      rw [stopped] at failed
      dsimp only at failed
      split_ifs at failed with ofFile other
      · have answered : (Except.ok ((event :: rest).map fun _ =>
            Receipt.failed "File system error" found) : Except Failure (List Receipt)) = _ :=
          congrArg Prod.fst failed
        rw [List.map_cons, List.map_cons, Except.ok.injEq, List.cons.injEq] at answered
        exact absurd answered.1 (file_receipt_differs found failure)
      · cases failed
      · have answered : (Except.ok ((event :: rest).map fun _ =>
            Receipt.failed "JSON encoding error" found) : Except Failure (List Receipt)) = _ :=
          congrArg Prod.fst failed
        have files : written.1 = next.2.files := congrArg (·.2.2.files) failed
        obtain rfl : found = failure := by
          rw [List.map_cons, List.map_cons, Except.ok.injEq, List.cons.injEq] at answered
          exact Option.some.inj (congrArg Receipt.failure answered.1)
        exact ⟨by simpa using other, rfl, files.symm⟩

/-- A delivery that fails in encoding an event reports all events as failed. What is left of them
stands in the file all the same, behind what is kept of its text, and nothing else is changed. The
events that were in an array before are lost. -/
theorem encoding_failure_leaves {channel next : Channel}
    (medium : channel.1.medium = .file path form appends) (present : events ≠ [])
    (failed : (deliver events).ending channel =
      (.ok (events.map fun _ => .failed "JSON encoding error" failure), next)) :
    Leaves channel.2.files path form appends events failure next.2.files ∧
      ((∀ place, next.2.files.entry? place = channel.2.files.entry? place) ↔
        Spares channel.2.files path form appends events failure) ∧
      (form = .array → ∀ place known held, channel.2.files.Opens path place known →
        earlierEvents channel.2.files path form appends = .ok held →
        ∃ text, next.2.files.entry? place = some (.file text) ∧
          ∀ value, Json.read text ≠ .ok value) := by
  obtain ⟨textual, stopped, files⟩ := delivered_of_encoding_failure medium present failed
  have leaves := write_events_leaves textual stopped
  rw [← files] at leaves
  refine ⟨leaves, leaves.same_iff, ?_⟩
  rintro rfl place known held opens taken
  exact leaves.unread opens taken

def archive : Channel :=
  ({ name := .text "archive", medium := .file ⟨"", ["spreads.json"]⟩ .array true },
    { clock := ⟨0, none, false⟩, files := { entries := [(["spreads.json"], .file "[\x7b\x7d]")] } })

def decimalEvent : Value := .dict [(.text "entry_spread", .decimal (.finite false 1 0))]

/-- The array that the archive held is gone, and the event that is reported as failed stands there
by its beginning. Nothing can be read from it. -/
theorem archive_cut_short : ∃ failure next,
    (deliver [decimalEvent]).ending archive =
      (.ok [.failed "JSON encoding error" failure], next) ∧
    heldEvents archive.2.files ⟨"", ["spreads.json"]⟩ = .ok [.dict []] ∧
    next.2.files.entry? ["spreads.json"] =
      some (.file "[\n  \x7b\x7d,\n  \x7b\n    \"entry_spread\": ") ∧
    (∀ value, Json.read "[\n  \x7b\x7d,\n  \x7b\n    \"entry_spread\": " ≠ .ok value) ∧
    ¬ Spares archive.2.files ⟨"", ["spreads.json"]⟩ .array true [decimalEvent] failure := by
  let next := ((deliver [decimalEvent]).ending archive).2
  have failed : (deliver [decimalEvent]).ending archive =
      (.ok ([decimalEvent].map fun _ =>
        .failed "JSON encoding error" (Json.notEncodable (.decimal (.finite false 1 0)))), next) :=
    rfl
  have cut : next.2.files.entry? ["spreads.json"] =
      some (.file "[\n  \x7b\x7d,\n  \x7b\n    \"entry_spread\": ") := rfl
  have opens : archive.2.files.Opens ⟨"", ["spreads.json"]⟩ ["spreads.json"] "[\x7b\x7d]" :=
    .file rfl rfl rfl
  obtain ⟨-, same, unread⟩ := encoding_failure_leaves rfl (by simp) failed
  obtain ⟨text, there, none⟩ := unread rfl _ _ _ opens rfl
  rw [cut] at there
  cases there
  refine ⟨_, next, failed, rfl, cut, none, ?_⟩
  intro spares
  have kept := same.mpr spares ["spreads.json"]
  rw [cut] at kept
  exact absurd kept (by decide)

end SpreadWatch.Sink
