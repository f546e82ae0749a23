import SpreadWatch.Proofs.Config.Accepted
import SpreadWatch.Proofs.Desk.Frame
import SpreadWatch.Proofs.Desk.Ledger
import SpreadWatch.Proofs.Sink.Filters

/-!
Evaluations and sinks. An evaluation ends as it would without any sinks, and offers its result to
all of them, as long as their filters can be asked. The first sink whose filter cannot be asked ends
the evaluation with a failure, and the sinks behind it do not get to see the result.
-/

namespace SpreadWatch.Desk

open SpreadWatch.Action
open SpreadWatch.Config (isFilter)

variable {desk : Desk} {pair : Pair} {result : SpreadResult}

def withoutSinks (desk : Desk) : Desk := { desk with sinks := [] }

/-- The sinks make no difference to how an evaluation ends, and all are offered its result. -/
structure Isolated (pair : Pair) (desk : Desk) : Prop where
  outcome : desk.outcome pair = desk.withoutSinks.outcome pair
  offered : ∀ result, desk.finding pair = .ok (some result) →
    List.Forall₂ (Sink.Offered result) desk.sinks ((evaluate pair).ending desk).2.sinks

/-- An evaluation that ended at the first sink whose filter cannot be asked: those before it were
offered the result, itself and those behind it are as they were. -/
structure StoppedAt (refusing : Sink) (result : SpreadResult) (pair : Pair) (desk : Desk) :
    Prop where
  found : desk.finding pair = .ok (some result)
  unfit : isFilter refusing.instruments = false
  failed : ∃ text, desk.outcome pair = .error (.wrongType text)
  sinks : ∃ earlier offered later, desk.sinks = earlier ++ refusing :: later ∧
    (∀ sink ∈ earlier, isFilter sink.instruments = true) ∧
    ((evaluate pair).ending desk).2.sinks = offered ++ refusing :: later ∧
    List.Forall₂ (Sink.Offered result) earlier offered

theorem filters_answer_iff (desk : Desk) (instrument : String) :
    desk.FiltersAnswer instrument ↔ ∀ sink ∈ desk.sinks, isFilter sink.instruments = true :=
  forall₂_congr fun sink _ => Sink.accepts_answers_iff sink instrument

theorem outcome_without_sinks (numbered : desk.tracker.Numbered) (pair : Pair) :
    desk.withoutSinks.outcome pair = outcomeOf pair (desk.finding pair) := by
  have same : desk.withoutSinks.tracker.Numbered := numbered
  apply outcome_of_finding same
  intro result found sink member
  cases member

theorem isolated_of_answers (numbered : desk.tracker.Numbered)
    (answers : ∀ result, desk.finding pair = .ok (some result) →
      desk.FiltersAnswer pair.instrument) : Isolated pair desk := by
  have alone := outcome_without_sinks numbered pair
  refine ⟨(outcome_of_finding numbered answers).trans alone.symm, ?_⟩
  intro result found
  obtain ⟨ended, next, ending, evaluated⟩ := evaluate_ends numbered pair
  rw [ending]
  cases evaluated with
  | result other answer settled =>
      cases found.symm.trans other
      exact settled.sinks
  | noSignal other => cases found.symm.trans other
  | failed other => cases found.symm.trans other
  | stray other => cases found.symm.trans other
  | refused other refuses => exact absurd (answers _ other) refuses

theorem stopped_of_refusal (numbered : desk.tracker.Numbered)
    (found : desk.finding pair = .ok (some result))
    (refuses : ¬ desk.FiltersAnswer pair.instrument) :
    ∃ refusing, StoppedAt refusing result pair desk := by
  obtain ⟨earlier, refusing, later, text, sinks, answers, refused⟩ := Sink.first_refusing refuses
  obtain ⟨middle, steady, -, refused_ends⟩ := evaluate_settles found
  have middleNumbered : middle.tracker.Numbered := by
    have tracker : middle.tracker = desk.tracker := congrArg (·.2.2.2.2.1) steady
    exact tracker ▸ numbered
  have middleSinks : middle.sinks = earlier ++ refusing :: later := by
    have same : middle.sinks = desk.sinks := congrArg (·.2.2.2.1) steady
    exact same.trans sinks
  obtain ⟨offered, next, settles, -, nextSinks, offers⟩ :=
    settle_stops middleNumbered (finding_complete found) middleSinks answers refused
  have ended := refused_ends _ next settles rfl
  have unfit : isFilter refusing.instruments = false := by
    rw [← Bool.not_eq_true, ← Sink.accepts_answers_iff refusing pair.instrument]
    rintro ⟨wanted, accepted⟩
    cases refused.symm.trans accepted
  have fit : ∀ sink ∈ earlier, isFilter sink.instruments = true := by
    intro sink member
    exact (Sink.accepts_answers_iff sink pair.instrument).mp (answers sink member)
  exact ⟨refusing, found, unfit, ⟨text, by rw [outcome, ended]⟩, earlier, offered, later, sinks,
    fit, by rw [ended]; exact nextSinks, offers⟩

theorem StoppedAt.not_isolated {refusing : Sink} (numbered : desk.tracker.Numbered)
    (stopped : StoppedAt refusing result pair desk) : ¬ Isolated pair desk := by
  intro isolated
  obtain ⟨text, failed⟩ := stopped.failed
  have alone := outcome_without_sinks numbered pair
  rw [stopped.found] at alone
  cases failed.symm.trans (isolated.outcome.trans alone)

theorem isolated_iff (numbered : desk.tracker.Numbered) (pair : Pair) :
    Isolated pair desk ↔ ∀ result, desk.finding pair = .ok (some result) →
      desk.FiltersAnswer pair.instrument := by
  refine ⟨?_, isolated_of_answers numbered⟩
  intro isolated result found
  by_contra refuses
  obtain ⟨refusing, stopped⟩ := stopped_of_refusal numbered found refuses
  exact stopped.not_isolated numbered isolated

theorem stopped_of_not_isolated (numbered : desk.tracker.Numbered)
    (spoiled : ¬ Isolated pair desk) :
    ∃ refusing result, StoppedAt refusing result pair desk := by
  rw [isolated_iff numbered] at spoiled
  obtain ⟨result, unfit⟩ := not_forall.mp spoiled
  obtain ⟨found, refuses⟩ := Classical.not_imp.mp unfit
  obtain ⟨refusing, stopped⟩ := stopped_of_refusal numbered found refuses
  exact ⟨refusing, result, stopped⟩

/-- Sinks have the filters of the destinations that they were made for. -/
theorem fit_of_destinations {destinations : List Config.Destination}
    (same : desk.sinks.map Sink.identity = destinations.map Config.Destination.identity) :
    (∀ sink ∈ desk.sinks, isFilter sink.instruments = true) ↔
      ∀ destination ∈ destinations, isFilter destination.instruments = true := by
  have filters : desk.sinks.map Sink.instruments =
      destinations.map Config.Destination.instruments := by
    have second := congrArg (List.map Prod.snd) same
    rwa [List.map_map, List.map_map] at second
  calc
    (∀ sink ∈ desk.sinks, isFilter sink.instruments = true) ↔
        ∀ filter ∈ desk.sinks.map Sink.instruments, isFilter filter = true := by
      rw [List.forall_mem_map]
    _ ↔ ∀ destination ∈ destinations, isFilter destination.instruments = true := by
      rw [filters, List.forall_mem_map]

/-- Publishing ends without a failure, and counts exactly what its receipt says or nothing, exactly
if the filter of the sink can be asked; else it leaves everything as it was. The sinks of a delivery
section have the filters of its active destinations, which nothing has looked at before. So whatever
has become of the sinks since they were made, an evaluation ends as without them, and offers all of
them what it finds, exactly if it finds nothing or all these filters can be asked; else it fails at
the first one that cannot, and the sinks behind that do not see the result. -/
theorem sinks_isolated_iff {delivery : Config.Delivery} {files after : Files} {built : List Sink}
    (created : Sink.createAll delivery files = .ok (built, after)) :
    (∀ (sink : Sink) (result : SpreadResult) (outlets : Outlets),
      (Sink.Published result sink outlets ((Sink.publish result).ending (sink, outlets)) ↔
        isFilter sink.instruments = true) ∧
      (¬ isFilter sink.instruments = true → ∃ text, (Sink.publish result).ending (sink, outlets) =
        (.error (.wrongType text), (sink, outlets)))) ∧
    (∀ (entry : Value) (destination : Config.Destination),
      Config.Destination.ofValue entry = .ok destination → ∃ fields, entry.entries? = some fields ∧
        destination.instruments = Entries.get fields "instruments_filter") ∧
    built.map Sink.identity = delivery.active.map Config.Destination.identity ∧
    ∀ (desk : Desk) (pair : Pair), desk.tracker.Numbered →
      desk.sinks.map Sink.identity = built.map Sink.identity →
      (Isolated pair desk ↔ ∀ result, desk.finding pair = .ok (some result) →
        ∀ destination ∈ delivery.active, isFilter destination.instruments = true) ∧
      (¬ Isolated pair desk → ∃ refusing result, StoppedAt refusing result pair desk) := by
  have identities := Sink.create_all_identities created
  refine ⟨fun sink result outlets => ⟨Sink.publish_published_iff result sink outlets,
    fun unfit => Sink.publish_refused unfit result outlets⟩,
    fun entry destination => Config.destination_filter, identities, ?_⟩
  intro desk pair numbered same
  refine ⟨?_, stopped_of_not_isolated numbered⟩
  rw [isolated_iff numbered, filters_answer_iff, fit_of_destinations (same.trans identities)]

/-- A file whose filter is a number, and behind it the console. -/
def narrowSection : Value := .ofFields [("destinations", .list [
  .ofFields [("method", .text "file_output"), ("name", .text "narrow"),
    ("config", .ofFields [("output_path", .text "/data/spreads.jsonl")]),
    ("instruments_filter", .int 5)],
  .ofFields [("method", .text "stdout"), ("name", .text "all"),
    ("config", .ofFields [("include_timestamp", .bool false)])]])]

def narrowDelivery : Config.Delivery where
  destinations := [
    { name := .text "narrow"
      options := .file (.text "/data/spreads.jsonl") (.text "jsonl") (.bool true) (.bool true)
      instruments := .int 5 },
    { name := .text "all", options := .stdout (.text "json") (.bool false) }]

def narrowSinks : List Sink := [
  { name := .text "narrow"
    instruments := .int 5
    medium := .file (.ofText "/data/spreads.jsonl") .lines true },
  { name := .text "all", medium := .console (.text "json") (.bool false) }]

theorem narrow_merged : Config.bareLoader.merged (.ofFields [("delivery", narrowSection)]) =
    .ok (Entries.insert Config.Settings.default.toEntries (.text "delivery") narrowSection) := by
  rw [Config.Loader.merged, Config.bare_loader_entries]
  simp [narrowSection, Value.ofFields, Value.isTruthy, Value.entries?, Value.opened, Config.merge,
    Config.Settings.toEntries, Config.Settings.default, Entries.find?, Entries.insert,
    Value.sameKey, bind, Except.bind, pure, Except.pure]

theorem narrow_accepted :
    Config.bareLoader.delivery (.ofFields [("delivery", narrowSection)]) = .ok narrowDelivery := by
  rw [Config.Loader.delivery, narrow_merged]
  rfl

theorem narrow_created : ∃ after, Sink.createAll narrowDelivery {} = .ok (narrowSinks, after) :=
  ⟨_, rfl⟩

def narrowDesk : Desk := { quotedDesk with sinks := narrowSinks }

theorem narrow_found : narrowDesk.finding quotedResult.pair = .ok (some quotedResult) :=
  ok_of_to_option (by decide +kernel)

theorem narrow_sinks_not_isolated : narrowDesk.tracker.Numbered ∧
    narrowDesk.sinks.map Sink.identity = narrowSinks.map Sink.identity ∧
    ¬ Isolated quotedResult.pair narrowDesk ∧
    ∃ refusing result, StoppedAt refusing result quotedResult.pair narrowDesk := by
  have numbered : narrowDesk.tracker.Numbered := Tracker.tracks_nothing.numbered
  obtain ⟨after, created⟩ := narrow_created
  obtain ⟨-, -, -, evaluations⟩ := sinks_isolated_iff created
  obtain ⟨isolated_iff, stops⟩ := evaluations narrowDesk quotedResult.pair numbered rfl
  have spoiled : ¬ Isolated quotedResult.pair narrowDesk := by
    intro isolated
    have fit := isolated_iff.mp isolated quotedResult narrow_found
    cases fit _ (List.mem_cons_self (l := narrowDelivery.active.tail))
  exact ⟨numbered, rfl, spoiled, stops spoiled⟩

/-- The section is accepted and its sinks are built. Publishing to the first raises, and so does the
evaluation; the console, which publishing reaches by itself, stays empty. -/
theorem narrow_publishing_fails :
    Config.bareLoader.delivery (.ofFields [("delivery", narrowSection)]) = .ok narrowDelivery ∧
    (∃ after, Sink.createAll narrowDelivery {} = .ok (narrowSinks, after)) ∧
    narrowSinks.map (fun sink =>
      ((Sink.publish quotedResult).ending (sink, narrowDesk.outlets)).1.toOption.map
        Option.isSome) = [none, some true] ∧
    narrowDesk.finding quotedResult.pair = .ok (some quotedResult) ∧
    (narrowDesk.outcome quotedResult.pair).toOption.isNone = true ∧
    ((evaluate quotedResult.pair).ending narrowDesk).2.outlets.console.printed = "" :=
  ⟨narrow_accepted, narrow_created, by decide +kernel, narrow_found, by decide +kernel,
    by decide +kernel⟩

end SpreadWatch.Desk
