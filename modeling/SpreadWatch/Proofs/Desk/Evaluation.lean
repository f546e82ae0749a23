import SpreadWatch.Proofs.Desk.Finding
import SpreadWatch.Proofs.Sink.Publish
import SpreadWatch.Proofs.Spread.Outcome
import SpreadWatch.Proofs.WaterMark

/-!
How an evaluation ends, and what it leaves behind: one rule for each way. A result that is found is
settled, which brings up to date the water marks, the count of results and every sink; without one,
none of these changes. A settled result cannot fail, unless some sink's filter cannot be asked.
-/

namespace SpreadWatch.Desk

open SpreadWatch.Action

variable {desk next : Desk} {pair : Pair}

/-! ### Results as they are found -/

structure Complete (pair : Pair) (result : SpreadResult) : Prop where
  pair : result.pair = pair
  longQuote : ∃ long, result.longQuote = some long
  shortQuote : ∃ short, result.shortQuote = some short
  numeric : result.Numeric

/-- The entry spread is at the long ask and the short bid, the exit spread at the other two. -/
theorem legs_of_spreads {long short : Quote} {longFee shortFee entry exit : Decimal}
    (computed : spreadsOf long short longFee shortFee = .ok (entry, exit)) :
    Spread.spread .entry long.ask (some longFee) short.bid (some shortFee) = .ok entry ∧
      Spread.spread .exit long.bid (some longFee) short.ask (some shortFee) = .ok exit := by
  obtain ⟨first, opened, afterEntry⟩ := bind_eq_ok computed
  obtain ⟨second, closed, both⟩ := bind_eq_ok afterEntry
  cases both
  exact ⟨opened, closed⟩

/-- A result holds both quotes and the spreads between them, with whatever fees the source gave. -/
theorem result_from_spreads {fees : FeeSource} {long short : Quote} {result : SpreadResult}
    (found : resultFrom fees pair long short = .ok result) :
    ∃ longFee shortFee entry exit, spreadsOf long short longFee shortFee = .ok (entry, exit) ∧
      result = { pair, longQuote := some long, shortQuote := some short, entry := some entry
                 exit := some exit } := by
  obtain ⟨longFee, -, afterLong⟩ := bind_eq_ok found
  obtain ⟨shortFee, -, afterShort⟩ := bind_eq_ok afterLong
  obtain ⟨⟨entry, exit⟩, computed, built⟩ := bind_eq_ok afterShort
  cases built
  exact ⟨longFee, shortFee, entry, exit, computed, rfl⟩

theorem result_from_complete {fees : FeeSource} {long short : Quote} {result : SpreadResult}
    (found : resultFrom fees pair long short = .ok result) : Complete pair result := by
  obtain ⟨_, _, entry, exit, computed, rfl⟩ := result_from_spreads found
  obtain ⟨opened, closed⟩ := legs_of_spreads computed
  exact ⟨rfl, ⟨long, rfl⟩, ⟨short, rfl⟩,
    ⟨entry, rfl, Decimal.number_of_finite (Spread.spread_finite opened)⟩,
    exit, rfl, Decimal.number_of_finite (Spread.spread_finite closed)⟩

/-- A result comes from two quotes that can be used. -/
theorem result_from_of_finding {result : SpreadResult}
    (found : desk.finding pair = .ok (some result)) :
    ∃ long short, resultFrom desk.fees pair long short = .ok result := by
  rw [finding_of_quotes] at found
  obtain ⟨⟨_ | long, _ | short⟩, -, computed⟩ := bind_eq_ok found
  · cases computed
  · cases computed
  · cases computed
  · dsimp only [resultOfUsable] at computed
    cases from_ : resultFrom desk.fees pair long short with
    | error failure =>
        rw [from_] at computed
        cases computed
    | ok other =>
        rw [from_] at computed
        cases computed
        exact ⟨long, short, from_⟩

theorem finding_complete {result : SpreadResult} (found : desk.finding pair = .ok (some result)) :
    Complete pair result := by
  obtain ⟨long, short, from_⟩ := result_from_of_finding found
  exact result_from_complete from_

/-! ### Settling a result -/

def FiltersAnswer (desk : Desk) (instrument : String) : Prop :=
  ∀ sink ∈ desk.sinks, ∃ wanted, sink.accepts instrument = .ok wanted

/-- What evaluations read and never change: the quotes, the clock and the desk's own pairs. -/
def market (desk : Desk) : QuoteBook × (Calendar.Moment × Bool) × List Pair :=
  (desk.quotes, desk.outlets.timepiece, desk.combinations)

/-- A desk after it has taken in a result, whatever has become of its sinks. -/
structure TakenIn (result : SpreadResult) (desk next : Desk) : Prop where
  market : next.market = desk.market
  tracker : (Tracker.record result).ending desk.tracker = (.ok (), next.tracker)
  counts : next.counts = { desk.counts with results := desk.counts.results + 1 }

structure Settled (result : SpreadResult) (desk next : Desk) : Prop extends
    TakenIn result desk next where
  sinks : List.Forall₂ (Sink.Offered result) desk.sinks next.sinks

theorem counts_of_steady (same : next.steady = desk.steady) : next.counts = desk.counts :=
  congrArg (·.2.2.2.2.2) same

theorem market_of_steady (same : next.steady = desk.steady) : next.market = desk.market := by
  have time : next.outlets.timepiece = desk.outlets.timepiece := by
    have outlets : { next.outlets with log := [] } = { desk.outlets with log := [] } :=
      congrArg (·.2.1) same
    have silent : ∀ outlets : Outlets, { outlets with log := [] }.timepiece = outlets.timepiece :=
      fun _ => rfl
    rw [← silent, outlets, silent]
  have combinations : next.combinations = desk.combinations := congrArg (·.2.2.1) same
  rw [market, market, quotes_of_steady same, time, combinations]

theorem TakenIn.of_steady {result : SpreadResult} {middle : Desk}
    (same : middle.steady = desk.steady) (taken : TakenIn result middle next) :
    TakenIn result desk next := by
  have sameMarket := market_of_steady same
  simp only [steady, Prod.mk.injEq] at same
  obtain ⟨-, -, -, -, tracker, counts⟩ := same
  exact ⟨taken.market.trans sameMarket, tracker ▸ taken.tracker, counts ▸ taken.counts⟩

theorem Settled.of_steady {result : SpreadResult} {middle : Desk}
    (same : middle.steady = desk.steady) (settled : Settled result middle next) :
    Settled result desk next := by
  have sinks : middle.sinks = desk.sinks := congrArg (·.2.2.2.1) same
  exact ⟨settled.toTakenIn.of_steady same, sinks ▸ settled.sinks⟩

/-- Up to publishing, settling a result cannot fail. -/
theorem settle_publishes {result : SpreadResult} (numbered : desk.tracker.Numbered)
    (complete : Complete pair result) :
    ∃ ready, (settle result).ending desk = (publishResult result).ending ready ∧
      TakenIn result desk ready ∧ ready.sinks = desk.sinks := by
  obtain ⟨long, longQuote⟩ := complete.longQuote
  obtain ⟨short, shortQuote⟩ := complete.shortQuote
  obtain ⟨tracker, recorded, -⟩ := Tracker.record_numbered numbered complete.numeric
  obtain ⟨record, logged⟩ : ∃ record, LogRecord.ofResult result = .ok record := by
    rw [LogRecord.ofResult, longQuote, shortQuote]
    exact ⟨_, rfl⟩
  have tracked : (onTracker (Tracker.record result)).ending desk =
      (.ok (), { desk with tracker }) := by
    rw [onTracker, ending_on, recorded]
  refine ⟨{ desk with
    tracker
    counts.results := desk.counts.results + 1
    outlets := { desk.outlets with log := desk.outlets.log ++ [record.ofSpreads] } }, ?_,
    ⟨rfl, recorded, rfl⟩, rfl⟩
  rw [settle, ending_bind_ok tracked, ending_bind_ok (ending_modify _ _), logged,
    ending_bind_ok (ending_lift _ _)]
  rfl

theorem settle_ending {result : SpreadResult} (numbered : desk.tracker.Numbered)
    (complete : Complete pair result) (answer : desk.FiltersAnswer pair.instrument) :
    ∃ next, (settle result).ending desk = (.ok (), next) ∧ Settled result desk next := by
  obtain ⟨ready, settles, taken, sinks⟩ := settle_publishes numbered complete
  have answers : ∀ sink ∈ desk.sinks,
      ∃ wanted, sink.accepts result.pair.instrument = .ok wanted := by
    rw [complete.pair]
    exact answer
  obtain ⟨offeredSinks, last, published, offered, time⟩ :=
    Sink.publish_each_offers answers ready.outlets
  have kept : Desk.market { ready with sinks := offeredSinks, outlets := last } = desk.market := by
    rw [← taken.market, Desk.market, Desk.market, time]
  refine ⟨{ ready with sinks := offeredSinks, outlets := last }, ?_,
    ⟨kept, taken.tracker, taken.counts⟩, offered⟩
  rw [settles, publishResult, ending_bind_ok (ending_get ready), sinks, published]
  rfl

/-- Settling a result ends at a sink whose filter cannot be asked. -/
theorem settle_stops {result : SpreadResult} {earlier later : List Sink} {refusing : Sink}
    {text : String} (numbered : desk.tracker.Numbered) (complete : Complete pair result)
    (sinks : desk.sinks = earlier ++ refusing :: later)
    (answers : ∀ sink ∈ earlier, ∃ wanted, sink.accepts pair.instrument = .ok wanted)
    (refused : refusing.accepts pair.instrument = .error (.wrongType text)) :
    ∃ offered next, (settle result).ending desk = (.error (.wrongType text), next) ∧
      TakenIn result desk next ∧ next.sinks = offered ++ refusing :: later ∧
      List.Forall₂ (Sink.Offered result) earlier offered := by
  obtain ⟨ready, settles, taken, same⟩ := settle_publishes numbered complete
  rw [← complete.pair] at answers refused
  obtain ⟨offered, last, stopped, offers, time⟩ :=
    Sink.publish_each_stops answers refused later ready.outlets
  have kept : Desk.market { ready with sinks := offered ++ refusing :: later, outlets := last } =
      desk.market := by
    rw [← taken.market, Desk.market, Desk.market, time]
  refine ⟨offered, { ready with sinks := offered ++ refusing :: later, outlets := last }, ?_,
    ⟨kept, taken.tracker, taken.counts⟩, rfl, offers⟩
  rw [settles, publishResult, ending_bind_ok (ending_get ready), same, sinks, stopped]
  rfl

theorem settle_refused {result : SpreadResult} (numbered : desk.tracker.Numbered)
    (complete : Complete pair result) (refuses : ¬ desk.FiltersAnswer pair.instrument) :
    ∃ text next, (settle result).ending desk = (.error (.wrongType text), next) ∧
      TakenIn result desk next := by
  obtain ⟨earlier, refusing, later, text, sinks, answers, refused⟩ := Sink.first_refusing refuses
  obtain ⟨offered, next, settles, taken, -⟩ :=
    settle_stops numbered complete sinks answers refused
  exact ⟨text, next, settles, taken⟩

/-! ### One evaluation -/

def countEvaluation (desk : Desk) : Desk :=
  { desk with counts.evaluations := desk.counts.evaluations + 1 }

def countFailure (desk : Desk) : Desk :=
  { desk with counts.failures := desk.counts.failures + 1 }

inductive Evaluated (pair : Pair) (desk : Desk) : Except Failure Outcome → Desk → Prop
  | result {result : SpreadResult} {next : Desk}
      (found : desk.finding pair = .ok (some result))
      (answer : desk.FiltersAnswer pair.instrument)
      (settled : Settled result desk.countEvaluation next) :
      Evaluated pair desk (.ok (.result result)) next
  | noSignal {next : Desk}
      (found : desk.finding pair = .ok none)
      (steady : next.steady = desk.countEvaluation.countNoSignal.steady) :
      Evaluated pair desk (.ok (.noSignal pair)) next
  | failed {error : EngineError} {next : Desk}
      (found : desk.finding pair = .error (.engine error))
      (steady : next.steady = desk.countEvaluation.countFailure.steady) :
      Evaluated pair desk (.error (.engine error)) next
  | stray {failure : Failure} {next : Desk}
      (found : desk.finding pair = .error failure)
      (other : isEngineError failure = false)
      (steady : next.steady = desk.countEvaluation.steady) :
      Evaluated pair desk (.error failure) next
  | refused {result : SpreadResult} {text : String} {next : Desk}
      (found : desk.finding pair = .ok (some result))
      (refuses : ¬ desk.FiltersAnswer pair.instrument)
      (taken : TakenIn result desk.countEvaluation next) :
      Evaluated pair desk (.error (.wrongType text)) next

theorem count_failure_steady (same : next.steady = desk.steady) :
    next.countFailure.steady = desk.countFailure.steady := by
  simp only [steady, Prod.mk.injEq] at same
  obtain ⟨quotes, outlets, combinations, sinks, tracker, counts⟩ := same
  simp only [countFailure, steady, quotes, outlets, combinations, sinks, tracker, counts]

theorem evaluate_opens (pair : Pair) (desk : Desk) :
    (evaluate pair).ending desk = (tryCatch (attempt pair) fun failure => do
      if isEngineError failure then modify countFailure
      throw failure).ending desk.countEvaluation := rfl

/-- A failure that is found ends the evaluation, and is counted if it is an engine error. -/
theorem evaluate_failed {failure : Failure} (found : desk.finding pair = .error failure) :
    ∃ next, (evaluate pair).ending desk = (.error failure, next) ∧
      next.steady = (if isEngineError failure then desk.countEvaluation.countFailure
        else desk.countEvaluation).steady ∧
      (next.fees = desk.fees ∨ next.fees = feesAsked pair desk.fees) := by
  have attempted := attempt_ending pair desk.countEvaluation
  have same : desk.countEvaluation.finding pair = desk.finding pair := rfl
  rw [same, found] at attempted
  obtain ⟨next, asked, ended, steady⟩ := attempted
  have fees : next.fees = desk.fees ∨ next.fees = feesAsked pair desk.fees := by
    rw [asked]
    exact after_asking_cases pair desk
  rw [evaluate_opens, ending_try_catch, ended]
  cases engine : isEngineError failure with
  | false => exact ⟨next, by simp [engine], steady, fees⟩
  | true => exact ⟨next.countFailure, by simp only [engine]; rfl, count_failure_steady steady, fees⟩

theorem evaluate_passed_over (found : desk.finding pair = .ok none) :
    ∃ next, (evaluate pair).ending desk = (.ok (.noSignal pair), next) ∧
      next.steady = desk.countEvaluation.countNoSignal.steady ∧ next.fees = desk.fees := by
  have attempted := attempt_ending pair desk.countEvaluation
  have same : desk.countEvaluation.finding pair = desk.finding pair := rfl
  rw [same, found] at attempted
  obtain ⟨next, asked, ended, steady⟩ := attempted
  have nothing : asks pair desk.countEvaluation = [] := asks_of_nothing found
  rw [nothing] at asked
  rw [evaluate_opens, ending_try_catch, ended]
  exact ⟨next, rfl, steady, asked⟩

/-- A result that is found is settled, and the evaluation then ends with it. -/
theorem evaluate_settles {result : SpreadResult} (found : desk.finding pair = .ok (some result)) :
    ∃ middle, middle.steady = desk.countEvaluation.steady ∧
      (∀ next, (settle result).ending middle = (.ok (), next) →
        (evaluate pair).ending desk = (.ok (.result result), next)) ∧
      ∀ failure next, (settle result).ending middle = (.error failure, next) →
        isEngineError failure = false → (evaluate pair).ending desk = (.error failure, next) := by
  have attempted := attempt_ending pair desk.countEvaluation
  have same : desk.countEvaluation.finding pair = desk.finding pair := rfl
  rw [same, found] at attempted
  obtain ⟨middle, -, steady, ended⟩ := attempted
  refine ⟨middle, steady, ?_, ?_⟩
  · intro next settles
    rw [evaluate_opens, ending_try_catch, ended, ending_bind_ok settles]
    rfl
  · intro failure next settles stray
    rw [evaluate_opens, ending_try_catch, ended, ending_bind_error settles]
    simp [stray]

theorem evaluate_ends (numbered : desk.tracker.Numbered) (pair : Pair) :
    ∃ ended next, (evaluate pair).ending desk = (ended, next) ∧ Evaluated pair desk ended next := by
  cases found : desk.finding pair with
  | error failure =>
      obtain ⟨next, ended, steady, -⟩ := evaluate_failed found
      cases failure with
      | engine error => exact ⟨_, next, ended, .failed found steady⟩
      | _ => exact ⟨_, next, ended, .stray found rfl steady⟩
  | ok signal =>
  cases signal with
  | none =>
      obtain ⟨next, ended, steady, -⟩ := evaluate_passed_over found
      exact ⟨_, next, ended, .noSignal found steady⟩
  | some result =>
  obtain ⟨middle, steady, settled_ends, refused_ends⟩ := evaluate_settles found
  have complete := finding_complete found
  have middleNumbered : middle.tracker.Numbered := by
    have tracker : middle.tracker = desk.tracker := congrArg (·.2.2.2.2.1) steady
    exact tracker ▸ numbered
  have sinks : middle.sinks = desk.sinks := congrArg (·.2.2.2.1) steady
  have sameFilters : middle.FiltersAnswer pair.instrument ↔ desk.FiltersAnswer pair.instrument := by
    rw [FiltersAnswer, FiltersAnswer, sinks]
  by_cases answer : desk.FiltersAnswer pair.instrument
  · obtain ⟨next, settles, settled⟩ :=
      settle_ending middleNumbered complete (sameFilters.mpr answer)
    exact ⟨_, next, settled_ends next settles, .result found answer (settled.of_steady steady)⟩
  · obtain ⟨text, next, settles, taken⟩ :=
      settle_refused middleNumbered complete (mt sameFilters.mp answer)
    exact ⟨_, next, refused_ends _ next settles rfl,
      .refused found answer (taken.of_steady steady)⟩

def outcome (pair : Pair) (desk : Desk) : Except Failure Outcome := ((evaluate pair).ending desk).1

def outcomeOf (pair : Pair) (found : Except Failure (Option SpreadResult)) :
    Except Failure Outcome :=
  found.map fun
    | some result => .result result
    | none => .noSignal pair

theorem outcome_of_finding (numbered : desk.tracker.Numbered)
    (answers : ∀ result, desk.finding pair = .ok (some result) →
      desk.FiltersAnswer pair.instrument) :
    desk.outcome pair = outcomeOf pair (desk.finding pair) := by
  obtain ⟨ended, next, ending, evaluated⟩ := evaluate_ends numbered pair
  rw [outcome, ending]
  cases evaluated with
  | result found => rw [found]; rfl
  | noSignal found => rw [found]; rfl
  | failed found => rw [found]; rfl
  | stray found => rw [found]; rfl
  | refused found refuses => exact absurd (answers _ found) refuses

theorem evaluate_counts (numbered : desk.tracker.Numbered) (pair : Pair) :
    ((evaluate pair).ending desk).2.counts.evaluations = desk.counts.evaluations + 1 := by
  obtain ⟨ended, next, ending, evaluated⟩ := evaluate_ends numbered pair
  rw [ending]
  cases evaluated with
  | result found answer settled => simp only [settled.counts, countEvaluation]
  | noSignal found steady =>
      simp only [counts_of_steady steady]
      rfl
  | failed found steady =>
      simp only [counts_of_steady steady]
      rfl
  | stray found other steady =>
      simp only [counts_of_steady steady]
      rfl
  | refused found refuses taken => simp only [taken.counts, countEvaluation]

theorem evaluate_numbered (numbered : desk.tracker.Numbered) (pair : Pair) :
    ((evaluate pair).ending desk).2.tracker.Numbered := by
  obtain ⟨ended, next, ending, evaluated⟩ := evaluate_ends numbered pair
  have of_steady : ∀ other : Desk, other.tracker = desk.tracker → next.steady = other.steady →
      next.tracker.Numbered := by
    intro other unchanged same
    have tracker : next.tracker = other.tracker := congrArg (·.2.2.2.2.1) same
    rw [tracker, unchanged]
    exact numbered
  have of_taken : ∀ {result : SpreadResult}, desk.finding pair = .ok (some result) →
      TakenIn result desk.countEvaluation next → next.tracker.Numbered := by
    intro result found taken
    obtain ⟨tracker, recorded, fine⟩ :=
      Tracker.record_numbered numbered (finding_complete found).numeric
    have same := taken.tracker.symm.trans recorded
    cases same
    exact fine
  rw [ending]
  cases evaluated with
  | result found answer settled => exact of_taken found settled.toTakenIn
  | noSignal found steady => exact of_steady desk.countEvaluation.countNoSignal rfl steady
  | failed found steady => exact of_steady desk.countEvaluation.countFailure rfl steady
  | stray found other steady => exact of_steady desk.countEvaluation rfl steady
  | refused found refuses taken => exact of_taken found taken

/-! ### An evaluation within a cycle -/

def resultsOf : Except Failure Outcome → List SpreadResult
  | .ok (.result result) => [result]
  | _ => []

/-- An end that a cycle does not pass over: a failure that is no engine error. -/
def Escapes (ended : Except Failure Outcome) : Prop :=
  ∃ failure, ended = .error failure ∧ isEngineError failure = false

/-- A cycle goes on after an evaluation unless its failure escapes. -/
theorem evaluate_for_cycle_ending (pair : Pair) (desk : Desk) :
    (¬ Escapes ((evaluate pair).ending desk).1 → ∃ found next,
      (evaluateForCycle pair).ending desk = (.ok found, next) ∧
        found.toList = resultsOf ((evaluate pair).ending desk).1 ∧
        Logged ((evaluate pair).ending desk).2 next) ∧
    (∀ failure, ((evaluate pair).ending desk).1 = .error failure → isEngineError failure = false →
      (evaluateForCycle pair).ending desk = (.error failure, ((evaluate pair).ending desk).2)) := by
  rw [evaluateForCycle, ending_try_catch, ending_bind]
  generalize (evaluate pair).ending desk = ended
  obtain ⟨failure | outcome, next⟩ := ended
  · constructor
    · intro passed
      cases failure with
      | engine error =>
          obtain ⟨last, noted, logged⟩ := note_logs .error "Spread evaluation failed"
            [("pair", .text pair.toText), ("error", .text error.message),
              ("error_type", .text error.cause.name), ("context", error.context)] next
          exact ⟨none, last, ending_bind_ok noted _, rfl, logged⟩
      | _ => exact absurd ⟨_, rfl, rfl⟩ passed
    · rintro other same stray
      cases same
      cases failure with
      | engine error => cases stray
      | _ => rfl
  · constructor
    · intro _
      cases outcome with
      | result result => exact ⟨some result, next, rfl, rfl, .refl next⟩
      | noSignal _ => exact ⟨none, next, rfl, rfl, .refl next⟩
    · intro failure failed
      cases failed

end SpreadWatch.Desk
