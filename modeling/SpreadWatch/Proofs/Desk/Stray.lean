import SpreadWatch.Proofs.Desk.Evaluation
import SpreadWatch.Proofs.Freshness
import SpreadWatch.Proofs.Spread.Signals

/-!
Failures of an evaluation that are no engine errors. They come from three places: a quote whose age
cannot be told, a spread that the decimal arithmetic has no answer for, and a sink whose filter
cannot be asked.
-/

namespace SpreadWatch.Desk

open SpreadWatch.Action
open SpreadWatch.Spread (Legs Signals)

variable {desk next : Desk} {pair : Pair}

abbrev Stray (failure : Failure) : Prop := isEngineError failure = false

/-! ### Where failures come from -/

theorem under_is_engine_error (failure : Failure) (cause : EngineCause) (lead : String) :
    isEngineError (failure.under cause lead) = true := by
  cases failure <;> rfl

theorem fetch_failure {exchange instrument : String} {failure : Failure}
    (failed : desk.quoteAt exchange instrument = .error failure) :
    isEngineError failure = true := by
  unfold quoteAt at failed
  cases fetched : desk.quotes.fetch exchange instrument with
  | ok quote =>
      rw [fetched] at failed
      cases failed
  | error early =>
      rw [fetched] at failed
      cases failed
      exact under_is_engine_error _ _ _

theorem quote_at_ok {exchange instrument : String} {quote : Option Quote} :
    desk.quoteAt exchange instrument = .ok quote ↔
      desk.quotes.fetch exchange instrument = .ok quote := by
  unfold quoteAt
  cases desk.quotes.fetch exchange instrument with
  | ok other => exact Iff.rfl
  | error failure => simp

theorem resolve_failure {source : FeeSource} {request : FeeRequest} {failure : Failure}
    (failed : (source.resolve request).1 = .error failure) : isEngineError failure = true := by
  unfold FeeSource.resolve at failed
  split at failed
  · cases failed
  · generalize (FeeSource.fetch request).ending source = fetched at failed
    obtain ⟨early | fee, fees⟩ := fetched
    · cases failed
      exact under_is_engine_error _ _ _
    · cases fee with
      | none =>
          cases failed
          rfl
      | some fee => cases failed

theorem to_utc_fails (reading : Calendar.Moment) : FailsWith Stray (Freshness.toUtc reading) := by
  unfold Freshness.toUtc
  cases reading.toUtc? with
  | some utc => exact FailsWith.ok utc
  | none => exact FailsWith.error rfl

theorem now_fails (outlets : Outlets) : FailsWith Stray outlets.now := by
  unfold Outlets.now Outlets.utcNow Freshness.machineTime
  split_ifs
  · exact FailsWith.ok _
  · exact FailsWith.error rfl
  · exact to_utc_fails _

theorem compare_with_fails (measured : Binary64) (limit : Value) :
    FailsWith Stray (Value.compareWith? measured limit) := by
  unfold Value.compareWith?
  split
  · exact FailsWith.ok _
  · split
    · exact (FailsWith.lift fun signal => rfl).map some
    · exact FailsWith.error rfl

theorem negate_fails (value : Value) : FailsWith Stray value.negate := by
  unfold Value.negate
  split
  · exact FailsWith.ok _
  · exact FailsWith.ok _
  · exact FailsWith.ok _
  · exact (FailsWith.lift fun signal => rfl).map _
  · exact FailsWith.error rfl

theorem latency_fails (market clock : Calendar.Moment) :
    FailsWith Stray (Freshness.latency market clock) := by
  refine FailsWith.map ?_ _
  unfold Freshness.elapsed
  cases clock.since? market with
  | some micros => exact FailsWith.ok micros
  | none => exact FailsWith.error rfl

theorem contains_fails (window : Freshness.Window) (market : Calendar.Moment)
    {clock : Except Failure Calendar.Moment} (clockFails : FailsWith Stray clock) :
    FailsWith Stray (window.contains market clock) := by
  apply FailsWith.bind (to_utc_fails market)
  intro first _
  apply FailsWith.bind clockFails
  intro reading _
  apply FailsWith.bind (to_utc_fails reading)
  intro second _
  apply FailsWith.bind (latency_fails first second)
  intro age _
  apply FailsWith.bind (compare_with_fails age window.maxAge)
  intro order _
  split_ifs
  · exact FailsWith.ok _
  · apply FailsWith.bind (negate_fails window.maxSkew)
    intro earliest _
    apply FailsWith.bind (compare_with_fails age earliest)
    intro order _
    exact FailsWith.ok _

theorem state_of_fails (quote : Option Quote) (desk : Desk) :
    FailsWith Stray (desk.quotes.stateOf quote desk.outlets.now) := by
  unfold QuoteBook.stateOf
  split
  · exact FailsWith.bind (contains_fails _ _ (now_fails _)) fun fresh _ => FailsWith.ok _
  · exact FailsWith.ok _
  · exact FailsWith.ok _

/-! ### What an evaluation finds -/

def stateNow (desk : Desk) (quote : Option Quote) : Except Failure QuoteState :=
  desk.quotes.stateOf quote desk.outlets.now

def AgeUnknown (desk : Desk) (quote : Option Quote) : Prop :=
  ∃ ask bid time, quote = some { ask := some ask, bid := some bid, time := some time } ∧
    desk.quotes.window.Undecided time desk.outlets.now

/-- Everything that the spreads of a pair are computed from: two usable quotes and two fees. -/
structure Ready (pair : Pair) (desk : Desk) (long short : Quote) (longFee shortFee : Decimal) :
    Prop where
  longAt : desk.quotes.fetch pair.long pair.instrument = .ok (some long)
  shortAt : desk.quotes.fetch pair.short pair.instrument = .ok (some short)
  longState : desk.stateNow (some long) = .ok .usable
  shortState : desk.stateNow (some short) = .ok .usable
  longFound : (desk.fees.resolve (longRequest pair)).1 = .ok longFee
  shortFound :
    ((desk.fees.resolve (longRequest pair)).2.resolve (shortRequest pair)).1 = .ok shortFee

inductive Found (pair : Pair) (desk : Desk) : Except Failure (Option SpreadResult) → Prop
  | engine {failure : Failure} (engine : isEngineError failure = true) :
      Found pair desk (.error failure)
  | ageless {long short : Option Quote} {failure : Failure}
      (longAt : desk.quotes.fetch pair.long pair.instrument = .ok long)
      (shortAt : desk.quotes.fetch pair.short pair.instrument = .ok short)
      (unknown : desk.AgeUnknown long ∨ desk.AgeUnknown short) (stray : Stray failure) :
      Found pair desk (.error failure)
  | nothing : Found pair desk (.ok none)
  | computed {long short : Quote} {longFee shortFee : Decimal}
      (ready : Ready pair desk long short longFee shortFee) :
      Found pair desk ((spreadsOf long short longFee shortFee).map fun spreads =>
        some { pair, longQuote := some long, shortQuote := some short, entry := some spreads.1
               exit := some spreads.2 })

theorem age_unknown_iff (quote : Option Quote) :
    (∃ failure, desk.stateNow quote = .error failure) ↔ desk.AgeUnknown quote := by
  constructor
  · rintro ⟨failure, failed⟩
    unfold stateNow QuoteBook.stateOf at failed
    split at failed
    · rename_i ask bid time
      refine ⟨ask, bid, time, rfl, (Freshness.contains_error_iff _ _ _).mp ?_⟩
      rcases bind_eq_error failed with early | ⟨fresh, -, late⟩
      · exact ⟨failure, early⟩
      · cases late
    · cases failed
    · cases failed
  · rintro ⟨ask, bid, time, rfl, undecided⟩
    obtain ⟨failure, failed⟩ := (Freshness.contains_error_iff _ _ _).mpr undecided
    refine ⟨failure, ?_⟩
    simp only [stateNow, QuoteBook.stateOf, failed, bind, Except.bind]

theorem usable_eq_error {quote : Option Quote} {failure : Failure} :
    desk.usable quote = .error failure ↔ desk.stateNow quote = .error failure := by
  unfold usable stateNow
  cases desk.quotes.stateOf quote desk.outlets.now with
  | ok state => simp [Except.map]
  | error early => simp [Except.map]

theorem usable_eq_some {quote : Option Quote} {used : Quote} :
    desk.usable quote = .ok (some used) ↔
      quote = some used ∧ desk.stateNow quote = .ok .usable := by
  unfold usable stateNow
  cases desk.quotes.stateOf quote desk.outlets.now with
  | ok state =>
      by_cases usable : state = .usable
      · simp [Except.map, usable]
      · simp [Except.map, usable]
  | error early => simp [Except.map]

theorem usable_of_age_unknown {quote : Option Quote} (unknown : desk.AgeUnknown quote) :
    ∃ failure, desk.usable quote = .error failure ∧ Stray failure := by
  obtain ⟨failure, failed⟩ := (age_unknown_iff quote).mpr unknown
  exact ⟨failure, usable_eq_error.mpr failed, state_of_fails quote desk failure failed⟩

theorem finding_found (pair : Pair) (desk : Desk) : Found pair desk (desk.finding pair) := by
  unfold finding
  cases longAnswer : desk.quoteAt pair.long pair.instrument with
  | error failure => exact .engine (fetch_failure longAnswer)
  | ok long =>
  cases shortAnswer : desk.quoteAt pair.short pair.instrument with
  | error failure => exact .engine (fetch_failure shortAnswer)
  | ok short =>
  have longAt := quote_at_ok.mp longAnswer
  have shortAt := quote_at_ok.mp shortAnswer
  simp only [bind, Except.bind]
  cases longUsable : desk.usable long with
  | error failure =>
      have failed := usable_eq_error.mp longUsable
      exact .ageless longAt shortAt (.inl ((age_unknown_iff long).mp ⟨failure, failed⟩))
        (state_of_fails long desk failure failed)
  | ok longUsed =>
  cases shortUsable : desk.usable short with
  | error failure =>
      have failed := usable_eq_error.mp shortUsable
      exact .ageless longAt shortAt (.inr ((age_unknown_iff short).mp ⟨failure, failed⟩))
        (state_of_fails short desk failure failed)
  | ok shortUsed =>
  cases longUsed with
  | none => exact .nothing
  | some longQuote =>
  cases shortUsed with
  | none => exact .nothing
  | some shortQuote =>
  obtain ⟨rfl, longState⟩ := usable_eq_some.mp longUsable
  obtain ⟨rfl, shortState⟩ := usable_eq_some.mp shortUsable
  simp only [resultOfUsable, resultFrom, bind, Except.bind]
  cases longFound : (desk.fees.resolve (longRequest pair)).1 with
  | error failure => exact .engine (resolve_failure longFound)
  | ok longFee =>
  simp only
  cases shortFound :
      ((desk.fees.resolve (longRequest pair)).2.resolve (shortRequest pair)).1 with
  | error failure => exact .engine (resolve_failure shortFound)
  | ok shortFee =>
  have ready : Ready pair desk longQuote shortQuote longFee shortFee :=
    ⟨longAt, shortAt, longState, shortState, longFound, shortFound⟩
  have found := Found.computed ready
  cases computed : spreadsOf longQuote shortQuote longFee shortFee with
  | error failure =>
      rw [computed] at found
      simp only [computed]
      exact found
  | ok spreads =>
      rw [computed] at found
      simp only [computed]
      exact found

theorem finding_of_ready {long short : Quote} {longFee shortFee : Decimal}
    (ready : Ready pair desk long short longFee shortFee) :
    desk.finding pair = (spreadsOf long short longFee shortFee).map fun spreads =>
      some { pair, longQuote := some long, shortQuote := some short, entry := some spreads.1
             exit := some spreads.2 } := by
  have longUsable := usable_eq_some.mpr ⟨rfl, ready.longState⟩
  have shortUsable := usable_eq_some.mpr ⟨rfl, ready.shortState⟩
  simp only [finding, quote_at_ok.mpr ready.longAt, quote_at_ok.mpr ready.shortAt, longUsable,
    shortUsable, resultOfUsable, resultFrom, ready.longFound, ready.shortFound, bind, Except.bind]
  cases spreadsOf long short longFee shortFee <;> rfl

theorem finding_of_age_unknown {long short : Option Quote}
    (longAt : desk.quotes.fetch pair.long pair.instrument = .ok long)
    (shortAt : desk.quotes.fetch pair.short pair.instrument = .ok short)
    (unknown : desk.AgeUnknown long ∨ desk.AgeUnknown short) :
    ∃ failure, desk.finding pair = .error failure ∧ Stray failure := by
  simp only [finding, quote_at_ok.mpr longAt, quote_at_ok.mpr shortAt, bind, Except.bind]
  cases longUsable : desk.usable long with
  | error failure =>
      exact ⟨failure, rfl, state_of_fails long desk failure (usable_eq_error.mp longUsable)⟩
  | ok longUsed =>
      rcases unknown with longUnknown | shortUnknown
      · obtain ⟨failure, failed, -⟩ := usable_of_age_unknown longUnknown
        rw [longUsable] at failed
        cases failed
      · obtain ⟨failure, failed, stray⟩ := usable_of_age_unknown shortUnknown
        rw [failed]
        exact ⟨failure, rfl, stray⟩

/-! ### The numbers behind the spreads -/

def legsOf? (long short : Quote) (longFee shortFee : Decimal) : Option (Legs × Legs) := do
  let longAsk ← long.ask
  let longBid ← long.bid
  let shortAsk ← short.ask
  let shortBid ← short.bid
  return ({ longPrice := longAsk, longFee, shortPrice := shortBid, shortFee },
    { longPrice := longBid, longFee, shortPrice := shortAsk, shortFee })

theorem sides_of_usable {quote : Quote} (state : desk.stateNow (some quote) = .ok .usable) :
    ∃ ask bid, quote.ask = some ask ∧ quote.bid = some bid := by
  obtain ⟨ask, bid, time⟩ := quote
  unfold stateNow QuoteBook.stateOf at state
  cases ask with
  | none => cases state
  | some ask =>
      cases bid with
      | none => cases state
      | some bid => exact ⟨ask, bid, rfl, rfl⟩

theorem legs_of_ready {long short : Quote} {longFee shortFee : Decimal}
    (ready : Ready pair desk long short longFee shortFee) :
    ∃ entry exit, legsOf? long short longFee shortFee = some (entry, exit) := by
  obtain ⟨longAsk, longBid, longAskIs, longBidIs⟩ := sides_of_usable ready.longState
  obtain ⟨shortAsk, shortBid, shortAskIs, shortBidIs⟩ := sides_of_usable ready.shortState
  rw [legsOf?, longAskIs, longBidIs, shortAskIs, shortBidIs]
  exact ⟨_, _, rfl⟩

theorem spreads_of_legs {long short : Quote} {longFee shortFee : Decimal} {entry exit : Legs}
    (legs : legsOf? long short longFee shortFee = some (entry, exit)) :
    spreadsOf long short longFee shortFee = (entry.spread .entry >>= fun first =>
      exit.spread .exit >>= fun second => .ok (first, second)) := by
  obtain ⟨longAsk, longBid, longTime⟩ := long
  obtain ⟨shortAsk, shortBid, shortTime⟩ := short
  cases longAsk <;> cases longBid <;> cases shortAsk <;> cases shortBid <;> cases legs
  rfl

/-- The decimal arithmetic signals over two spreads exactly if it has no answer for the entry
spread, or has one for it and none for the exit spread. -/
theorem spreads_signal_iff {long short : Quote} {longFee shortFee : Decimal} {entry exit : Legs}
    (legs : legsOf? long short longFee shortFee = some (entry, exit)) :
    Signals (spreadsOf long short longFee shortFee) ↔
      entry.Unanswered .entry ∨ entry.Answered .entry ∧ exit.Unanswered .exit := by
  rw [spreads_of_legs legs, Spread.signals_bind, Legs.spread_signals_iff,
    ← Legs.spread_answers_iff]
  apply or_congr_right
  constructor
  · rintro ⟨first, answered, signals⟩
    rw [Spread.signals_bind, Legs.spread_signals_iff] at signals
    rcases signals with unanswered | ⟨second, -, signal, failed⟩
    · exact ⟨⟨first, answered⟩, unanswered⟩
    · cases failed
  · rintro ⟨⟨first, answered⟩, unanswered⟩
    refine ⟨first, answered, ?_⟩
    rw [Spread.signals_bind, Legs.spread_signals_iff]
    exact .inl unanswered

theorem spreads_answer_iff {long short : Quote} {longFee shortFee : Decimal} {entry exit : Legs}
    (legs : legsOf? long short longFee shortFee = some (entry, exit)) :
    (∃ spreads, spreadsOf long short longFee shortFee = .ok spreads) ↔
      entry.Answered .entry ∧ exit.Answered .exit := by
  rw [spreads_of_legs legs, ← Legs.spread_answers_iff, ← Legs.spread_answers_iff]
  constructor
  · rintro ⟨spreads, answered⟩
    obtain ⟨first, firstAnswered, afterFirst⟩ := bind_eq_ok answered
    obtain ⟨second, secondAnswered, -⟩ := bind_eq_ok afterFirst
    exact ⟨⟨first, firstAnswered⟩, second, secondAnswered⟩
  · rintro ⟨⟨first, firstAnswered⟩, second, secondAnswered⟩
    exact ⟨(first, second), by rw [firstAnswered, secondAnswered]; rfl⟩

theorem spreads_of_calculates (long short : Quote) (longFee shortFee : Decimal) :
    Calculates (spreadsOf long short longFee shortFee) := by
  apply FailsWith.bind (Spread.spread_calculates _ _ _ _ _)
  intro entry _
  apply FailsWith.bind (Spread.spread_calculates _ _ _ _ _)
  intro exit _
  exact FailsWith.ok _

/-! ### Evaluations whose failure escapes -/

/-- Why a cycle does not pass over a pair: the age of a quote cannot be told, the decimal arithmetic
has no answer for a spread, or a sink cannot tell whether it wants the result. -/
inductive Strays (pair : Pair) (desk : Desk) : Prop
  | age {long short : Option Quote}
      (longAt : desk.quotes.fetch pair.long pair.instrument = .ok long)
      (shortAt : desk.quotes.fetch pair.short pair.instrument = .ok short)
      (unknown : desk.AgeUnknown long ∨ desk.AgeUnknown short)
  | arithmetic {long short : Quote} {longFee shortFee : Decimal} {entry exit : Legs}
      (ready : Ready pair desk long short longFee shortFee)
      (legs : legsOf? long short longFee shortFee = some (entry, exit))
      (unanswered : entry.Unanswered .entry ∨ entry.Answered .entry ∧ exit.Unanswered .exit)
  | filter {long short : Quote} {longFee shortFee : Decimal} {entry exit : Legs} {sink : Sink}
      {failure : Failure} (ready : Ready pair desk long short longFee shortFee)
      (legs : legsOf? long short longFee shortFee = some (entry, exit))
      (answered : entry.Answered .entry ∧ exit.Answered .exit) (member : sink ∈ desk.sinks)
      (refused : sink.accepts pair.instrument = .error failure)

theorem strays_of_failure {outcome : Except Failure (Option SpreadResult)} {failure : Failure}
    (found : Found pair desk outcome) (failed : outcome = .error failure) (stray : Stray failure) :
    Strays pair desk := by
  cases found with
  | engine engine =>
      cases failed
      rw [stray] at engine
      cases engine
  | ageless longAt shortAt unknown other => exact .age longAt shortAt unknown
  | nothing => cases failed
  | computed ready =>
      obtain ⟨entry, exit, legs⟩ := legs_of_ready ready
      generalize answer : spreadsOf _ _ _ _ = spreads at failed
      cases spreads with
      | ok both => cases failed
      | error early =>
          cases failed
          cases spreads_of_calculates _ _ _ _ _ answer with
          | engine error => cases stray
          | decimal signal =>
              exact .arithmetic ready legs ((spreads_signal_iff legs).mp ⟨signal, answer⟩)

theorem strays_of_refusal {outcome : Except Failure (Option SpreadResult)} {result : SpreadResult}
    (found : Found pair desk outcome) (answered : outcome = .ok (some result))
    (refuses : ¬ desk.FiltersAnswer pair.instrument) : Strays pair desk := by
  cases found with
  | engine => cases answered
  | ageless => cases answered
  | nothing => cases answered
  | computed ready =>
      obtain ⟨entry, exit, legs⟩ := legs_of_ready ready
      obtain ⟨earlier, sink, later, text, sinks, -, refused⟩ := Sink.first_refusing refuses
      have member : sink ∈ desk.sinks := by simp [sinks]
      generalize answer : spreadsOf _ _ _ _ = spreads at answered
      cases spreads with
      | error early => cases answered
      | ok both =>
          exact .filter ready legs ((spreads_answer_iff legs).mp ⟨both, answer⟩) member refused

theorem finding_of_strays (strays : Strays pair desk) :
    (∃ failure, desk.finding pair = .error failure ∧ Stray failure) ∨
      ∃ result, desk.finding pair = .ok (some result) ∧ ¬ desk.FiltersAnswer pair.instrument := by
  cases strays with
  | age longAt shortAt unknown => exact .inl (finding_of_age_unknown longAt shortAt unknown)
  | arithmetic ready legs unanswered =>
      obtain ⟨signal, failed⟩ := (spreads_signal_iff legs).mpr unanswered
      exact .inl ⟨.decimal signal, by rw [finding_of_ready ready, failed]; rfl, rfl⟩
  | filter ready legs answered member refused =>
      obtain ⟨spreads, computed⟩ := (spreads_answer_iff legs).mpr answered
      refine .inr ⟨_, by rw [finding_of_ready ready, computed]; rfl, fun answer => ?_⟩
      obtain ⟨wanted, accepted⟩ := answer _ member
      rw [refused] at accepted
      cases accepted

/-- A failure escapes from the evaluation of a pair exactly if the pair strays. -/
theorem escapes_iff_strays (numbered : desk.tracker.Numbered) (pair : Pair) :
    Escapes ((evaluate pair).ending desk).1 ↔ Strays pair desk := by
  obtain ⟨ended, next, ending, evaluated⟩ := evaluate_ends numbered pair
  rw [ending]
  constructor
  · rintro ⟨failure, failed, stray⟩
    have found := finding_found pair desk
    cases evaluated with
    | result => cases failed
    | noSignal => cases failed
    | failed =>
        cases failed
        cases stray
    | stray finding other steady =>
        cases failed
        exact strays_of_failure found finding stray
    | refused finding refuses counted => exact strays_of_refusal found finding refuses
  · intro strays
    rcases finding_of_strays strays with ⟨failure, failed, stray⟩ | ⟨result, answered, refuses⟩
    · cases evaluated with
      | result finding => rw [finding] at failed; cases failed
      | noSignal finding => rw [finding] at failed; cases failed
      | failed finding =>
          rw [finding] at failed
          cases failed
          cases stray
      | stray finding other => exact ⟨_, rfl, other⟩
      | refused finding => rw [finding] at failed; cases failed
    · cases evaluated with
      | result finding answer => exact absurd answer refuses
      | noSignal finding => rw [finding] at answered; cases answered
      | failed finding => rw [finding] at answered; cases answered
      | stray finding => rw [finding] at answered; cases answered
      | refused => exact ⟨_, rfl, rfl⟩

end SpreadWatch.Desk
