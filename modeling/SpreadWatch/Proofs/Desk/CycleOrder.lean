import SpreadWatch.Proofs.Desk.Fees
import SpreadWatch.Proofs.WaterMark.Atomicity
import SpreadWatch.Proofs.WaterMark.Levels

/-!
The order of a cycle. With fees that do not depend on the side, what an evaluation finds at its turn
in a cycle is what it would find before the cycle: the pairs before it have changed neither a quote
nor the answer to any request for a fee. So the pairs of a cycle can be taken in any order: they
have the same outcomes, and leave the same fees, counts and water marks.
-/

namespace SpreadWatch

namespace Counts

def after (counts : Counts) : Except Failure Outcome → Counts
  | .ok (.result _) => { counts with
      evaluations := counts.evaluations + 1, results := counts.results + 1 }
  | .ok (.noSignal _) => { counts with
      evaluations := counts.evaluations + 1, noSignals := counts.noSignals + 1 }
  | .error _ => { counts with
      evaluations := counts.evaluations + 1, failures := counts.failures + 1 }

theorem after_right_comm (counts : Counts) (first second : Except Failure Outcome) :
    (counts.after first).after second = (counts.after second).after first := by
  rcases first with _ | _ | _ <;> rcases second with _ | _ | _ <;> rfl

instance : RightCommutative after := ⟨after_right_comm⟩

end Counts

namespace Desk

open SpreadWatch.Action

variable {desk start now next : Desk} {pair : Pair} {pairs done : List Pair}

/-! ### Evaluations that do not stray -/

theorem strays_iff_finding :
    Strays pair desk ↔ (∃ failure, desk.finding pair = .error failure ∧ Stray failure) ∨
      ∃ result, desk.finding pair = .ok (some result) ∧ ¬ desk.FiltersAnswer pair.instrument := by
  constructor
  · exact finding_of_strays
  · rintro (⟨failure, found, stray⟩ | ⟨result, found, refuses⟩)
    · exact strays_of_failure (finding_found pair desk) found stray
    · exact strays_of_refusal (finding_found pair desk) found refuses

/-- What the turn of a pair that does not stray leaves, apart from the fees. -/
structure Turned (pair : Pair) (desk next : Desk) : Prop where
  market : next.market = desk.market
  sinks : next.sinks.map Sink.identity = desk.sinks.map Sink.identity
  numbered : next.tracker.Numbered
  levels : next.tracker.levels =
    (resultsOf (desk.outcome pair)).foldl Levels.raise desk.tracker.levels
  counts : next.counts = desk.counts.after (desk.outcome pair)

theorem turned_of_steady (numbered : desk.tracker.Numbered) {counted : Desk}
    (steady : next.steady = counted.steady) (market : counted.market = desk.market)
    (sinks : counted.sinks = desk.sinks) (tracker : counted.tracker = desk.tracker)
    (nothing : resultsOf (desk.outcome pair) = [])
    (counts : counted.counts = desk.counts.after (desk.outcome pair)) : Turned pair desk next := by
  have sameMarket := market_of_steady steady
  simp only [Desk.steady, Prod.mk.injEq] at steady
  obtain ⟨-, -, -, sameSinks, sameTracker, sameCounts⟩ := steady
  refine ⟨sameMarket.trans market, ?_, ?_, ?_, sameCounts.trans counts⟩
  · rw [sameSinks, sinks]
  · rw [sameTracker, tracker]
    exact numbered
  · rw [sameTracker, tracker, nothing]
    rfl

/-- A pair that does not stray ends with the outcome that belongs to its finding. -/
theorem turn_of_finding (numbered : desk.tracker.Numbered) (calm : ¬ Strays pair desk) :
    desk.outcome pair = outcomeOf pair (desk.finding pair) ∧
      Turned pair desk ((evaluate pair).ending desk).2 := by
  obtain ⟨ended, next, ending, evaluated⟩ := evaluate_ends numbered pair
  have outcome : desk.outcome pair = ended := by rw [Desk.outcome, ending]
  rw [ending, outcome]
  cases evaluated with
  | result found answer settled =>
      refine ⟨by rw [found]; rfl, settled.market, Sink.offered_identities settled.sinks, ?_, ?_, ?_⟩
      all_goals
        obtain ⟨tracker, recorded, after, raised⟩ :=
          Tracker.record_raises numbered (finding_complete found).numeric
        cases settled.tracker.symm.trans recorded
      · exact after
      · rw [outcome]
        exact raised
      · rw [outcome]
        exact settled.counts
  | noSignal found steady =>
      refine ⟨by rw [found]; rfl, turned_of_steady numbered steady rfl rfl rfl ?_ ?_⟩
      · rw [outcome]
        rfl
      · rw [outcome]
        rfl
  | failed found steady =>
      refine ⟨by rw [found]; rfl, turned_of_steady numbered steady rfl rfl rfl ?_ ?_⟩
      · rw [outcome]
        rfl
      · rw [outcome]
        rfl
  | stray found other => exact absurd (strays_iff_finding.mpr (.inl ⟨_, found, other⟩)) calm
  | refused found refuses => exact absurd (strays_iff_finding.mpr (.inr ⟨_, found, refuses⟩)) calm

theorem Turned.of_steady {last : Desk} (turned : Turned pair desk next)
    (steady : last.steady = next.steady) : Turned pair desk last := by
  have market := market_of_steady steady
  simp only [Desk.steady, Prod.mk.injEq] at steady
  obtain ⟨-, -, -, sinks, tracker, counts⟩ := steady
  exact ⟨market.trans turned.market, sinks ▸ turned.sinks, tracker ▸ turned.numbered,
    tracker ▸ turned.levels, counts ▸ turned.counts⟩

/-! ### Within a cycle -/

theorem filters_of_identities (same : now.sinks.map Sink.identity = start.sinks.map Sink.identity)
    (instrument : String) : now.FiltersAnswer instrument ↔ start.FiltersAnswer instrument := by
  have by_identity : ∀ desk : Desk, desk.FiltersAnswer instrument ↔
      ∀ identity ∈ desk.sinks.map Sink.identity, ∀ sink : Sink, sink.identity = identity →
        ∃ wanted, sink.accepts instrument = .ok wanted := by
    intro desk
    constructor
    · intro answer identity member sink same
      obtain ⟨other, otherMember, otherSame⟩ := List.mem_map.mp member
      have filters : sink.instruments = other.instruments :=
        congrArg (·.2) (same.trans otherSame.symm)
      rw [Sink.accepts, filters]
      exact answer other otherMember
    · intro answer sink member
      exact answer sink.identity (List.mem_map_of_mem member) sink rfl
  rw [by_identity, by_identity, same]

/-- What is asked for the pairs of a cycle, as it would be asked before the cycle. -/
def askedBefore (start : Desk) (pairs : List Pair) : List FeeRequest :=
  pairs.flatMap fun pair => asks pair start

def resultsBefore (start : Desk) (pairs : List Pair) : List SpreadResult :=
  pairs.flatMap fun pair => resultsOf (start.outcome pair)

/-- Where a cycle is after some pairs, in terms of where it has started. -/
structure Held (start : Desk) (done : List Pair) (now : Desk) : Prop where
  market : now.market = start.market
  sinks : now.sinks.map Sink.identity = start.sinks.map Sink.identity
  fees : now.fees = start.fees.afterAsking (askedBefore start done)
  numbered : now.tracker.Numbered
  levels : now.tracker.levels =
    (resultsBefore start done).foldl Levels.raise start.tracker.levels
  counts : now.counts = (done.map start.outcome).foldl Counts.after start.counts

theorem Held.nothing (numbered : start.tracker.Numbered) : Held start [] start :=
  ⟨rfl, rfl, rfl, numbered, rfl, rfl⟩

theorem usable_quotes_of_market (same : now.market = start.market) (pair : Pair) :
    now.usableQuotes pair = start.usableQuotes pair := by
  have quotes : now.quotes = start.quotes := congrArg (·.1) same
  have timepiece : now.outlets.timepiece = start.outlets.timepiece := congrArg (·.2.1) same
  have time : now.outlets.now = start.outlets.now := by
    have of_timepiece : ∀ outlets : Outlets, outlets.now =
        if outlets.timepiece.2 then .ok outlets.timepiece.1
        else Freshness.machineTime outlets.timepiece.1 := fun _ => rfl
    rw [of_timepiece, timepiece, ← of_timepiece]
  simp only [usableQuotes, quoteAt, usable, quotes, time]

section Sideless

variable {reply : String → String → Except Failure Value}
  (replies : start.fees.Replies fun request => reply request.exchange request.instrument)

include replies

theorem Held.answers (held : Held start done now) (request : FeeRequest) :
    (now.fees.resolve request).1 = (start.fees.resolve request).1 := by
  rw [held.fees]
  exact FeeSource.answers_after_asking replies _ request

theorem Held.finding (held : Held start done now) (pair : Pair) :
    now.finding pair = start.finding pair := by
  have repliesNow := FeeSource.replies_after_asking replies (askedBefore start done)
  rw [← held.fees] at repliesNow
  rw [finding_of_quotes, finding_of_quotes, usable_quotes_of_market held.market]
  refine bind_congr fun quotes => ?_
  obtain ⟨_ | long, _ | short⟩ := quotes
  · rfl
  · rfl
  · rfl
  · simp only [resultOfUsable, resultFrom, FeeSource.answers_after_resolve repliesNow,
      FeeSource.answers_after_resolve replies, held.answers replies]

theorem Held.asks (held : Held start done now) (pair : Pair) : asks pair now = asks pair start := by
  simp only [Desk.asks, usable_quotes_of_market held.market, held.answers replies]

theorem Held.strays_iff (held : Held start done now) (pair : Pair) :
    Strays pair now ↔ Strays pair start := by
  rw [strays_iff_finding, strays_iff_finding, held.finding replies,
    filters_of_identities held.sinks]

theorem Held.outcome (startNumbered : start.tracker.Numbered) (held : Held start done now)
    (calm : ¬ Strays pair start) : now.outcome pair = start.outcome pair := by
  have calmNow : ¬ Strays pair now := mt (held.strays_iff replies pair).mp calm
  rw [(turn_of_finding held.numbered calmNow).1, (turn_of_finding startNumbered calm).1,
    held.finding replies]

/-- The turn of one more pair. -/
theorem Held.turn (startNumbered : start.tracker.Numbered) (held : Held start done now)
    (calm : ¬ Strays pair start) : Held start (done ++ [pair]) (now.passed pair) := by
  have calmNow : ¬ Strays pair now := mt (held.strays_iff replies pair).mp calm
  have turned := (turn_of_finding held.numbered calmNow).2.of_steady (passed_steady pair now)
  have outcome := held.outcome replies startNumbered calm
  have asked : askedBefore start (done ++ [pair]) =
      askedBefore start done ++ Desk.asks pair start := by
    rw [askedBefore, List.flatMap_append, List.flatMap_singleton]
    rfl
  refine ⟨turned.market.trans held.market, turned.sinks.trans held.sinks, ?_, turned.numbered,
    ?_, ?_⟩
  · rw [passed_fees, held.asks replies, held.fees, asked, FeeSource.afterAsking,
      FeeSource.afterAsking, FeeSource.afterAsking, List.foldl_append]
  · rw [turned.levels, outcome, held.levels, resultsBefore, resultsBefore, List.flatMap_append,
      List.flatMap_singleton, List.foldl_append]
  · rw [turned.counts, outcome, held.counts, List.map_append, List.foldl_append]
    rfl

/-- The pairs of a cycle stray at their turns exactly if they do before the cycle. -/
theorem Held.calm_iff (startNumbered : start.tracker.Numbered) (held : Held start done now) :
    Calm pairs now ↔ ∀ pair ∈ pairs, ¬ Strays pair start := by
  induction pairs generalizing done now with
  | nil => simp [Calm]
  | cons pair rest induction =>
      rw [Calm, List.forall_mem_cons, held.strays_iff replies]
      constructor
      · rintro ⟨first, later⟩
        exact ⟨first, (induction (held.turn replies startNumbered first)).mp later⟩
      · rintro ⟨first, later⟩
        exact ⟨first, (induction (held.turn replies startNumbered first)).mpr later⟩

theorem Held.reached (startNumbered : start.tracker.Numbered) (held : Held start done now)
    (calm : ∀ pair ∈ pairs, ¬ Strays pair start) :
    Held start (done ++ pairs) (Desk.reached pairs now) ∧
      ownResults pairs now = resultsBefore start pairs := by
  induction pairs generalizing done now with
  | nil => exact ⟨by rw [List.append_nil]; exact held, rfl⟩
  | cons pair rest induction =>
      rw [List.forall_mem_cons] at calm
      obtain ⟨later, results⟩ := induction (held.turn replies startNumbered calm.1) calm.2
      rw [List.append_assoc] at later
      refine ⟨later, ?_⟩
      have outcome := held.outcome replies startNumbered calm.1
      rw [Desk.outcome, Desk.outcome] at outcome
      rw [ownResults, results, outcome]
      rfl

end Sideless

/-- A cycle that answers has given every pair the outcome that the pair has before the cycle. With
the pairs in another order the cycle answers as well, with the same results in another order, and
leaves the same fees, counts and marks. The fees, counts and marks before the cycle may be any; that
no mark is a NaN is so after any calls on a tracker, by `Tracker.after_calls_numbered`. -/
theorem cycle_in_any_order (numbered : desk.tracker.Numbered) (sideless : desk.fees.Sideless)
    {first second : List Pair} (permuted : first.Perm second) {results : List SpreadResult}
    (answered : (evaluateAll first).ending desk = (.ok results, next)) :
    ∃ others last, (evaluateAll second).ending desk = (.ok others, last) ∧
      (∀ earlier pair later, first = earlier ++ pair :: later ∨ second = earlier ++ pair :: later →
        (reached earlier desk).outcome pair = desk.outcome pair) ∧
      results.Perm others ∧
      (∀ exchange instrument, next.fees.cache.get? exchange instrument =
        last.fees.cache.get? exchange instrument) ∧
      next.counts = last.counts ∧ next.tracker.NumericallyEqual last.tracker := by
  obtain ⟨reply, replies⟩ := sideless.replies
  have start : Held desk [] desk := .nothing numbered
  have calmFirst : Calm first desk := by
    by_contra stormy
    obtain ⟨earlier, pair, later, rfl, calm, strays⟩ := first_stray stormy
    obtain ⟨failure, ended, -⟩ := cycle_of_strays numbered calm strays later
    rw [answered] at ended
    cases ended
  have calm := (start.calm_iff replies numbered).mp calmFirst
  have calmSecond : ∀ pair ∈ second, ¬ Strays pair desk := fun pair member =>
    calm pair (permuted.mem_iff.mpr member)
  obtain ⟨heldFirst, ownFirst⟩ := start.reached replies numbered calm
  obtain ⟨heldSecond, ownSecond⟩ := start.reached replies numbered calmSecond
  have endedFirst := cycle_of_calm numbered calmFirst
  have endedSecond := cycle_of_calm numbered ((start.calm_iff replies numbered).mpr calmSecond)
  rw [List.nil_append] at heldFirst heldSecond
  rw [ownFirst, answered, Prod.mk.injEq, Except.ok.injEq] at endedFirst
  obtain ⟨rfl, rfl⟩ := endedFirst
  rw [ownSecond] at endedSecond
  have resultsPermuted : (resultsBefore desk first).Perm (resultsBefore desk second) :=
    permuted.flatMap_right _
  refine ⟨_, _, endedSecond, ?_, resultsPermuted, ?_, ?_, ?_⟩
  · intro earlier pair later split
    have members : ∀ other ∈ earlier ++ pair :: later, ¬ Strays other desk := by
      rcases split with rfl | rfl
      · exact calm
      · exact calmSecond
    have held := (start.reached replies numbered fun other member =>
      members other (List.mem_append_left _ member)).1
    exact held.outcome replies numbered (members pair (by simp))
  · intro exchange instrument
    rw [heldFirst.fees, heldSecond.fees]
    exact FeeSource.cache_permuted replies (permuted.flatMap_right _) exchange instrument
  · rw [heldFirst.counts, heldSecond.counts]
    exact (permuted.map _).foldl_eq _
  · apply Tracker.numerically_equal_of_levels heldFirst.numbered heldSecond.numbered
    rw [heldFirst.levels, heldSecond.levels]
    exact Levels.raise_permuted resultsPermuted _

/-- Quotes on three exchanges, and a fetcher that has no fee for one of them. -/
def mixedDesk : Desk where
  quotes := {
    window := { maxAge := .int 5, maxSkew := .int 2 }
    quotes := [
      (("okx", "BTC/USD"),
        some { ask := some (.finite false 20000 (-2)), bid := some (.finite false 19990 (-2)) }),
      (("bybit", "BTC/USD"),
        some { ask := some (.finite false 20060 (-2)), bid := some (.finite false 20050 (-2)) }),
      (("kraken", "BTC/USD"),
        some { ask := some (.finite false 20070 (-2)), bid := some (.finite false 20040 (-2)) })] }
  fees := { fetcher := some fun _ request =>
    if request.exchange = "kraken" then .ok .null else .ok (.text "0.001") }
  outlets := { clock := { wall := 63844891200000000 } }

/-- Two results, an engine error after one of the two fees has been cached, an engine error at the
first fee, and no signal. -/
def mixedPairs : List Pair :=
  [⟨"okx", "bybit", "BTC/USD"⟩, ⟨"okx", "kraken", "BTC/USD"⟩, ⟨"kraken", "bybit", "BTC/USD"⟩,
    ⟨"okx", "mexc", "BTC/USD"⟩, ⟨"bybit", "okx", "BTC/USD"⟩]

theorem mixed_cycle_in_any_order : ∃ results others next last,
    (evaluateAll mixedPairs).ending mixedDesk = (.ok results, next) ∧
      (evaluateAll mixedPairs.reverse).ending mixedDesk = (.ok others, last) ∧
      results.length = 2 ∧ results.Perm others ∧ next.counts = last.counts ∧
      next.tracker.NumericallyEqual last.tracker := by
  have length :
      ((evaluateAll mixedPairs).ending mixedDesk).1.toOption.map List.length = some 2 := by
    decide +kernel
  cases answered : (evaluateAll mixedPairs).ending mixedDesk with
  | mk ended next =>
  rw [answered] at length
  cases ended with
  | error failure => cases length
  | ok results =>
      have numbered : mixedDesk.tracker.Numbered := Tracker.after_calls_numbered []
      have sideless : mixedDesk.fees.Sideless :=
        .inr ⟨_, fun exchange _ => if exchange = "kraken" then .ok .null else .ok (.text "0.001"),
          rfl, fun _ _ => rfl⟩
      obtain ⟨others, last, other, -, permuted, -, counts, marks⟩ :=
        cycle_in_any_order numbered sideless (List.reverse_perm mixedPairs).symm answered
      exact ⟨results, others, next, last, rfl, other, Option.some_inj.mp length, permuted, counts,
        marks⟩

end Desk

end SpreadWatch
