import SpreadWatch.Proofs.Desk.Evaluation
import SpreadWatch.Proofs.Pair

/-!
The books of a desk agree. Over any run of calls, the water marks, the count of results and the
tallies of the sinks all describe one sequence: the results that the evaluations of the run have
produced. Evaluations without a signal and evaluations that fail leave no trace in any of them.
-/

namespace SpreadWatch.Desk

open SpreadWatch.Action

variable {desk next : Desk} {roster : List (Value × Value)} {history : List SpreadResult}

/-! ### Runs of calls -/

/-- A call on a desk or on its sources, or something that happens outside: time passes, and files
and the console change. -/
inductive Call where
  | updateQuote (exchange instrument : String) (quote : Option Quote)
  | setCachedFee (exchange instrument : String) (fee : Value)
  | clearFees
  | evaluate (pair : Pair)
  | evaluateAll (pairs : Option (List Pair))
  | outside (outlets : Outlets)

def cyclePairs (desk : Desk) (pairs : Option (List Pair)) : List Pair :=
  pairs.getD desk.combinations

def Call.after (desk : Desk) : Call → Desk
  | .updateQuote exchange instrument quote =>
      { desk with quotes := desk.quotes.update exchange instrument quote }
  | .setCachedFee exchange instrument fee =>
      ((onFees (FeeSource.store exchange instrument fee)).ending desk).2
  | .clearFees => { desk with fees := desk.fees.clear }
  | .evaluate pair => ((Desk.evaluate pair).ending desk).2
  | .evaluateAll pairs => ((Desk.evaluateAll (desk.cyclePairs pairs)).ending desk).2
  | .outside outlets => { desk with outlets }

/-- The results that the evaluations of a cycle produce. A failure that escapes ends the cycle, and
the results before it have been produced all the same. -/
def cycleResults : List Pair → Desk → List SpreadResult
  | [], _ => []
  | pair :: rest, desk =>
      match (evaluateForCycle pair).ending desk with
      | (.ok found, next) => found.toList ++ cycleResults rest next
      | (.error _, _) => []

def Call.results (desk : Desk) : Call → List SpreadResult
  | .evaluate pair => resultsOf ((Desk.evaluate pair).ending desk).1
  | .evaluateAll pairs => cycleResults (desk.cyclePairs pairs) desk
  | _ => []

def afterCalls (calls : List Call) (desk : Desk) : Desk := calls.foldl Call.after desk

def callResults : List Call → Desk → List SpreadResult
  | [], _ => []
  | call :: rest, desk => call.results desk ++ callResults rest (call.after desk)

/-- A cycle that ends answers with all the results that its evaluations have produced. -/
theorem evaluate_all_answers {pairs : List Pair} {results : List SpreadResult}
    (ended : (evaluateAll pairs).ending desk = (.ok results, next)) :
    results = cycleResults pairs desk := by
  induction pairs generalizing desk next results with
  | nil =>
      cases ended
      rfl
  | cons pair rest induction =>
      rw [evaluateAll, ending_bind] at ended
      rw [cycleResults]
      generalize (evaluateForCycle pair).ending desk = first at ended ⊢
      obtain ⟨failure | found, middle⟩ := first
      · cases ended
      · dsimp only at ended ⊢
        rw [ending_bind] at ended
        cases others : (evaluateAll rest).ending middle with
        | mk other last =>
            rw [others] at ended
            cases other with
            | error failure => cases ended
            | ok later =>
                cases ended
                rw [induction others]

/-! ### The books -/

/-- The books of a desk with certain sinks describe a history of results. -/
structure Ledger (roster : List (Value × Value)) (history : List SpreadResult) (desk : Desk) :
    Prop where
  roster : desk.sinks.map Sink.identity = roster
  marks : Tracker.Tracks history desk.tracker
  results : desk.counts.results = history.length
  sinks : ∀ sink ∈ desk.sinks, sink.Askable ∧
    sink.tally = (history.filter fun result => sink.wants result.pair.instrument).length

/-- The keys of a tracker are the pairs of its history, each once and in order. -/
theorem Ledger.keys (ledger : Ledger roster history desk) :
    desk.tracker.keys = Pair.sort (history.map (·.pair)).dedup := by
  have marks := ledger.marks .minEntry
  apply Pair.sort_eq_of_same_members marks.nodup (List.nodup_dedup _)
  intro pair
  rw [marks.keys, List.mem_dedup, List.mem_map]

structure Fresh (desk : Desk) : Prop where
  tracker : desk.tracker = {}
  results : desk.counts.results = 0
  sinks : ∀ sink ∈ desk.sinks, sink.Askable ∧ sink.tally = 0

theorem Fresh.ledger (fresh : desk.Fresh) :
    Ledger (desk.sinks.map Sink.identity) [] desk := by
  refine ⟨rfl, ?_, fresh.results, fresh.sinks⟩
  rw [fresh.tracker]
  exact Tracker.tracks_nothing

def books (desk : Desk) : Tracker × Nat × List Sink :=
  (desk.tracker, desk.counts.results, desk.sinks)

theorem Ledger.of_books (ledger : Ledger roster history desk) (same : next.books = desk.books) :
    Ledger roster history next := by
  simp only [books, Prod.mk.injEq] at same
  obtain ⟨tracker, results, sinks⟩ := same
  exact ⟨sinks ▸ ledger.roster, tracker ▸ ledger.marks, results ▸ ledger.results,
    sinks ▸ ledger.sinks⟩

theorem Ledger.unchanged (ledger : Ledger roster history desk) (same : next.books = desk.books) :
    Ledger roster (history ++ []) next := by
  rw [List.append_nil]
  exact ledger.of_books same

theorem books_of_steady (same : next.steady = desk.steady) : next.books = desk.books := by
  simp only [steady, Prod.mk.injEq] at same
  obtain ⟨-, -, -, sinks, tracker, counts⟩ := same
  rw [books, books, sinks, tracker, counts]

theorem filters_answer (ledger : Ledger roster history desk) (instrument : String) :
    desk.FiltersAnswer instrument := fun sink member =>
  ⟨_, Sink.accepts_of_askable (ledger.sinks sink member).1 instrument⟩

theorem Settled.ledger {result : SpreadResult} (settled : Settled result desk next)
    (ledger : Ledger roster history desk) (numeric : result.Numeric) :
    Ledger roster (history ++ [result]) next := by
  refine ⟨(Sink.offered_identities settled.sinks).trans ledger.roster, ?_, ?_, ?_⟩
  · obtain ⟨tracker, recorded, tracks⟩ := Tracker.record_tracks ledger.marks numeric
    rw [settled.tracker] at recorded
    cases recorded
    exact tracks
  · rw [settled.counts, List.length_append, ← ledger.results]
    rfl
  · intro sink member
    obtain ⟨lengths, each⟩ := List.forall₂_iff_get.mp settled.sinks
    obtain ⟨index, bound, rfl⟩ := List.getElem_of_mem member
    set old := desk.sinks[index]
    set sink := next.sinks[index]
    have offered : Sink.Offered result old sink := each index (by omega) bound
    have oldMember : old ∈ desk.sinks := List.getElem_mem _
    obtain ⟨askable, tally⟩ := ledger.sinks old oldMember
    have wants : ∀ instrument, sink.wants instrument = old.wants instrument := by
      intro instrument
      rw [Sink.wants, Sink.wants, Sink.accepts, Sink.accepts, offered.instruments]
    refine ⟨?_, ?_⟩
    · rw [Sink.Askable, offered.instruments]
      exact askable
    · simp only [wants]
      rw [offered.tally, tally, List.filter_append, List.length_append, List.filter_singleton]
      cases old.wants result.pair.instrument <;> rfl

/-! ### Every call keeps the books -/

theorem evaluate_keeps_books (ledger : Ledger roster history desk) (pair : Pair)
    (nothing : resultsOf ((evaluate pair).ending desk).1 = []) :
    ((evaluate pair).ending desk).2.books = desk.books := by
  obtain ⟨ended, next, ending, evaluated⟩ := evaluate_ends ledger.marks.numbered pair
  rw [ending] at nothing ⊢
  cases evaluated with
  | result found answer settled => cases nothing
  | noSignal found steady =>
      have same : next.books = desk.countEvaluation.countNoSignal.books := books_of_steady steady
      exact same
  | failed found steady =>
      have same : next.books = desk.countEvaluation.countFailure.books := books_of_steady steady
      exact same
  | stray found other steady =>
      have same : next.books = desk.countEvaluation.books := books_of_steady steady
      exact same
  | refused found refuses counted => exact absurd (filters_answer ledger _) refuses

theorem evaluate_ledger (ledger : Ledger roster history desk) (pair : Pair) :
    Ledger roster (history ++ resultsOf ((evaluate pair).ending desk).1)
      ((evaluate pair).ending desk).2 := by
  have kept := evaluate_keeps_books ledger pair
  obtain ⟨ended, next, ending, evaluated⟩ := evaluate_ends ledger.marks.numbered pair
  rw [ending] at kept ⊢
  cases evaluated with
  | result found answer settled =>
      have begun : Ledger roster history desk.countEvaluation := ledger.of_books rfl
      exact settled.ledger begun (finding_complete found).numeric
  | noSignal => exact ledger.unchanged (kept rfl)
  | failed => exact ledger.unchanged (kept rfl)
  | stray => exact ledger.unchanged (kept rfl)
  | refused => exact ledger.unchanged (kept rfl)

theorem evaluate_for_cycle_ledger (ledger : Ledger roster history desk) (pair : Pair) :
    match (evaluateForCycle pair).ending desk with
    | (.ok found, next) => Ledger roster (history ++ found.toList) next
    | (.error _, next) => Ledger roster history next := by
  have evaluated := evaluate_ledger ledger pair
  obtain ⟨passes, escapes⟩ := evaluate_for_cycle_ending pair desk
  by_cases escaped : Escapes ((evaluate pair).ending desk).1
  · obtain ⟨failure, failed, stray⟩ := escaped
    have nothing : resultsOf (.error failure) = [] := rfl
    rw [failed, nothing, List.append_nil] at evaluated
    rw [escapes failure failed stray]
    exact evaluated
  · obtain ⟨found, next, ended, same, logged⟩ := passes escaped
    rw [← same] at evaluated
    rw [ended]
    exact evaluated.of_books (books_of_steady logged.steady)

theorem evaluate_all_ledger (ledger : Ledger roster history desk) (pairs : List Pair) :
    Ledger roster (history ++ cycleResults pairs desk) ((evaluateAll pairs).ending desk).2 := by
  induction pairs generalizing history desk with
  | nil =>
      rw [cycleResults, List.append_nil]
      exact ledger
  | cons pair rest induction =>
      have first := evaluate_for_cycle_ledger ledger pair
      rw [evaluateAll, ending_bind, cycleResults]
      generalize (evaluateForCycle pair).ending desk = ended at first ⊢
      obtain ⟨failure | found, middle⟩ := ended
      · rw [List.append_nil]
        exact first
      · have later := induction first
        rw [List.append_assoc] at later
        dsimp only
        rw [ending_bind]
        generalize (evaluateAll rest).ending middle = others at later ⊢
        obtain ⟨failure | results, last⟩ := others
        · exact later
        · exact later

theorem call_ledger (ledger : Ledger roster history desk) (call : Call) :
    Ledger roster (history ++ call.results desk) (call.after desk) := by
  cases call with
  | evaluate pair => exact evaluate_ledger ledger pair
  | evaluateAll pairs => exact evaluate_all_ledger ledger _
  | updateQuote exchange instrument quote => exact ledger.unchanged rfl
  | setCachedFee exchange instrument fee => exact ledger.unchanged rfl
  | clearFees => exact ledger.unchanged rfl
  | outside outlets => exact ledger.unchanged rfl

theorem calls_ledger (ledger : Ledger roster history desk) (calls : List Call) :
    Ledger roster (history ++ callResults calls desk) (afterCalls calls desk) := by
  induction calls generalizing history desk with
  | nil =>
      rw [callResults, List.append_nil]
      exact ledger
  | cons call rest induction =>
      have later := induction (call_ledger ledger call)
      rw [List.append_assoc] at later
      exact later

/-- After any calls on a fresh desk, its water marks, its count of results and the tallies of its
sinks describe the results that the evaluations of these calls have produced: the keys are their
pairs in order, the marks are the extrema of their spreads, their number is the count, and each sink
has counted those that its filter lets through. An evaluation without a result would leave all of
this alone. -/
theorem calls_keep_books (calls : List Call) (fresh : desk.Fresh) :
    Ledger (desk.sinks.map Sink.identity) (callResults calls desk) (afterCalls calls desk) ∧
      (afterCalls calls desk).tracker.keys =
        Pair.sort ((callResults calls desk).map (·.pair)).dedup ∧
      ∀ pair, resultsOf ((evaluate pair).ending (afterCalls calls desk)).1 = [] →
        ((evaluate pair).ending (afterCalls calls desk)).2.books =
          (afterCalls calls desk).books := by
  have ledger := calls_ledger fresh.ledger calls
  rw [List.nil_append] at ledger
  exact ⟨ledger, ledger.keys, fun pair nothing => evaluate_keeps_books ledger pair nothing⟩

/-- A desk with two sinks, one that fails at first and one for another instrument. -/
def sampleDesk : Desk where
  quotes := { window := { maxAge := .int 5, maxSkew := .int 2 } }
  fees := { cache := [(("kraken", "BTC/USD"), .finite false 1 (-3)),
    (("bybit", "BTC/USD"), .finite false 1 (-3))] }
  outlets := { clock := { wall := 63844891200000000 } }
  combinations := [⟨"kraken", "bybit", "BTC/USD"⟩]
  sinks := [{ name := .text "all", medium := .rehearsal [.fail] },
    { name := .text "ether", instruments := .list [.text "ETH/USD"], medium := .rehearsal [] }]

def sampleCalls : List Call :=
  [.evaluateAll none,
    .updateQuote "kraken" "BTC/USD"
      (some { ask := some (.finite false 20000 (-2)), bid := some (.finite false 19990 (-2)) }),
    .updateQuote "bybit" "BTC/USD"
      (some { ask := some (.finite false 20060 (-2)), bid := some (.finite false 20050 (-2)) }),
    .evaluate ⟨"kraken", "bybit", "BTC/USD"⟩]

theorem sample_calls_keep_books :
    (callResults sampleCalls sampleDesk).map (fun result => (result.entry, result.exit)) =
        [(some (.finite false 49700 (-8)), some (.finite false 551076 (-8)))] ∧
      Ledger (sampleDesk.sinks.map Sink.identity) (callResults sampleCalls sampleDesk)
        (afterCalls sampleCalls sampleDesk) := by
  have fresh : sampleDesk.Fresh := by
    refine ⟨rfl, rfl, ?_⟩
    intro sink member
    simp only [sampleDesk, List.mem_cons, List.not_mem_nil, or_false] at member
    rcases member with rfl | rfl
    · exact ⟨.inl rfl, rfl⟩
    · exact ⟨.inr ⟨["ETH/USD"], rfl⟩, rfl⟩
  exact ⟨by decide +kernel, (calls_keep_books sampleCalls fresh).1⟩

def quotedDesk : Desk := afterCalls ((sampleCalls.drop 1).take 2) sampleDesk

def quotedResult : SpreadResult where
  pair := ⟨"kraken", "bybit", "BTC/USD"⟩
  longQuote :=
    some { ask := some (.finite false 20000 (-2)), bid := some (.finite false 19990 (-2)) }
  shortQuote :=
    some { ask := some (.finite false 20060 (-2)), bid := some (.finite false 20050 (-2)) }
  entry := some (.finite false 49700 (-8))
  exit := some (.finite false 551076 (-8))

end SpreadWatch.Desk
