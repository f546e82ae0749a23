import SpreadWatch.Proofs.Desk.Stray

/-!
Cycles and failures. A cycle passes over a pair whose evaluation ends in an engine error, so that
such a pair never keeps a later one from being evaluated. Other failures escape from the cycle and
end it: the first pair that fails in such a way is the last one to be evaluated.
-/

namespace SpreadWatch.Desk

open SpreadWatch.Action

variable {desk next : Desk} {pair : Pair}

def passed (desk : Desk) (pair : Pair) : Desk := ((evaluateForCycle pair).ending desk).2

def reached (pairs : List Pair) (desk : Desk) : Desk := pairs.foldl passed desk

/-- The results of the pairs whose own evaluation succeeds, each at its turn. -/
def ownResults : List Pair → Desk → List SpreadResult
  | [], _ => []
  | pair :: rest, desk =>
      resultsOf ((evaluate pair).ending desk).1 ++ ownResults rest (desk.passed pair)

def Calm : List Pair → Desk → Prop
  | [], _ => True
  | pair :: rest, desk => ¬ Strays pair desk ∧ Calm rest (desk.passed pair)

theorem turn_of_calm (numbered : desk.tracker.Numbered) (calm : ¬ Strays pair desk) :
    ∃ found, (evaluateForCycle pair).ending desk = (.ok found, desk.passed pair) ∧
      found.toList = resultsOf ((evaluate pair).ending desk).1 := by
  have held : ¬ Escapes ((evaluate pair).ending desk).1 := by
    rw [escapes_iff_strays numbered]
    exact calm
  obtain ⟨found, next, ended, same, -⟩ := (evaluate_for_cycle_ending pair desk).1 held
  exact ⟨found, by rw [passed, ended], same⟩

theorem turn_of_strays (numbered : desk.tracker.Numbered) (strays : Strays pair desk) :
    ∃ failure, (evaluateForCycle pair).ending desk = (.error failure, desk.passed pair) ∧
      Stray failure := by
  obtain ⟨failure, failed, stray⟩ := (escapes_iff_strays numbered pair).mpr strays
  have ended := (evaluate_for_cycle_ending pair desk).2 failure failed stray
  exact ⟨failure, by rw [passed, ended], stray⟩

/-- What a turn leaves is what the evaluation leaves, but for the log. -/
theorem passed_steady (pair : Pair) (desk : Desk) :
    (desk.passed pair).steady = ((evaluate pair).ending desk).2.steady := by
  obtain ⟨passes, escapes⟩ := evaluate_for_cycle_ending pair desk
  by_cases escaped : Escapes ((evaluate pair).ending desk).1
  · obtain ⟨failure, failed, stray⟩ := escaped
    rw [passed, escapes failure failed stray]
  · obtain ⟨found, next, ended, -, logged⟩ := passes escaped
    rw [passed, ended]
    exact logged.steady

theorem passed_numbered (numbered : desk.tracker.Numbered) (pair : Pair) :
    (desk.passed pair).tracker.Numbered := by
  have tracker : (desk.passed pair).tracker = ((evaluate pair).ending desk).2.tracker :=
    congrArg (·.2.2.2.2.1) (passed_steady pair desk)
  rw [tracker]
  exact evaluate_numbered numbered pair

theorem reached_counts (numbered : desk.tracker.Numbered) (pairs : List Pair) :
    (reached pairs desk).counts.evaluations = desk.counts.evaluations + pairs.length := by
  induction pairs generalizing desk with
  | nil => rfl
  | cons pair rest induction =>
      have counts := counts_of_steady (passed_steady pair desk)
      have later := induction (passed_numbered numbered pair)
      rw [counts, evaluate_counts numbered pair] at later
      rw [reached, List.foldl_cons, ← reached, later, List.length_cons]
      omega

theorem cycle_of_calm (numbered : desk.tracker.Numbered) {pairs : List Pair}
    (calm : Calm pairs desk) :
    (evaluateAll pairs).ending desk = (.ok (ownResults pairs desk), reached pairs desk) := by
  induction pairs generalizing desk with
  | nil => rfl
  | cons pair rest induction =>
      obtain ⟨found, ended, same⟩ := turn_of_calm numbered calm.1
      have later := induction (passed_numbered numbered pair) calm.2
      rw [evaluateAll, ending_bind_ok ended, ending_bind_ok later, ownResults, ← same]
      rfl

theorem cycle_of_strays (numbered : desk.tracker.Numbered) {earlier : List Pair}
    (calm : Calm earlier desk) (strays : Strays pair (reached earlier desk)) (later : List Pair) :
    ∃ failure, (evaluateAll (earlier ++ pair :: later)).ending desk =
      (.error failure, reached (earlier ++ [pair]) desk) ∧ Stray failure := by
  induction earlier generalizing desk with
  | nil =>
      obtain ⟨failure, ended, stray⟩ := turn_of_strays numbered strays
      refine ⟨failure, ?_, stray⟩
      rw [List.nil_append, evaluateAll, ending_bind_error ended]
      rfl
  | cons first rest induction =>
      obtain ⟨found, ended, -⟩ := turn_of_calm numbered calm.1
      obtain ⟨failure, failed, stray⟩ :=
        induction (passed_numbered numbered first) calm.2 strays
      refine ⟨failure, ?_, stray⟩
      rw [List.cons_append, evaluateAll, ending_bind_ok ended, ending_bind_error failed]
      rfl

theorem first_stray {pairs : List Pair} (stormy : ¬ Calm pairs desk) :
    ∃ earlier pair later, pairs = earlier ++ pair :: later ∧ Calm earlier desk ∧
      Strays pair (reached earlier desk) := by
  induction pairs generalizing desk with
  | nil => exact absurd trivial stormy
  | cons first rest induction =>
      by_cases strays : Strays first desk
      · exact ⟨[], first, rest, rfl, trivial, strays⟩
      · have stormyRest : ¬ Calm rest (desk.passed first) := fun calm => stormy ⟨strays, calm⟩
        obtain ⟨earlier, pair, later, rfl, calm, found⟩ := induction stormyRest
        exact ⟨first :: earlier, pair, later, rfl, ⟨strays, calm⟩, found⟩

/-- A cycle gives every pair its turn, in order, and answers with the results of the pairs whose own
evaluation succeeds, exactly if no pair strays at its turn. Otherwise it ends with the failure of
the first pair that strays, and the pairs behind it are not evaluated. -/
theorem cycle_isolates_iff (numbered : desk.tracker.Numbered) (pairs : List Pair) :
    ((evaluateAll pairs).ending desk = (.ok (ownResults pairs desk), reached pairs desk) ∧
        (reached pairs desk).counts.evaluations = desk.counts.evaluations + pairs.length ↔
      Calm pairs desk) ∧
    (¬ Calm pairs desk → ∃ earlier pair later failure, pairs = earlier ++ pair :: later ∧
      Calm earlier desk ∧ Strays pair (reached earlier desk) ∧ Stray failure ∧
      (evaluateAll pairs).ending desk = (.error failure, reached (earlier ++ [pair]) desk) ∧
      (reached (earlier ++ [pair]) desk).counts.evaluations =
        desk.counts.evaluations + earlier.length + 1) := by
  have stopped : ¬ Calm pairs desk → ∃ earlier pair later failure,
      pairs = earlier ++ pair :: later ∧ Calm earlier desk ∧ Strays pair (reached earlier desk) ∧
      Stray failure ∧
      (evaluateAll pairs).ending desk = (.error failure, reached (earlier ++ [pair]) desk) ∧
      (reached (earlier ++ [pair]) desk).counts.evaluations =
        desk.counts.evaluations + earlier.length + 1 := by
    intro stormy
    obtain ⟨earlier, pair, later, rfl, calm, strays⟩ := first_stray stormy
    obtain ⟨failure, ended, stray⟩ := cycle_of_strays numbered calm strays later
    refine ⟨earlier, pair, later, failure, rfl, calm, strays, stray, ended, ?_⟩
    rw [reached_counts numbered, List.length_append, List.length_singleton]
    omega
  refine ⟨⟨?_, fun calm => ⟨cycle_of_calm numbered calm, reached_counts numbered pairs⟩⟩, stopped⟩
  rintro ⟨answered, -⟩
  by_contra stormy
  obtain ⟨earlier, pair, later, failure, -, -, -, -, ended, -⟩ := stopped stormy
  rw [answered] at ended
  cases ended

/-- Two pairs with fees and fresh quotes. One of the asks is a NaN. -/
def spoiledDesk : Desk where
  quotes := {
    window := { maxAge := .int 5, maxSkew := .int 2 }
    quotes := [
      (("kraken", "BTC/USD"),
        some { ask := some (.nan false false 0), bid := some (.finite false 19990 (-2)) }),
      (("bybit", "BTC/USD"),
        some { ask := some (.finite false 20060 (-2)), bid := some (.finite false 20050 (-2)) }),
      (("okx", "BTC/USD"),
        some { ask := some (.finite false 20000 (-2)), bid := some (.finite false 19990 (-2)) })] }
  fees := { cache := [(("kraken", "BTC/USD"), .finite false 1 (-3)),
    (("bybit", "BTC/USD"), .finite false 1 (-3)), (("okx", "BTC/USD"), .finite false 1 (-3))] }
  outlets := { clock := { wall := 63844891200000000 } }

def spoiledPairs : List Pair := [⟨"kraken", "bybit", "BTC/USD"⟩, ⟨"okx", "bybit", "BTC/USD"⟩]

theorem spoiled_pairs_stray :
    spoiledDesk.tracker.Numbered ∧ ¬ Calm spoiledPairs spoiledDesk := by
  have numbered : spoiledDesk.tracker.Numbered := Tracker.tracks_nothing.numbered
  refine ⟨numbered, fun calm => ?_⟩
  have answered := ((cycle_isolates_iff numbered spoiledPairs).1.mpr calm).1
  have failed : ((evaluateAll spoiledPairs).ending spoiledDesk).1.toOption = none := by
    decide +kernel
  rw [answered] at failed
  cases failed

/-- The cycle ends with the signal over the NaN. The second pair is not evaluated, although its own
evaluation, at its turn, has a result. -/
theorem spoiled_cycle_fails :
    (match ((evaluateAll spoiledPairs).ending spoiledDesk).1 with
      | .error (.decimal signal) => some signal
      | _ => none) = some .invalidOperation ∧
    ((evaluateAll spoiledPairs).ending spoiledDesk).2.counts.evaluations = 1 ∧
    (ownResults spoiledPairs spoiledDesk).map (·.pair) = [⟨"okx", "bybit", "BTC/USD"⟩] := by
  decide +kernel

end SpreadWatch.Desk
