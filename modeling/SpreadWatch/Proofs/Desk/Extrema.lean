import SpreadWatch.Proofs.Desk.Ledger
import SpreadWatch.Proofs.Spread.Floor

/-!
The water marks of a desk that nobody else writes to. Every result that the desk produces is
recorded, also if a sink cannot be asked about it afterwards. Since no spread is below minus one,
the value that a maximum starts from is never above a spread, so a maximum is the greatest of the
spreads themselves; a minimum may still be the one that it starts from.
-/

namespace SpreadWatch

/-! ### Bounds of spreads -/

def Mark.spreads (mark : Mark) (history : List SpreadResult) (pair : Pair) : Set ℚ :=
  {q | ∃ result ∈ history, result.pair = pair ∧
    ∃ spread, mark.spreadOf result = some spread ∧ spread.toRat = q}

/-- A maximum is the greatest of the spreads; a minimum is the least of them and one. -/
def Mark.Bounds (mark : Mark) (spreads : Set ℚ) (q : ℚ) : Prop :=
  match mark with
  | .minEntry | .minExit => IsLeast (insert 1 spreads) q
  | .maxEntry | .maxExit => IsGreatest spreads q

structure SpreadResult.Floored (result : SpreadResult) : Prop where
  entry : ∃ spread, result.entry = some spread ∧ Spread.Floored spread
  exit : ∃ spread, result.exit = some spread ∧ Spread.Floored spread

namespace SpreadResult.Floored

variable {result : SpreadResult}

theorem spread (floored : result.Floored) (mark : Mark) :
    ∃ spread, mark.spreadOf result = some spread ∧ Spread.Floored spread := by
  cases mark with
  | minEntry | maxEntry => exact floored.entry
  | minExit | maxExit => exact floored.exit

theorem numeric (floored : result.Floored) : result.Numeric := by
  obtain ⟨entry, entryIs, entryFloored⟩ := floored.entry
  obtain ⟨exit, exitIs, exitFloored⟩ := floored.exit
  exact ⟨⟨entry, entryIs, Decimal.number_of_finite entryFloored.finite⟩,
    exit, exitIs, Decimal.number_of_finite exitFloored.finite⟩

end SpreadResult.Floored

namespace Decimal

theorem quantity_of_finite {d : Decimal} (finite : d.isFinite = true) :
    d.quantity? = some (d.toRat : Quantity) := by
  cases d with
  | finite => rfl
  | infinite => cases finite
  | nan => cases finite

theorem finite_of_quantity {d : Decimal} {q : ℚ} (quantity : d.quantity? = some (q : Quantity)) :
    d.isFinite = true ∧ d.toRat = q := by
  cases d with
  | finite negative coefficient exponent =>
      exact ⟨rfl, WithBotTop.coe_injective (Option.some.inj quantity)⟩
  | infinite negative =>
      have same : (if negative then ⊥ else ⊤) = (q : Quantity) := Option.some.inj quantity
      cases negative with
      | false => exact absurd same.symm (WithBotTop.coe_ne_top q)
      | true => exact absurd same.symm (WithBotTop.coe_ne_bot q)
  | nan => cases quantity

end Decimal

namespace Mark

variable {mark : Mark} {history : List SpreadResult} {pair : Pair} {table : MarkTable}
  {value : Decimal}

def first : Mark → ℚ
  | .minEntry | .minExit => 1
  | .maxEntry | .maxExit => -1

theorem seen_of_floored (floored : ∀ result ∈ history, result.Floored) (mark : Mark)
    (pair : Pair) : mark.seen history pair =
      (fun q : ℚ => (q : Quantity)) '' insert mark.first (mark.spreads history pair) := by
  have origin : mark.origin = (mark.first : Quantity) := by cases mark <;> rfl
  rw [Set.image_insert_eq, seen, origin]
  congr 1
  ext q
  constructor
  · rintro ⟨result, member, same, quantity⟩
    obtain ⟨spread, given, fine⟩ := (floored result member).spread mark
    rw [quantityOf, given, Option.bind_some, Decimal.quantity_of_finite fine.finite] at quantity
    exact ⟨spread.toRat, ⟨result, member, same, spread, given, rfl⟩, Option.some.inj quantity⟩
  · rintro ⟨-, ⟨result, member, same, spread, given, rfl⟩, rfl⟩
    obtain ⟨other, otherGiven, fine⟩ := (floored result member).spread mark
    cases given.symm.trans otherGiven
    refine ⟨result, member, same, ?_⟩
    rw [quantityOf, given, Option.bind_some, Decimal.quantity_of_finite fine.finite]

theorem spreads_ge (floored : ∀ result ∈ history, result.Floored) {q : ℚ}
    (seen : q ∈ mark.spreads history pair) : -1 ≤ q := by
  obtain ⟨result, member, -, spread, given, rfl⟩ := seen
  obtain ⟨other, otherGiven, fine⟩ := (floored result member).spread mark
  cases given.symm.trans otherGiven
  exact fine.floor

theorem spreads_nonempty (floored : ∀ result ∈ history, result.Floored)
    (known : ∃ result ∈ history, result.pair = pair) : (mark.spreads history pair).Nonempty := by
  obtain ⟨result, member, same⟩ := known
  obtain ⟨spread, given, -⟩ := (floored result member).spread mark
  exact ⟨spread.toRat, result, member, same, spread, given, rfl⟩

/-- The value that a maximum starts from makes no difference: no spread is below it. -/
theorem greatest_of_floored {spreads : Set ℚ} {q : ℚ} (above : ∀ p ∈ spreads, -1 ≤ p)
    (nonempty : spreads.Nonempty) (greatest : IsGreatest (insert (-1) spreads) q) :
    IsGreatest spreads q := by
  obtain ⟨p, seen⟩ := nonempty
  refine ⟨?_, fun other member => greatest.2 (Set.mem_insert_of_mem _ member)⟩
  rcases greatest.1 with rfl | member
  · have same : p = -1 := le_antisymm (greatest.2 (Set.mem_insert_of_mem _ seen)) (above p seen)
    exact same ▸ seen
  · exact member

theorem bounds_of_tracks (tracks : mark.Tracks history table)
    (floored : ∀ result ∈ history, result.Floored) (found : table.get? pair = some value) :
    value.isFinite = true ∧ mark.Bounds (mark.spreads history pair) value.toRat := by
  obtain ⟨q, quantity, extreme⟩ := tracks.marks pair value found
  have known := (tracks.keys pair).mp ((PairTable.mem_keys_iff table pair).mpr ⟨value, found⟩)
  have nonempty : (mark.spreads history pair).Nonempty := spreads_nonempty floored known
  have above : ∀ p ∈ mark.spreads history pair, -1 ≤ p := fun p => spreads_ge floored
  rw [seen_of_floored floored] at extreme
  have least : ∀ {spreads : Set ℚ}, IsLeast ((fun q : ℚ => (q : Quantity)) '' spreads) q →
      value.isFinite = true ∧ IsLeast spreads value.toRat := by
    rintro spreads ⟨⟨r, member, rfl⟩, lower⟩
    obtain ⟨finite, rfl⟩ := Decimal.finite_of_quantity quantity
    exact ⟨finite, member, fun other seen => WithBotTop.coe_le_coe.mp
      (lower (Set.mem_image_of_mem _ seen))⟩
  have greatest : ∀ {spreads : Set ℚ}, IsGreatest ((fun q : ℚ => (q : Quantity)) '' spreads) q →
      value.isFinite = true ∧ IsGreatest spreads value.toRat := by
    rintro spreads ⟨⟨r, member, rfl⟩, upper⟩
    obtain ⟨finite, rfl⟩ := Decimal.finite_of_quantity quantity
    exact ⟨finite, member, fun other seen => WithBotTop.coe_le_coe.mp
      (upper (Set.mem_image_of_mem _ seen))⟩
  cases mark with
  | minEntry | minExit => exact least extreme
  | maxEntry | maxExit => exact (greatest extreme).imp_right (greatest_of_floored above nonempty)

end Mark

namespace Desk

open SpreadWatch.Action

variable {desk next : Desk} {pair : Pair} {history : List SpreadResult}

/-! ### Produced results -/

/-- The result that an evaluation of a pair produces, whether or not the filters of all sinks can be
asked about it afterwards. -/
def produced (pair : Pair) (desk : Desk) : List SpreadResult :=
  match desk.finding pair with
  | .ok (some result) => [result]
  | _ => []

theorem produced_of_found {result : SpreadResult} (found : desk.finding pair = .ok (some result)) :
    desk.produced pair = [result] := by
  rw [produced, found]

theorem found_of_produced {result : SpreadResult} (member : result ∈ desk.produced pair) :
    desk.finding pair = .ok (some result) := by
  rw [produced] at member
  split at member
  · rename_i found
    rw [List.mem_singleton.mp member]
    exact found
  · cases member

theorem result_from_floored {fees : FeeSource} {long short : Quote} {result : SpreadResult}
    (found : resultFrom fees pair long short = .ok result) : result.Floored := by
  obtain ⟨_, _, entry, exit, computed, rfl⟩ := result_from_spreads found
  obtain ⟨opened, closed⟩ := legs_of_spreads computed
  exact ⟨⟨entry, rfl, Spread.spread_floored opened⟩, exit, rfl, Spread.spread_floored closed⟩

theorem produced_floored {result : SpreadResult} (member : result ∈ desk.produced pair) :
    result.Floored := by
  obtain ⟨long, short, from_⟩ := result_from_of_finding (found_of_produced member)
  exact result_from_floored from_

/-- What an evaluation answers with is what it produces, unless a sink cannot be asked. -/
theorem results_of_evaluate (numbered : desk.tracker.Numbered) (pair : Pair)
    (answer : desk.FiltersAnswer pair.instrument) :
    resultsOf ((evaluate pair).ending desk).1 = desk.produced pair := by
  have answered : ((evaluate pair).ending desk).1 = outcomeOf pair (desk.finding pair) :=
    outcome_of_finding numbered fun _ _ => answer
  rw [answered, produced]
  rcases desk.finding pair with failure | _ | result <;> rfl

/-! ### What one evaluation does to the marks -/

/-- The water marks describe a history of results with spreads as they are computed. -/
structure Marked (history : List SpreadResult) (desk : Desk) : Prop where
  tracks : Tracker.Tracks history desk.tracker
  floored : ∀ result ∈ history, result.Floored

theorem Marked.of_tracker (marked : Marked history desk) (same : next.tracker = desk.tracker) :
    Marked history next := ⟨same ▸ marked.tracks, marked.floored⟩

theorem marked_of_empty (empty : desk.tracker = {}) : Marked [] desk := by
  refine ⟨?_, by simp⟩
  rw [empty]
  exact Tracker.tracks_nothing

theorem Marked.record {result : SpreadResult} (marked : Marked history desk)
    (floored : result.Floored)
    (recorded : (Tracker.record result).ending desk.tracker = (.ok (), next.tracker)) :
    Marked (history ++ [result]) next := by
  obtain ⟨tracker, same, tracks⟩ := Tracker.record_tracks marked.tracks floored.numeric
  rw [recorded] at same
  cases same
  refine ⟨tracks, ?_⟩
  intro other member
  rcases List.mem_append.mp member with earlier | last
  · exact marked.floored other earlier
  · exact List.mem_singleton.mp last ▸ floored

/-- An evaluation records exactly what it produces, however it ends. -/
theorem evaluate_marked (marked : Marked history desk) (pair : Pair) :
    Marked (history ++ desk.produced pair) ((evaluate pair).ending desk).2 := by
  obtain ⟨ended, next, ending, evaluated⟩ := evaluate_ends marked.tracks.numbered pair
  rw [ending]
  have kept : ∀ other : Desk, other.tracker = desk.tracker → next.steady = other.steady →
      desk.produced pair = [] → Marked (history ++ desk.produced pair) next := by
    intro other same steady nothing
    have tracker : next.tracker = other.tracker := congrArg (·.2.2.2.2.1) steady
    rw [nothing, List.append_nil]
    exact marked.of_tracker (tracker.trans same)
  have recorded : ∀ result, desk.finding pair = .ok (some result) →
      TakenIn result desk.countEvaluation next →
      Marked (history ++ desk.produced pair) next := by
    intro result found taken
    have one := produced_of_found found
    have floored : result.Floored := produced_floored (by rw [one]; exact List.mem_singleton_self _)
    rw [one]
    exact marked.record floored taken.tracker
  cases evaluated with
  | result found answer settled => exact recorded _ found settled.toTakenIn
  | refused found refuses taken => exact recorded _ found taken
  | noSignal found steady =>
      exact kept desk.countEvaluation.countNoSignal rfl steady (by rw [produced, found])
  | failed found steady =>
      exact kept desk.countEvaluation.countFailure rfl steady (by rw [produced, found])
  | stray found other steady =>
      exact kept desk.countEvaluation rfl steady (by rw [produced, found])

/-! ### Runs -/

/-- The results that the evaluations of a cycle produce, up to the one whose failure escapes. -/
def cycleProduced : List Pair → Desk → List SpreadResult
  | [], _ => []
  | pair :: rest, desk =>
      desk.produced pair ++
        match (evaluateForCycle pair).ending desk with
        | (.ok _, next) => cycleProduced rest next
        | (.error _, _) => []

/-- What happens to a desk: it is called, its marks are reset, or anything else changes, but not its
marks, which nobody else writes to. -/
inductive Move where
  | own (call : Call)
  | reset
  | elsewhere (change : Desk → Desk)

namespace Move

def after (desk : Desk) : Move → Desk
  | .own call => call.after desk
  | .reset => ((onTracker Tracker.reset).ending desk).2
  | .elsewhere change => { change desk with tracker := desk.tracker }

def extend (history : List SpreadResult) (desk : Desk) : Move → List SpreadResult
  | .own (.evaluate pair) => history ++ desk.produced pair
  | .own (.evaluateAll pairs) => history ++ cycleProduced (desk.cyclePairs pairs) desk
  | .own _ => history
  | .reset => []
  | .elsewhere _ => history

end Move

def afterMoves (moves : List Move) (desk : Desk) : Desk := moves.foldl Move.after desk

def producedIn (history : List SpreadResult) : List Move → Desk → List SpreadResult
  | [], _ => history
  | move :: rest, desk => producedIn (move.extend history desk) rest (move.after desk)

theorem evaluate_for_cycle_tracker (pair : Pair) (desk : Desk) :
    ((evaluateForCycle pair).ending desk).2.tracker =
      ((evaluate pair).ending desk).2.tracker := by
  obtain ⟨passes, escapes⟩ := evaluate_for_cycle_ending pair desk
  by_cases escaped : Escapes ((evaluate pair).ending desk).1
  · obtain ⟨failure, failed, stray⟩ := escaped
    rw [escapes failure failed stray]
  · obtain ⟨found, next, ended, -, logged⟩ := passes escaped
    rw [ended]
    exact congrArg (·.2.2.2.2.1) logged.steady

theorem evaluate_all_marked (marked : Marked history desk) (pairs : List Pair) :
    Marked (history ++ cycleProduced pairs desk) ((evaluateAll pairs).ending desk).2 := by
  induction pairs generalizing history desk with
  | nil =>
      rw [cycleProduced, List.append_nil]
      exact marked
  | cons pair rest induction =>
      have first := (evaluate_marked marked pair).of_tracker
        (evaluate_for_cycle_tracker pair desk)
      rw [evaluateAll, ending_bind, cycleProduced]
      generalize (evaluateForCycle pair).ending desk = ended at first ⊢
      obtain ⟨failure | found, middle⟩ := ended
      · rw [List.append_nil]
        exact first
      · have later := induction first
        rw [List.append_assoc] at later
        dsimp only
        rw [ending_bind]
        generalize (evaluateAll rest).ending middle = others at later ⊢
        obtain ⟨failure | results, last⟩ := others
        · exact later
        · exact later

theorem move_marked (marked : Marked history desk) (move : Move) :
    Marked (move.extend history desk) (move.after desk) := by
  cases move with
  | reset => exact marked_of_empty rfl
  | elsewhere change => exact marked.of_tracker rfl
  | own call =>
      cases call with
      | evaluate pair => exact evaluate_marked marked pair
      | evaluateAll pairs => exact evaluate_all_marked marked _
      | updateQuote exchange instrument quote => exact marked.of_tracker rfl
      | setCachedFee exchange instrument fee => exact marked.of_tracker rfl
      | clearFees => exact marked.of_tracker rfl
      | outside outlets => exact marked.of_tracker rfl

theorem moves_marked (marked : Marked history desk) (moves : List Move) :
    Marked (producedIn history moves desk) (afterMoves moves desk) := by
  induction moves generalizing history desk with
  | nil => exact marked
  | cons move rest induction => exact induction (move_marked marked move)

/-- Whatever the prices and fees, a spread has eight places and is not below minus one. So after any
moves of a desk that starts without marks, a pair has marks if results have been produced for it
since the last reset, each maximum is the greatest spread among these results, and each minimum is
the least of them and one. What an evaluation answers with is what it produces, unless the filter of
a sink cannot be asked. -/
theorem marks_bound_produced_spreads (moves : List Move) (empty : desk.tracker = {}) :
    (∀ (side : Spread.Side) (longPrice longFee shortPrice shortFee : Option Decimal)
      (value : Decimal), Spread.spread side longPrice longFee shortPrice shortFee = .ok value →
        (∃ negative coefficient, value = .finite negative coefficient (-8)) ∧
          -1 ≤ value.toRat) ∧
    (∀ (mark : Mark) (pair : Pair),
      let marks := (afterMoves moves desk).tracker.table mark
      let results := producedIn [] moves desk
      ((∃ value, marks.get? pair = some value) ↔ ∃ result ∈ results, result.pair = pair) ∧
        ∀ value, marks.get? pair = some value →
          value.isFinite = true ∧ mark.Bounds (mark.spreads results pair) value.toRat) ∧
    ∀ pair : Pair, (afterMoves moves desk).FiltersAnswer pair.instrument →
      resultsOf ((evaluate pair).ending (afterMoves moves desk)).1 =
        (afterMoves moves desk).produced pair := by
  have marked := moves_marked (marked_of_empty empty) moves
  refine ⟨?_, ?_, ?_⟩
  · intro side longPrice longFee shortPrice shortFee value answered
    have floored := Spread.spread_floored answered
    exact ⟨floored.places, floored.floor⟩
  · intro mark pair
    have tracks := marked.tracks mark
    refine ⟨?_, fun value found => Mark.bounds_of_tracks tracks marked.floored found⟩
    rw [← PairTable.mem_keys_iff, tracks.keys]
  · intro pair answer
    exact results_of_evaluate marked.tracks.numbered pair answer

/-- The marks are reset, the sinks are taken away, and then next to nothing is bid on the short
side, so the maximum keeps the value that it starts from, which is also the spread. -/
def sampleMoves : List Move :=
  sampleCalls.map .own ++ [.reset, .elsewhere fun desk => { desk with sinks := [] },
    .own (.updateQuote "bybit" "BTC/USD"
      (some { ask := some (.finite false 1 (-2)), bid := some (.finite false 1 (-9)) })),
    .own (.evaluate ⟨"kraken", "bybit", "BTC/USD"⟩)]

theorem sample_marks_bound : sampleDesk.tracker = {} ∧
    (afterMoves sampleMoves sampleDesk).tracker.maxEntry.get? ⟨"kraken", "bybit", "BTC/USD"⟩ =
      some (.finite true 1 0) ∧
    IsGreatest (Mark.maxEntry.spreads (producedIn [] sampleMoves sampleDesk)
      ⟨"kraken", "bybit", "BTC/USD"⟩) (-1) := by
  have known : (afterMoves sampleMoves sampleDesk).tracker.maxEntry.get?
      ⟨"kraken", "bybit", "BTC/USD"⟩ = some (.finite true 1 0) := by
    decide +kernel
  obtain ⟨-, marks, -⟩ :=
    marks_bound_produced_spreads sampleMoves (rfl : sampleDesk.tracker = {})
  obtain ⟨-, greatest⟩ := (marks .maxEntry ⟨"kraken", "bybit", "BTC/USD"⟩).2 _ known
  refine ⟨rfl, known, ?_⟩
  have value : (Decimal.finite true 1 0).toRat = -1 := by
    norm_num [Decimal.to_rat_finite]
  rwa [value] at greatest

end Desk

end SpreadWatch
