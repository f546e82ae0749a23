import SpreadWatch.Proofs.Desk.Cycle
import SpreadWatch.Proofs.Desk.Ledger

/-!
What the counts of a desk account for. Every evaluation is counted once when it begins, and once
more as it ends: as a result, as no signal or as a failure. An evaluation is missing from the second
count exactly if it ends before it has a result, with a failure that is no engine error. So the two
counts agree over a run exactly if no evaluation of the run has ended in this way.
-/

namespace SpreadWatch

/-- The evaluations whose end has been counted. -/
def Counts.accounted (counts : Counts) : Nat :=
  counts.results + counts.noSignals + counts.failures

namespace Desk

open SpreadWatch.Action
open SpreadWatch.Spread (Legs)

variable {desk next : Desk} {pair : Pair}

/-! ### One evaluation -/

/-- Why the end of an evaluation is not counted: the age of a quote cannot be told, or the decimal
arithmetic has no answer for a spread. -/
inductive Unaccounted (pair : Pair) (desk : Desk) : Prop
  | age {long short : Option Quote}
      (longAt : desk.quotes.fetch pair.long pair.instrument = .ok long)
      (shortAt : desk.quotes.fetch pair.short pair.instrument = .ok short)
      (unknown : desk.AgeUnknown long ∨ desk.AgeUnknown short)
  | arithmetic {long short : Quote} {longFee shortFee : Decimal} {entry exit : Legs}
      (ready : Ready pair desk long short longFee shortFee)
      (legs : legsOf? long short longFee shortFee = some (entry, exit))
      (unanswered : entry.Unanswered .entry ∨ entry.Answered .entry ∧ exit.Unanswered .exit)

theorem unaccounted_iff (pair : Pair) (desk : Desk) :
    Unaccounted pair desk ↔ ∃ failure, desk.finding pair = .error failure ∧ Stray failure := by
  constructor
  · intro unaccounted
    cases unaccounted with
    | age longAt shortAt unknown => exact finding_of_age_unknown longAt shortAt unknown
    | arithmetic ready legs unanswered =>
        obtain ⟨signal, failed⟩ := (spreads_signal_iff legs).mpr unanswered
        exact ⟨.decimal signal, by rw [finding_of_ready ready, failed]; rfl, rfl⟩
  · rintro ⟨failure, found, stray⟩
    cases strays_of_failure (finding_found pair desk) found stray with
    | age longAt shortAt unknown => exact .age longAt shortAt unknown
    | arithmetic ready legs unanswered => exact .arithmetic ready legs unanswered
    | filter ready legs answered =>
        obtain ⟨spreads, computed⟩ := (spreads_answer_iff legs).mpr answered
        rw [finding_of_ready ready, computed] at found
        cases found

theorem evaluate_unaccounted (numbered : desk.tracker.Numbered)
    (unaccounted : Unaccounted pair desk) :
    ((evaluate pair).ending desk).2.counts.accounted = desk.counts.accounted := by
  obtain ⟨failure, found, stray⟩ := (unaccounted_iff pair desk).mp unaccounted
  obtain ⟨ended, next, ending, evaluated⟩ := evaluate_ends numbered pair
  rw [ending]
  cases evaluated with
  | stray finding other steady => rw [counts_of_steady steady]; rfl
  | failed finding steady =>
      rw [found] at finding
      cases finding
      cases stray
  | result finding => rw [found] at finding; cases finding
  | noSignal finding => rw [found] at finding; cases finding
  | refused finding => rw [found] at finding; cases finding

theorem evaluate_accounted (numbered : desk.tracker.Numbered)
    (accounted : ¬ Unaccounted pair desk) :
    ((evaluate pair).ending desk).2.counts.accounted = desk.counts.accounted + 1 := by
  obtain ⟨ended, next, ending, evaluated⟩ := evaluate_ends numbered pair
  rw [ending]
  cases evaluated with
  | result found answer settled =>
      simp only [settled.counts, Counts.accounted, countEvaluation]
      omega
  | noSignal found steady =>
      simp only [counts_of_steady steady, Counts.accounted, countNoSignal, countEvaluation]
      omega
  | failed found steady =>
      simp only [counts_of_steady steady, Counts.accounted, countFailure, countEvaluation]
      omega
  | stray found other steady =>
      exact absurd ((unaccounted_iff pair desk).mpr ⟨_, found, other⟩) accounted
  | refused found refuses taken =>
      simp only [taken.counts, Counts.accounted, countEvaluation]
      omega

/-! ### Runs -/

/-- An evaluation, a cycle, or a change of anything but the counts: of quotes, fees and fetcher, of
the clock, of sinks, or of water marks that are shared with others. -/
inductive Act where
  | evaluate (pair : Pair)
  | evaluateAll (pairs : Option (List Pair))
  | change (other : Desk) (numbered : other.tracker.Numbered)

def Act.after (desk : Desk) : Act → Desk
  | .evaluate pair => ((Desk.evaluate pair).ending desk).2
  | .evaluateAll pairs => ((Desk.evaluateAll (desk.cyclePairs pairs)).ending desk).2
  | .change other _ => { other with counts := desk.counts }

def afterActs (acts : List Act) (desk : Desk) : Desk := acts.foldl Act.after desk

/-- The evaluations of a cycle, each with the desk that it begins with. A failure that escapes ends
the cycle. -/
def cycleTurns : List Pair → Desk → List (Pair × Desk)
  | [], _ => []
  | pair :: rest, desk => (pair, desk) ::
      match (evaluateForCycle pair).ending desk with
      | (.ok _, next) => cycleTurns rest next
      | (.error _, _) => []

def Act.turns (desk : Desk) : Act → List (Pair × Desk)
  | .evaluate pair => [(pair, desk)]
  | .evaluateAll pairs => cycleTurns (desk.cyclePairs pairs) desk
  | .change _ _ => []

def turns : List Act → Desk → List (Pair × Desk)
  | [], _ => []
  | act :: rest, desk => act.turns desk ++ turns rest (act.after desk)

open scoped Classical in
noncomputable def unaccounted (turns : List (Pair × Desk)) : Nat :=
  turns.countP fun turn => decide (Unaccounted turn.1 turn.2)

structure Account (turns : List (Pair × Desk)) (before after : Counts) : Prop where
  evaluations : after.evaluations = before.evaluations + turns.length
  ends : after.accounted + unaccounted turns = before.accounted + turns.length

theorem Account.append {first second : List (Pair × Desk)} {start middle last : Counts}
    (early : Account first start middle) (late : Account second middle last) :
    Account (first ++ second) start last := by
  have total : unaccounted (first ++ second) = unaccounted first + unaccounted second :=
    List.countP_append
  constructor
  · rw [late.evaluations, early.evaluations, List.length_append, Nat.add_assoc]
  · have earlyEnds := early.ends
    have lateEnds := late.ends
    rw [total, List.length_append]
    omega

theorem evaluate_account (numbered : desk.tracker.Numbered) (pair : Pair) :
    Account [(pair, desk)] desk.counts ((evaluate pair).ending desk).2.counts := by
  refine ⟨evaluate_counts numbered pair, ?_⟩
  by_cases lost : Unaccounted pair desk
  · rw [evaluate_unaccounted numbered lost]
    simp [unaccounted, lost]
  · rw [evaluate_accounted numbered lost]
    simp [unaccounted, lost]

theorem evaluate_all_account (numbered : desk.tracker.Numbered) (pairs : List Pair) :
    Account (cycleTurns pairs desk) desk.counts ((evaluateAll pairs).ending desk).2.counts ∧
      ((evaluateAll pairs).ending desk).2.tracker.Numbered := by
  induction pairs generalizing desk with
  | nil => exact ⟨⟨rfl, rfl⟩, numbered⟩
  | cons pair rest induction =>
      have account := evaluate_account numbered pair
      rw [← counts_of_steady (passed_steady pair desk)] at account
      have passedNumbered := passed_numbered numbered pair
      rw [cycleTurns, evaluateAll, ending_bind]
      rw [passed] at account passedNumbered
      generalize (evaluateForCycle pair).ending desk = ended at account passedNumbered ⊢
      obtain ⟨failure | found, middle⟩ := ended
      · exact ⟨account, passedNumbered⟩
      · obtain ⟨later, laterNumbered⟩ := induction passedNumbered
        dsimp only
        rw [ending_bind]
        generalize (evaluateAll rest).ending middle = others at later laterNumbered ⊢
        obtain ⟨failure | results, last⟩ := others
        · exact ⟨account.append later, laterNumbered⟩
        · exact ⟨account.append later, laterNumbered⟩

theorem act_account (numbered : desk.tracker.Numbered) (act : Act) :
    Account (act.turns desk) desk.counts (act.after desk).counts ∧
      (act.after desk).tracker.Numbered := by
  cases act with
  | evaluate pair => exact ⟨evaluate_account numbered pair, evaluate_numbered numbered pair⟩
  | evaluateAll pairs => exact evaluate_all_account numbered _
  | change other otherNumbered => exact ⟨⟨rfl, rfl⟩, otherNumbered⟩

theorem acts_account (numbered : desk.tracker.Numbered) (acts : List Act) :
    Account (turns acts desk) desk.counts (afterActs acts desk).counts := by
  induction acts generalizing desk with
  | nil => exact ⟨rfl, rfl⟩
  | cons act rest induction =>
      obtain ⟨account, afterNumbered⟩ := act_account numbered act
      exact account.append (induction afterNumbered)

/-- Over any run of a desk that starts with its counts at zero, the evaluations are the results, the
evaluations without a signal, the failures and the evaluations whose end is not counted. So they are
all accounted for exactly if there is none of the last kind. -/
theorem evaluations_account (numbered : desk.tracker.Numbered) (fresh : desk.counts = {})
    (acts : List Act) :
    (afterActs acts desk).counts.evaluations = (turns acts desk).length ∧
    (afterActs acts desk).counts.evaluations =
      (afterActs acts desk).counts.accounted + unaccounted (turns acts desk) ∧
    ((afterActs acts desk).counts.evaluations = (afterActs acts desk).counts.accounted ↔
      ∀ turn ∈ turns acts desk, ¬ Unaccounted turn.1 turn.2) := by
  obtain ⟨evaluations, ends⟩ := acts_account numbered acts
  have total : (afterActs acts desk).counts.evaluations = (turns acts desk).length := by
    rw [evaluations, fresh]
    exact Nat.zero_add _
  have sum : (afterActs acts desk).counts.evaluations =
      (afterActs acts desk).counts.accounted + unaccounted (turns acts desk) := by
    rw [total, ends, fresh]
    exact (Nat.zero_add _).symm
  refine ⟨total, sum, ?_⟩
  have none_lost : unaccounted (turns acts desk) = 0 ↔
      ∀ turn ∈ turns acts desk, ¬ Unaccounted turn.1 turn.2 := by
    simp [unaccounted, List.countP_eq_zero]
  rw [← none_lost]
  omega

/-- A cycle that ends with the signal over a NaN, and then an evaluation that has a result. -/
def spoiledActs : List Act :=
  [.evaluateAll (some spoiledPairs), .evaluate ⟨"okx", "bybit", "BTC/USD"⟩]

theorem spoiled_acts_account :
    spoiledDesk.tracker.Numbered ∧ spoiledDesk.counts = {} ∧
      (turns spoiledActs spoiledDesk).length = 2 ∧
      unaccounted (turns spoiledActs spoiledDesk) = 1 := by
  have numbered : spoiledDesk.tracker.Numbered := Tracker.tracks_nothing.numbered
  obtain ⟨total, sum, -⟩ := evaluations_account numbered rfl spoiledActs
  have counts :
      (afterActs spoiledActs spoiledDesk).counts = { evaluations := 2, results := 1 } := by
    decide +kernel
  simp only [counts, Counts.accounted] at total sum
  exact ⟨numbered, rfl, by omega, by omega⟩

/-- An evaluation that ends with the signal over a NaN is counted as it begins, and never again. -/
theorem spoiled_evaluation_unaccounted :
    ((evaluate ⟨"kraken", "bybit", "BTC/USD"⟩).ending spoiledDesk).2.counts =
        { evaluations := 1, results := 0, noSignals := 0, failures := 0 } ∧
      ((evaluate ⟨"kraken", "bybit", "BTC/USD"⟩).ending spoiledDesk).2.counts.evaluations ≠
        ((evaluate ⟨"kraken", "bybit", "BTC/USD"⟩).ending spoiledDesk).2.counts.accounted := by
  decide +kernel

end Desk

end SpreadWatch
