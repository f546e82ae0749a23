import SpreadWatch.Proofs.Desk.Extrema
import SpreadWatch.Proofs.Desk.Frame
import SpreadWatch.Proofs.Spread.Monotone

/-!
Round trips. A position that is opened and closed again at the same quotes is bought at the asks and
sold at the bids, and pays the fees twice. As long as no bid is above its ask, closing it costs at
least what opening it brings: the entry spread is not above the exit spread.
-/

namespace SpreadWatch

/-! ### Opening and closing -/

namespace Spread

open Decimal (Context)

/-- Taking a fee off leaves no more than adding one, and neither does rounding change that. -/
theorem received_le_paid {bid ask fee fee' : Decimal} (priced : Priced bid) (charged : Charged fee)
    (charged' : Charged fee') (uncrossed : bid.toRat ≤ ask.toRat) :
    working.round (Deal.sale.roundedPrice bid fee) ≤
      working.round (Deal.purchase.roundedPrice ask fee') := by
  have factors : Deal.sale.exactFactor fee.toRat ≤ Deal.purchase.exactFactor fee'.toRat := by
    calc
      1 - fee.toRat ≤ 1 := sub_le_self 1 charged.nonneg
      _ ≤ 1 + fee'.toRat := le_add_of_nonneg_right charged'.nonneg
  exact Context.round_mono working_sane
    (Deal.rounded_price_mono priced charged' uncrossed factors)

theorem entry_le_exit {longAsk longBid longFee shortAsk shortBid shortFee entry exit : Decimal}
    (opened : spread .entry (some longAsk) (some longFee) (some shortBid) (some shortFee) =
      .ok entry)
    (closed : spread .exit (some longBid) (some longFee) (some shortAsk) (some shortFee) =
      .ok exit)
    (long : longBid.toRat ≤ longAsk.toRat) (short : shortBid.toRat ≤ shortAsk.toRat) :
    entry.toRat ≤ exit.toRat := by
  have opening : (Legs.mk longAsk longFee shortBid shortFee).spread .entry = .ok entry := opened
  have closing : (Legs.mk longBid longFee shortAsk shortFee).spread .exit = .ok exit := closed
  obtain ⟨valid, -⟩ := Legs.prices_of_answer opening
  obtain ⟨valid', -⟩ := Legs.prices_of_answer closing
  exact Legs.spread_le_of_prices closing opening
    (received_le_paid valid'.longPriced valid'.longCharged valid.longCharged long)
    (received_le_paid valid.shortPriced valid.shortCharged valid'.shortCharged short)

end Spread

/-! ### Results from uncrossed quotes -/

def Quote.Uncrossed (quote : Quote) : Prop :=
  ∃ bid ask, quote.bid = some bid ∧ quote.ask = some ask ∧ bid.toRat ≤ ask.toRat

namespace SpreadResult

structure Uncrossed (result : SpreadResult) : Prop where
  long : ∀ quote, result.longQuote = some quote → quote.Uncrossed
  short : ∀ quote, result.shortQuote = some quote → quote.Uncrossed

def EntryBelowExit (result : SpreadResult) : Prop :=
  ∃ entry exit, result.entry = some entry ∧ result.exit = some exit ∧ entry.toRat ≤ exit.toRat

end SpreadResult

namespace Desk

open SpreadWatch.Action

variable {desk : Desk} {pair : Pair} {result : SpreadResult}

theorem spreads_of_uncrossed {long short : Quote} {longFee shortFee entry exit : Decimal}
    (computed : spreadsOf long short longFee shortFee = .ok (entry, exit))
    (longUncrossed : long.Uncrossed) (shortUncrossed : short.Uncrossed) :
    entry.toRat ≤ exit.toRat := by
  obtain ⟨longBid, longAsk, longBidIs, longAskIs, longOrdered⟩ := longUncrossed
  obtain ⟨shortBid, shortAsk, shortBidIs, shortAskIs, shortOrdered⟩ := shortUncrossed
  obtain ⟨opened, closed⟩ := legs_of_spreads computed
  rw [longAskIs, shortBidIs] at opened
  rw [longBidIs, shortAskIs] at closed
  exact Spread.entry_le_exit opened closed longOrdered shortOrdered

theorem result_from_uncrossed {fees : FeeSource} {long short : Quote}
    (found : resultFrom fees pair long short = .ok result) (uncrossed : result.Uncrossed) :
    result.EntryBelowExit := by
  obtain ⟨_, _, entry, exit, computed, rfl⟩ := result_from_spreads found
  exact ⟨entry, exit, rfl, rfl,
    spreads_of_uncrossed computed (uncrossed.long long rfl) (uncrossed.short short rfl)⟩

theorem produced_uncrossed (member : result ∈ desk.produced pair) (uncrossed : result.Uncrossed) :
    result.EntryBelowExit := by
  obtain ⟨long, short, from_⟩ := result_from_of_finding (found_of_produced member)
  exact result_from_uncrossed from_ uncrossed

/-- An evaluation answers with nothing but what it produces. -/
theorem produced_of_answer (member : result ∈ resultsOf ((evaluate pair).ending desk).1) :
    result ∈ desk.produced pair := by
  cases ended : ((evaluate pair).ending desk).1 with
  | error failure =>
      rw [ended] at member
      cases member
  | ok outcome =>
      rw [ended] at member
      cases outcome with
      | noSignal => cases member
      | result found =>
          rw [List.mem_singleton.mp member, produced_of_found (finding_of_result ended)]
          exact List.mem_singleton_self found

/-- Every result of a cycle was produced at the turn of some pair. -/
theorem produced_in_cycle {pairs : List Pair} (member : result ∈ cycleResults pairs desk) :
    ∃ (turn : Desk) (pair : Pair), result ∈ turn.produced pair := by
  induction pairs generalizing desk with
  | nil => cases member
  | cons pair rest induction =>
      obtain ⟨passes, escapes⟩ := evaluate_for_cycle_ending pair desk
      rw [cycleResults] at member
      by_cases escaped : Escapes ((evaluate pair).ending desk).1
      · obtain ⟨failure, failed, stray⟩ := escaped
        rw [escapes failure failed stray] at member
        cases member
      · obtain ⟨found, next, ended, same, -⟩ := passes escaped
        rw [ended] at member
        rcases List.mem_append.mp member with own | later
        · exact ⟨desk, pair, produced_of_answer (same ▸ own)⟩
        · exact induction later

/-- For prices and fees of any number of digits, an entry spread at the asks paid and the bids
received is not above the exit spread at the bids received and the asks paid, if no bid is above its
ask. So no result that a desk produces from uncrossed quotes, that an evaluation answers with or
that a cycle collects has an entry spread above its exit spread. -/
theorem no_free_round_trip :
    (∀ {longAsk longBid longFee shortAsk shortBid shortFee entry exit : Decimal},
      Spread.spread .entry (some longAsk) (some longFee) (some shortBid) (some shortFee) =
        .ok entry →
      Spread.spread .exit (some longBid) (some longFee) (some shortAsk) (some shortFee) =
        .ok exit →
      longBid.toRat ≤ longAsk.toRat → shortBid.toRat ≤ shortAsk.toRat →
      entry.toRat ≤ exit.toRat) ∧
    (∀ (desk : Desk) (pair : Pair), ∀ result ∈ desk.produced pair,
      result.Uncrossed → result.EntryBelowExit) ∧
    (∀ (desk : Desk) (pair : Pair), ∀ result ∈ resultsOf ((evaluate pair).ending desk).1,
      result.Uncrossed → result.EntryBelowExit) ∧
    (∀ (desk : Desk) (pairs : List Pair) (results : List SpreadResult),
      ((evaluateAll pairs).ending desk).1 = .ok results → ∀ result ∈ results,
        result.Uncrossed → result.EntryBelowExit) := by
  refine ⟨Spread.entry_le_exit, ?_, ?_, ?_⟩
  · intro desk pair result member
    exact produced_uncrossed member
  · intro desk pair result member
    exact produced_uncrossed (produced_of_answer member)
  · intro desk pairs results answered result member
    rw [evaluate_all_answers (Prod.ext answered rfl)] at member
    obtain ⟨turn, pair, produced⟩ := produced_in_cycle member
    exact produced_uncrossed produced

theorem quoted_result_uncrossed : quotedResult.Uncrossed where
  long := by
    rintro quote ⟨⟩
    exact ⟨_, _, rfl, rfl, by norm_num [Decimal.to_rat_finite]⟩
  short := by
    rintro quote ⟨⟩
    exact ⟨_, _, rfl, rfl, by norm_num [Decimal.to_rat_finite]⟩

theorem quoted_round_trip :
    (Decimal.finite false 49700 (-8)).toRat ≤ (Decimal.finite false 551076 (-8)).toRat ∧
      resultsOf ((evaluate quotedResult.pair).ending quotedDesk).1 = [quotedResult] ∧
      quotedResult.EntryBelowExit := by
  obtain ⟨spreads, -, answers, -⟩ := no_free_round_trip
  have opened : Spread.spread .entry (some (.finite false 20000 (-2))) (some (.finite false 1 (-3)))
      (some (.finite false 20050 (-2))) (some (.finite false 1 (-3))) =
        .ok (.finite false 49700 (-8)) := ok_of_to_option (by decide +kernel)
  have closed : Spread.spread .exit (some (.finite false 19990 (-2))) (some (.finite false 1 (-3)))
      (some (.finite false 20060 (-2))) (some (.finite false 1 (-3))) =
        .ok (.finite false 551076 (-8)) := ok_of_to_option (by decide +kernel)
  have evaluated : resultsOf ((evaluate quotedResult.pair).ending quotedDesk).1 =
      [quotedResult] := by decide +kernel
  exact ⟨spreads opened closed (by norm_num [Decimal.to_rat_finite])
      (by norm_num [Decimal.to_rat_finite]), evaluated,
    answers quotedDesk quotedResult.pair quotedResult
      (by rw [evaluated]; exact List.mem_singleton_self _) quoted_result_uncrossed⟩

end Desk

end SpreadWatch
