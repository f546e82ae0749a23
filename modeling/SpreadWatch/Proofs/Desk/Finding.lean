import SpreadWatch.Proofs.Action
import SpreadWatch.Desk.Evaluate

/-!
What an evaluation finds, as a function of the quotes, the clock and the fees: a result, no signal,
or a failure. Up to the point where it has a result, an evaluation finds exactly this, and leaves
the desk as it was but for its fees and its log.
-/

namespace SpreadWatch

open SpreadWatch.Action

/-- The fee for a request: from the cache, or fetched. Whatever goes wrong on the way is an engine
error. -/
def FeeSource.resolve (source : FeeSource) (request : FeeRequest) :
    Except Failure Decimal × FeeSource :=
  match source.lookup request.exchange request.instrument with
  | .hit (some fee) => (.ok fee, source)
  | _ =>
      let place := Desk.placeText request.exchange request.instrument
      match (FeeSource.fetch request).ending source with
      | (.ok (some fee), next) => (.ok fee, next)
      | (.ok none, next) =>
          (.error (.ofCause (Desk.feeMissing request) ("No fee available for " ++ place)), next)
      | (.error failure, next) =>
          (.error (failure.under (Desk.feeMissing request) ("Fee fetch failed for " ++ place)),
            next)

def FeeSource.afterAsking (source : FeeSource) (requests : List FeeRequest) : FeeSource :=
  requests.foldl (fun source request => (source.resolve request).2) source

namespace Desk

variable {desk next : Desk} {pair : Pair}

def steady (desk : Desk) : QuoteBook × Outlets × List Pair × List Sink × Tracker × Counts :=
  (desk.quotes, { desk.outlets with log := [] }, desk.combinations, desk.sinks, desk.tracker,
    desk.counts)

structure Logged (desk next : Desk) : Prop where
  fees : next.fees = desk.fees
  steady : next.steady = desk.steady

theorem Logged.refl (desk : Desk) : Logged desk desk := ⟨rfl, rfl⟩

theorem Logged.trans {last : Desk} (first : Logged desk next) (second : Logged next last) :
    Logged desk last :=
  ⟨second.fees.trans first.fees, second.steady.trans first.steady⟩

theorem quotes_of_steady (same : next.steady = desk.steady) : next.quotes = desk.quotes :=
  congrArg (·.1) same

theorem now_of_steady (same : next.steady = desk.steady) : next.outlets.now = desk.outlets.now := by
  have outlets : { next.outlets with log := [] } = { desk.outlets with log := [] } :=
    congrArg (·.2.1) same
  have clock : ∀ outlets : Outlets, { outlets with log := [] }.now = outlets.now := fun _ => rfl
  rw [← clock, outlets, clock]

theorem note_logs (level : Level) (event : String) (fields : List (String × Value)) (desk : Desk) :
    ∃ next, (note level event fields).ending desk = (.ok (), next) ∧ Logged desk next :=
  ⟨_, rfl, rfl, rfl⟩

/-! ### Quotes -/

def quoteAt (desk : Desk) (exchange instrument : String) : Except Failure (Option Quote) :=
  match desk.quotes.fetch exchange instrument with
  | .ok quote => .ok quote
  | .error failure => .error (failure.under (.quoteFetch (.text exchange) (.text instrument))
      ("Quote fetch failed for " ++ placeText exchange instrument))

def usable (desk : Desk) (quote : Option Quote) : Except Failure (Option Quote) :=
  (desk.quotes.stateOf quote desk.outlets.now).map fun state =>
    if state = .usable then quote else none

theorem usable_of_steady (same : next.steady = desk.steady) (quote : Option Quote) :
    next.usable quote = desk.usable quote := by
  rw [usable, usable, quotes_of_steady same, now_of_steady same]

theorem fetch_quote_ending (exchange instrument : String) (desk : Desk) :
    (fetchQuote exchange instrument).ending desk = (desk.quoteAt exchange instrument, desk) := by
  rw [fetchQuote, ending_bind_ok (ending_get desk), quoteAt]
  cases desk.quotes.fetch exchange instrument <;> rfl

theorem state_of_ending (quote : Option Quote) (desk : Desk) :
    ∃ next, (stateOf quote).ending desk =
      (desk.quotes.stateOf quote desk.outlets.now, next) ∧ Logged desk next := by
  rw [stateOf, ending_bind_ok (ending_get desk)]
  cases found : desk.quotes.stateOf quote desk.outlets.now with
  | error failure => exact ⟨desk, rfl, .refl desk⟩
  | ok state =>
      rw [ending_bind_ok (ending_lift _ _)]
      by_cases stale : state = .stale
      · rw [if_pos stale]
        exact ⟨_, rfl, rfl, rfl⟩
      · rw [if_neg stale]
        exact ⟨desk, rfl, .refl desk⟩

theorem usable_quote_ending (quote : Option Quote) (desk : Desk) :
    ∃ next, (usableQuote quote).ending desk = (desk.usable quote, next) ∧ Logged desk next := by
  obtain ⟨next, ended, logged⟩ := state_of_ending quote desk
  refine ⟨next, ?_, logged⟩
  rw [usable, usableQuote]
  cases found : desk.quotes.stateOf quote desk.outlets.now with
  | error failure => rw [ending_bind_error (ended.trans (by rw [found]))]; rfl
  | ok state => rw [ending_bind_ok (ended.trans (by rw [found]))]; rfl

/-! ### Fees -/

theorem fetch_fee_ending (request : FeeRequest) (desk : Desk) :
    ∃ next, (fetchFee request).ending desk =
        (((FeeSource.fetch request).ending desk.fees).1, next) ∧
      next.fees = ((FeeSource.fetch request).ending desk.fees).2 ∧ next.steady = desk.steady := by
  rw [fetchFee, ending_bind, onFees, ending_on]
  generalize (FeeSource.fetch request).ending desk.fees = fetched
  obtain ⟨failure | fee, fees⟩ := fetched
  · exact ⟨_, rfl, rfl, rfl⟩
  · cases fee with
    | none => exact ⟨_, rfl, rfl, rfl⟩
    | some fee => exact ⟨_, rfl, rfl, rfl⟩

theorem fee_of_ending (request : FeeRequest) (desk : Desk) :
    ∃ next, (feeOf request).ending desk = ((desk.fees.resolve request).1, next) ∧
      next.fees = (desk.fees.resolve request).2 ∧ next.steady = desk.steady := by
  rw [feeOf, ending_bind_ok (ending_get desk), FeeSource.resolve, FeeSource.lookup]
  cases desk.fees.cache.get? request.exchange request.instrument with
  | some fee => exact ⟨desk, rfl, rfl, rfl⟩
  | none =>
      obtain ⟨noted, note, noteLogs⟩ := note_logs .debug "Fee cache miss, fetching"
        [("exchange", .text request.exchange), ("instrument", .text request.instrument),
          ("is_buy", .bool request.isBuy)] desk
      obtain ⟨fetched, fetch, fees, steady⟩ := fetch_fee_ending request noted
      dsimp only
      rw [ending_bind_ok note, ending_bind, ending_try_catch, fetch]
      rw [noteLogs.fees] at fees ⊢
      have steadily := steady.trans noteLogs.steady
      generalize (FeeSource.fetch request).ending desk.fees = answer at fees ⊢
      obtain ⟨failure | fee, last⟩ := answer
      · exact ⟨fetched, rfl, fees, steadily⟩
      · cases fee with
        | none => exact ⟨fetched, rfl, fees, steadily⟩
        | some fee => exact ⟨fetched, rfl, fees, steadily⟩

/-! ### Spreads -/

theorem compute_spreads_ending (pair : Pair) (long short : Quote) (longFee shortFee : Decimal)
    (desk : Desk) :
    ∃ next, (computeSpreads pair long short longFee shortFee).ending desk =
      (spreadsOf long short longFee shortFee, next) ∧ Logged desk next := by
  rw [computeSpreads]
  cases spreadsOf long short longFee shortFee with
  | ok spreads => exact ⟨desk, rfl, .refl desk⟩
  | error failure =>
      dsimp only
      cases violation? pair failure with
      | none => exact ⟨desk, rfl, .refl desk⟩
      | some record => exact ⟨_, rfl, rfl, rfl⟩

/-! ### The finding -/

def longRequest (pair : Pair) : FeeRequest :=
  { exchange := pair.long, instrument := pair.instrument, isBuy := true }

def shortRequest (pair : Pair) : FeeRequest :=
  { exchange := pair.short, instrument := pair.instrument, isBuy := false }

/-- A source after it has been asked for both fees of a pair, for the short side's only if the long
side's has been found. -/
def feesAsked (pair : Pair) (fees : FeeSource) : FeeSource :=
  match fees.resolve (longRequest pair) with
  | (.ok _, next) => (next.resolve (shortRequest pair)).2
  | (.error _, next) => next

/-- The result from two usable quotes, with the fees of a source. The short side's fee is asked for
after the long side's. -/
def resultFrom (fees : FeeSource) (pair : Pair) (long short : Quote) :
    Except Failure SpreadResult := do
  let longFee ← (fees.resolve (longRequest pair)).1
  let shortFee ← ((fees.resolve (longRequest pair)).2.resolve (shortRequest pair)).1
  let (entry, exit) ← spreadsOf long short longFee shortFee
  return { pair, longQuote := some long, shortQuote := some short, entry := some entry
           exit := some exit }

def resultOfUsable (fees : FeeSource) (pair : Pair) :
    Option Quote → Option Quote → Except Failure (Option SpreadResult)
  | some long, some short => (resultFrom fees pair long short).map some
  | _, _ => .ok none

def finding (pair : Pair) (desk : Desk) : Except Failure (Option SpreadResult) := do
  let long ← desk.quoteAt pair.long pair.instrument
  let short ← desk.quoteAt pair.short pair.instrument
  let long ← desk.usable long
  let short ← desk.usable short
  resultOfUsable desk.fees pair long short

def usableQuotes (pair : Pair) (desk : Desk) : Except Failure (Option Quote × Option Quote) := do
  let long ← desk.quoteAt pair.long pair.instrument
  let short ← desk.quoteAt pair.short pair.instrument
  let long ← desk.usable long
  let short ← desk.usable short
  return (long, short)

theorem finding_of_quotes (pair : Pair) (desk : Desk) :
    desk.finding pair = desk.usableQuotes pair >>= fun quotes =>
      resultOfUsable desk.fees pair quotes.1 quotes.2 := by
  unfold finding usableQuotes
  cases desk.quoteAt pair.long pair.instrument with
  | error failure => rfl
  | ok long =>
  cases desk.quoteAt pair.short pair.instrument with
  | error failure => rfl
  | ok short =>
  simp only [bind, Except.bind]
  cases desk.usable long with
  | error failure => rfl
  | ok longUsed => cases desk.usable short <;> rfl

/-- The fees that an evaluation of a pair asks for: none unless both quotes can be used, and the
short side's only if the long side's is found. -/
def asks (pair : Pair) (desk : Desk) : List FeeRequest :=
  match desk.usableQuotes pair with
  | .ok (some _, some _) =>
      match (desk.fees.resolve (longRequest pair)).1 with
      | .ok _ => [longRequest pair, shortRequest pair]
      | .error _ => [longRequest pair]
  | _ => []

theorem after_asking_both {long short : Quote}
    (usable : desk.usableQuotes pair = .ok (some long, some short)) :
    desk.fees.afterAsking (asks pair desk) = feesAsked pair desk.fees := by
  rw [asks, usable, feesAsked]
  cases answer : desk.fees.resolve (longRequest pair) with
  | mk found next => cases found <;> simp [FeeSource.afterAsking, answer]

theorem after_asking_cases (pair : Pair) (desk : Desk) :
    desk.fees.afterAsking (asks pair desk) = desk.fees ∨
      desk.fees.afterAsking (asks pair desk) = feesAsked pair desk.fees := by
  cases quotes : desk.usableQuotes pair with
  | error failure => exact .inl (by rw [asks, quotes]; rfl)
  | ok used =>
      obtain ⟨_ | long, _ | short⟩ := used
      · exact .inl (by rw [asks, quotes]; rfl)
      · exact .inl (by rw [asks, quotes]; rfl)
      · exact .inl (by rw [asks, quotes]; rfl)
      · exact .inr (after_asking_both quotes)

theorem asks_of_nothing (found : desk.finding pair = .ok none) : asks pair desk = [] := by
  rw [finding_of_quotes] at found
  rw [asks]
  cases quotes : desk.usableQuotes pair with
  | error failure => rfl
  | ok used =>
      rw [quotes] at found
      obtain ⟨_ | long, _ | short⟩ := used
      · rfl
      · rfl
      · rfl
      · have answered : (resultFrom desk.fees pair long short).map some = .ok none := found
        cases computed : resultFrom desk.fees pair long short with
        | error failure => rw [computed] at answered; cases answered
        | ok result => rw [computed] at answered; cases answered

/-- An evaluation from its quotes on finds the result from them, and then settles it. -/
theorem evaluate_quotes_ending (pair : Pair) (long short : Quote) (desk : Desk) :
    ∃ next, next.steady = desk.steady ∧ next.fees = feesAsked pair desk.fees ∧
      (evaluateQuotes pair long short).ending desk =
      match resultFrom desk.fees pair long short with
      | .ok result => (settle result >>= fun _ => pure (.result result)).ending next
      | .error failure => (.error failure, next) := by
  obtain ⟨middle, longAsked, middleFees, middleSteady⟩ := fee_of_ending (longRequest pair) desk
  obtain ⟨last, shortAsked, lastFees, lastSteady⟩ := fee_of_ending (shortRequest pair) middle
  rw [middleFees] at shortAsked lastFees
  unfold evaluateQuotes
  cases longAnswer : desk.fees.resolve (longRequest pair) with
  | mk longFound longFees =>
  rw [longAnswer] at longAsked middleFees shortAsked lastFees
  cases longFound with
  | error failure =>
      have found : resultFrom desk.fees pair long short = .error failure := by
        simp only [resultFrom, longAnswer, bind, Except.bind]
      refine ⟨middle, middleSteady, ?_, (ending_bind_error longAsked _).trans (by rw [found])⟩
      rw [middleFees, feesAsked, longAnswer]
  | ok longFee =>
      have asked : feesAsked pair desk.fees = (longFees.resolve (shortRequest pair)).2 := by
        rw [feesAsked, longAnswer]
      cases shortAnswer : (longFees.resolve (shortRequest pair)).1 with
      | error failure =>
          have found : resultFrom desk.fees pair long short = .error failure := by
            simp only [resultFrom, longAnswer, shortAnswer, bind, Except.bind]
          rw [shortAnswer] at shortAsked
          refine ⟨last, lastSteady.trans middleSteady, lastFees.trans asked.symm, ?_⟩
          rw [found]
          exact (ending_bind_ok longAsked _).trans (ending_bind_error shortAsked _)
      | ok shortFee =>
          rw [shortAnswer] at shortAsked
          obtain ⟨next, computed, logged⟩ :=
            compute_spreads_ending pair long short longFee shortFee last
          refine ⟨next, logged.steady.trans (lastSteady.trans middleSteady),
            logged.fees.trans (lastFees.trans asked.symm), ?_⟩
          refine (ending_bind_ok longAsked _).trans ((ending_bind_ok shortAsked _).trans ?_)
          cases spreads : spreadsOf long short longFee shortFee with
          | error failure =>
              have found : resultFrom desk.fees pair long short = .error failure := by
                simp only [resultFrom, longAnswer, shortAnswer, spreads, bind, Except.bind]
              rw [spreads] at computed
              rw [found, ending_bind_error computed]
          | ok both =>
              have found : resultFrom desk.fees pair long short = .ok
                  { pair, longQuote := some long, shortQuote := some short, entry := some both.1
                    exit := some both.2 } := by
                simp only [resultFrom, longAnswer, shortAnswer, spreads, bind, Except.bind]
                rfl
              rw [spreads] at computed
              rw [found, ending_bind_ok computed]

def countNoSignal (desk : Desk) : Desk :=
  { desk with counts.noSignals := desk.counts.noSignals + 1 }

theorem count_no_signal_steady (same : next.steady = desk.steady) :
    next.countNoSignal.steady = desk.countNoSignal.steady := by
  simp only [steady, Prod.mk.injEq] at same
  obtain ⟨quotes, outlets, combinations, sinks, tracker, counts⟩ := same
  simp only [countNoSignal, steady, quotes, outlets, combinations, sinks, tracker, counts]

theorem pass_over_ending (pair : Pair) (longInvalid shortInvalid : Bool) (desk : Desk) :
    ∃ next, (passOver pair longInvalid shortInvalid).ending desk = (.ok (.noSignal pair), next) ∧
      next.steady = desk.countNoSignal.steady ∧ next.fees = desk.fees :=
  ⟨_, rfl, rfl, rfl⟩

/-- What an evaluation finds is what it ends with, and a result is settled before. In any case it
has asked for certain fees and for no others. -/
theorem attempt_ending (pair : Pair) (desk : Desk) :
    ∃ next, next.fees = desk.fees.afterAsking (asks pair desk) ∧
    match desk.finding pair with
    | .error failure => (attempt pair).ending desk = (.error failure, next) ∧
        next.steady = desk.steady
    | .ok none => (attempt pair).ending desk = (.ok (.noSignal pair), next) ∧
        next.steady = desk.countNoSignal.steady
    | .ok (some result) => next.steady = desk.steady ∧ (attempt pair).ending desk =
        (settle result >>= fun _ => pure (.result result)).ending next := by
  have longAsked := fetch_quote_ending pair.long pair.instrument desk
  have shortAsked := fetch_quote_ending pair.short pair.instrument desk
  -- Without two usable quotes no fee is asked for.
  have asksNothing : ∀ failure, desk.usableQuotes pair = .error failure →
      desk.fees.afterAsking (asks pair desk) = desk.fees := by
    intro failure unusable
    simp only [asks, unusable]
    rfl
  rw [finding_of_quotes]
  unfold attempt
  cases longAnswer : desk.quoteAt pair.long pair.instrument with
  | error failure =>
      have quotes : desk.usableQuotes pair = .error failure := by
        simp only [usableQuotes, longAnswer, bind, Except.bind]
      rw [longAnswer] at longAsked
      rw [asksNothing failure quotes, quotes]
      exact ⟨desk, rfl, ending_bind_error longAsked _, rfl⟩
  | ok long =>
  rw [longAnswer] at longAsked
  cases shortAnswer : desk.quoteAt pair.short pair.instrument with
  | error failure =>
      have quotes : desk.usableQuotes pair = .error failure := by
        simp only [usableQuotes, longAnswer, shortAnswer, bind, Except.bind]
      rw [shortAnswer] at shortAsked
      rw [asksNothing failure quotes, quotes]
      exact ⟨desk, rfl, (ending_bind_ok longAsked _).trans (ending_bind_error shortAsked _), rfl⟩
  | ok short =>
  rw [shortAnswer] at shortAsked
  rw [ending_bind_ok longAsked, ending_bind_ok shortAsked]
  obtain ⟨middle, longChecked, middleLogged⟩ := usable_quote_ending long desk
  obtain ⟨last, shortChecked, lastLogged⟩ := usable_quote_ending short middle
  rw [usable_of_steady middleLogged.steady] at shortChecked
  have logged := middleLogged.trans lastLogged
  cases longUsable : desk.usable long with
  | error failure =>
      have quotes : desk.usableQuotes pair = .error failure := by
        simp only [usableQuotes, longAnswer, shortAnswer, longUsable, bind, Except.bind]
      rw [longUsable] at longChecked
      rw [asksNothing failure quotes, quotes]
      exact ⟨middle, middleLogged.fees, ending_bind_error longChecked _, middleLogged.steady⟩
  | ok longQuote =>
  rw [longUsable] at longChecked
  rw [ending_bind_ok longChecked]
  cases shortUsable : desk.usable short with
  | error failure =>
      have quotes : desk.usableQuotes pair = .error failure := by
        simp only [usableQuotes, longAnswer, shortAnswer, longUsable, shortUsable, bind,
          Except.bind]
      rw [shortUsable] at shortChecked
      rw [asksNothing failure quotes, quotes]
      exact ⟨last, logged.fees, ending_bind_error shortChecked _, logged.steady⟩
  | ok shortQuote =>
  rw [shortUsable] at shortChecked
  rw [ending_bind_ok shortChecked]
  have quotes : desk.usableQuotes pair = .ok (longQuote, shortQuote) := by
    simp only [usableQuotes, longAnswer, shortAnswer, longUsable, shortUsable, bind, Except.bind]
    rfl
  have found : (desk.usableQuotes pair >>= fun quotes =>
      resultOfUsable desk.fees pair quotes.1 quotes.2) =
        resultOfUsable desk.fees pair longQuote shortQuote := by
    rw [quotes]
    rfl
  have passed : ∀ longInvalid shortInvalid : Bool, ∃ next, next.fees = desk.fees ∧
      (passOver pair longInvalid shortInvalid).ending last = (.ok (.noSignal pair), next) ∧
        next.steady = desk.countNoSignal.steady := by
    intro longInvalid shortInvalid
    obtain ⟨next, ended, steady, fees⟩ := pass_over_ending pair longInvalid shortInvalid last
    exact ⟨next, fees.trans logged.fees, ended,
      steady.trans (count_no_signal_steady logged.steady)⟩
  rw [found]
  cases longQuote with
  | none =>
      simp only [asks, quotes]
      exact passed true shortQuote.isNone
  | some longQuote =>
      cases shortQuote with
      | none =>
          simp only [asks, quotes]
          exact passed false true
      | some shortQuote =>
          obtain ⟨next, steady, fees, ended⟩ :=
            evaluate_quotes_ending pair longQuote shortQuote last
          rw [logged.fees] at ended fees
          rw [after_asking_both quotes, resultOfUsable]
          cases result : resultFrom desk.fees pair longQuote shortQuote with
          | error failure =>
              rw [result] at ended
              exact ⟨next, fees, ended, steady.trans logged.steady⟩
          | ok result =>
              rw [result] at ended
              exact ⟨next, fees, steady.trans logged.steady, ended⟩

end Desk

end SpreadWatch
