import SpreadWatch.Proofs.Desk.Stray

/-!
What an evaluation without a result leaves alone. Without a signal, it changes two counts and the
log and nothing else. After an engine error, it changes two counts, the log and the fees, and of
the fees at most the requests and the cache: the cache may have gained the fee of a side, if the
fetch for that side has got one, and keeps all that it held before.
-/

namespace SpreadWatch

open SpreadWatch.Action

/-! ### Fees -/

namespace FeeCache

theorem get_cons (key place : String × String) (old : Decimal) (rest : FeeCache) :
    get? ((key, old) :: rest) place.1 place.2 =
      if place = key then some old else rest.get? place.1 place.2 := by
  simp only [get?, List.lookup_cons]
  by_cases same : place = key
  · rw [if_pos same, beq_iff_eq.mpr same]
  · rw [if_neg same, beq_eq_false_iff_ne.mpr same]

theorem get_set (cache : FeeCache) (exchange instrument : String) (fee : Decimal)
    (place : String × String) :
    (cache.set exchange instrument fee).get? place.1 place.2 =
      if place = (exchange, instrument) then some fee else cache.get? place.1 place.2 := by
  induction cache with
  | nil => rw [set, get_cons]
  | cons entry rest induction =>
      obtain ⟨key, old⟩ := entry
      by_cases found : key = (exchange, instrument)
      · rw [set, if_pos found, get_cons, get_cons, found]
        split <;> rfl
      · rw [set, if_neg found, get_cons, get_cons, induction]
        by_cases same : place = key
        · rw [if_pos same, if_pos same, if_neg (fun equal => found (same.symm.trans equal))]
        · rw [if_neg same, if_neg same]

end FeeCache

namespace FeeSource

variable {before middle after : FeeSource} {request : FeeRequest}

def Fetches (source : FeeSource) (request : FeeRequest) (fee : Decimal) : Prop :=
  ((fetch request).ending source).1 = .ok (some fee)

/-- Between two states of a source, entries have been added to the cache at most for certain places
and with certain fees. -/
structure Grown (admitted : String → String → Decimal → Prop) (before after : FeeSource) :
    Prop where
  params : after.params = before.params
  fetcher : after.fetcher = before.fetcher
  kept : ∀ exchange instrument fee, before.cache.get? exchange instrument = some fee →
    after.cache.get? exchange instrument = some fee
  added : ∀ exchange instrument fee, before.cache.get? exchange instrument = none →
    after.cache.get? exchange instrument = some fee → admitted exchange instrument fee

variable {admitted : String → String → Decimal → Prop}

theorem Grown.of_cache (params : after.params = before.params)
    (fetcher : after.fetcher = before.fetcher) (cache : after.cache = before.cache) :
    Grown admitted before after := by
  refine ⟨params, fetcher, ?_, ?_⟩
  · intro exchange instrument fee known
    rw [cache]
    exact known
  · intro exchange instrument fee unknown known
    rw [cache, unknown] at known
    cases known

theorem Grown.trans (first : Grown admitted before middle) (second : Grown admitted middle after) :
    Grown admitted before after := by
  refine ⟨second.params.trans first.params, second.fetcher.trans first.fetcher, ?_, ?_⟩
  · intro exchange instrument fee known
    exact second.kept exchange instrument fee (first.kept exchange instrument fee known)
  · intro exchange instrument fee unknown known
    cases early : middle.cache.get? exchange instrument with
    | none => exact second.added exchange instrument fee early known
    | some other =>
        have same := second.kept exchange instrument other early
        rw [known] at same
        cases same
        exact first.added exchange instrument fee unknown early

theorem Grown.mono {wider : String → String → Decimal → Prop}
    (grown : Grown admitted before after)
    (implies : ∀ exchange instrument fee, admitted exchange instrument fee →
      wider exchange instrument fee) : Grown wider before after :=
  ⟨grown.params, grown.fetcher, grown.kept, fun exchange instrument fee unknown known =>
    implies exchange instrument fee (grown.added exchange instrument fee unknown known)⟩

theorem ask_ending (request : FeeRequest) (source : FeeSource) :
    ∃ result requests, (ask request).ending source = (result, { source with requests }) := by
  obtain ⟨params, fetcher, cache, requests⟩ := source
  cases fetcher with
  | none => exact ⟨_, requests, rfl⟩
  | some fetcher => exact ⟨fetcher requests request, request :: requests, rfl⟩

/-- A fetch caches the fee that it gets, and otherwise leaves the cache alone. -/
theorem fetch_ending (request : FeeRequest) (source : FeeSource) :
    ∃ result requests, (fetch request).ending source =
      (result, { source with
        requests
        cache := match result with
          | .ok (some fee) => source.cache.set request.exchange request.instrument fee
          | _ => source.cache }) := by
  obtain ⟨answer, requests, asked⟩ := ask_ending request source
  cases answer with
  | error failure => exact ⟨.error failure, requests, ending_bind_error asked _⟩
  | ok answer =>
      rw [fetch, ending_bind_ok asked]
      split
      · exact ⟨.ok none, requests, rfl⟩
      · cases converted : answer.toDecimalByText with
        | error failure => exact ⟨.error failure, requests, rfl⟩
        | ok fee => exact ⟨.ok (some fee), requests, rfl⟩

/-- Looking for a fee adds at most an entry for the place that is asked for, with the fee that the
fetch has got. -/
theorem resolve_grown (source : FeeSource) (request : FeeRequest) :
    Grown (fun exchange instrument fee => exchange = request.exchange ∧
      instrument = request.instrument ∧ source.Fetches request fee) source
      (source.resolve request).2 := by
  unfold resolve lookup
  cases known : source.cache.get? request.exchange request.instrument with
  | some fee => exact .of_cache rfl rfl rfl
  | none =>
      obtain ⟨result, requests, fetched⟩ := fetch_ending request source
      rw [fetched]
      dsimp only
      cases result with
      | error failure => exact .of_cache rfl rfl rfl
      | ok fee =>
          cases fee with
          | none => exact .of_cache rfl rfl rfl
          | some fee =>
              dsimp only
              refine ⟨rfl, rfl, ?_, ?_⟩
              · intro exchange instrument other held
                have entry := FeeCache.get_set source.cache request.exchange request.instrument fee
                  (exchange, instrument)
                rw [entry, if_neg, held]
                rintro ⟨⟩
                rw [known] at held
                cases held
              · intro exchange instrument other unknown held
                have entry := FeeCache.get_set source.cache request.exchange request.instrument fee
                  (exchange, instrument)
                rw [entry] at held
                split_ifs at held with here
                · cases here
                  cases held
                  exact ⟨rfl, rfl, by rw [Fetches, fetched]⟩
                · rw [unknown] at held
                  cases held

end FeeSource

namespace Desk

variable {desk next : Desk} {pair : Pair}

/-- The places and fees for which an evaluation of a pair may add entries to the cache of a source:
those of the long side if the fetch for it gets the fee, and those of the short side if the long
side's fee is found and then the fetch for the short side gets the fee. -/
inductive Fetched (pair : Pair) (source : FeeSource) : String → String → Decimal → Prop
  | long {fee : Decimal} (got : source.Fetches (longRequest pair) fee) :
      Fetched pair source pair.long pair.instrument fee
  | short {longFee fee : Decimal} {middle : FeeSource}
      (found : source.resolve (longRequest pair) = (.ok longFee, middle))
      (got : middle.Fetches (shortRequest pair) fee) :
      Fetched pair source pair.short pair.instrument fee

theorem fees_asked_grown (pair : Pair) (fees : FeeSource) :
    fees.Grown (Fetched pair fees) (feesAsked pair fees) := by
  have long := fees.resolve_grown (longRequest pair)
  have first : fees.Grown (Fetched pair fees) (fees.resolve (longRequest pair)).2 := by
    apply long.mono
    rintro exchange instrument fee ⟨rfl, rfl, got⟩
    exact .long got
  rw [feesAsked]
  cases asked : fees.resolve (longRequest pair) with
  | mk answer middle =>
  rw [asked] at first
  cases answer with
  | error failure => exact first
  | ok longFee =>
      apply first.trans
      apply (middle.resolve_grown (shortRequest pair)).mono
      rintro exchange instrument fee ⟨rfl, rfl, got⟩
      exact .short asked got

/-! ### Settling a result never ends with an engine error -/

theorem extend_fails (table : MarkTable) (mark : Mark) (pair : Pair) (spread : Option Decimal) :
    FailsWith Stray (Tracker.extend table mark pair spread) := by
  unfold Tracker.extend
  cases spread with
  | none => exact FailsWith.error rfl
  | some spread =>
      exact FailsWith.bind (FailsWith.lift fun signal => rfl) fun extreme _ => FailsWith.ok _

theorem record_fails (result : SpreadResult) : Fails Stray (Tracker.record result) := by
  apply Fails.forM
  intro mark
  apply Fails.read
  intro tracker
  apply Fails.bind (Fails.lift (extend_fails _ _ _ _))
  intro table
  exact Fails.modify fun tracker => tracker.setTable mark table

theorem log_record_fails (result : SpreadResult) : FailsWith Stray (LogRecord.ofResult result) := by
  have given : ∀ quote : Option Quote, FailsWith Stray (givenQuote "ask" quote) := by
    intro quote
    cases quote with
    | none => exact FailsWith.error rfl
    | some quote => exact FailsWith.ok quote
  apply FailsWith.bind (given _)
  intro long _
  apply FailsWith.bind (given _)
  intro short _
  exact FailsWith.ok _

theorem publish_result_fails (result : SpreadResult) : Fails Stray (publishResult result) := by
  intro desk failure ended
  rw [publishResult, ending_bind_ok (ending_get desk)] at ended
  by_cases answers : ∀ sink ∈ desk.sinks,
      ∃ wanted, sink.accepts result.pair.instrument = .ok wanted
  · obtain ⟨sinks, outlets, published, -⟩ := Sink.publish_each_offers answers desk.outlets
    rw [published] at ended
    cases ended
  · obtain ⟨earlier, refusing, later, text, sinks, answered, refused⟩ := Sink.first_refusing answers
    obtain ⟨offered, outlets, stopped, -⟩ :=
      Sink.publish_each_stops answered refused later desk.outlets
    rw [sinks, stopped] at ended
    cases ended
    rfl

theorem settle_fails (result : SpreadResult) : Fails Stray (settle result) := by
  apply Fails.bind ((record_fails result).on _ _)
  intro _
  refine Fails.bind (Fails.modify _) ?_
  intro _
  apply Fails.bind (Fails.lift (log_record_fails result))
  intro record
  have written : Fails Stray (onOutlets (Outlets.write record.ofSpreads)) := (Fails.modify _).on _ _
  exact Fails.bind written fun _ => publish_result_fails result

/-! ### Evaluations without a result -/

inductive PassedOver (pair : Pair) (desk : Desk) : Prop
  | intro {long short : Option Quote} {longState shortState : QuoteState}
      (longAt : desk.quotes.fetch pair.long pair.instrument = .ok long)
      (shortAt : desk.quotes.fetch pair.short pair.instrument = .ok short)
      (longChecked : desk.stateNow long = .ok longState)
      (shortChecked : desk.stateNow short = .ok shortState)
      (invalid : longState ≠ .usable ∨ shortState ≠ .usable)

theorem usable_eq_none {quote : Option Quote} :
    desk.usable quote = .ok none ↔
      ∃ state, desk.stateNow quote = .ok state ∧ state ≠ .usable := by
  unfold usable stateNow
  cases checked : desk.quotes.stateOf quote desk.outlets.now with
  | error failure => simp [Except.map]
  | ok state =>
      by_cases usable : state = .usable
      · cases quote with
        | none =>
            subst usable
            cases checked
        | some quote => simp [Except.map, usable]
      · simp [Except.map, usable]

theorem state_of_usable {quote used : Option Quote} (usable : desk.usable quote = .ok used) :
    ∃ state, desk.stateNow quote = .ok state := by
  cases checked : desk.stateNow quote with
  | ok state => exact ⟨state, rfl⟩
  | error failure =>
      rw [usable_eq_error.mpr checked] at usable
      cases usable

theorem usable_of_state {quote : Option Quote} {state : QuoteState}
    (checked : desk.stateNow quote = .ok state) : ∃ used, desk.usable quote = .ok used := by
  cases usable : desk.usable quote with
  | ok used => exact ⟨used, rfl⟩
  | error failure =>
      rw [usable_eq_error.mp usable] at checked
      cases checked

theorem finding_none_iff (pair : Pair) (desk : Desk) :
    desk.finding pair = .ok none ↔ PassedOver pair desk := by
  constructor
  · intro found
    obtain ⟨long, longFound, afterLong⟩ := bind_eq_ok found
    obtain ⟨short, shortFound, afterShort⟩ := bind_eq_ok afterLong
    obtain ⟨longUsed, longChecked, afterCheck⟩ := bind_eq_ok afterShort
    obtain ⟨shortUsed, shortChecked, computed⟩ := bind_eq_ok afterCheck
    have longAt := quote_at_ok.mp longFound
    have shortAt := quote_at_ok.mp shortFound
    cases longUsed with
    | none =>
        obtain ⟨longState, longState_eq, unusable⟩ := usable_eq_none.mp longChecked
        obtain ⟨shortState, shortState_eq⟩ := state_of_usable shortChecked
        exact .intro longAt shortAt longState_eq shortState_eq (.inl unusable)
    | some longQuote =>
        cases shortUsed with
        | none =>
            obtain ⟨shortState, shortState_eq, unusable⟩ := usable_eq_none.mp shortChecked
            obtain ⟨longState, longState_eq⟩ := state_of_usable longChecked
            exact .intro longAt shortAt longState_eq shortState_eq (.inr unusable)
        | some shortQuote =>
            rw [resultOfUsable] at computed
            cases from_ : resultFrom desk.fees pair longQuote shortQuote with
            | error failure => rw [from_] at computed; cases computed
            | ok result => rw [from_] at computed; cases computed
  · rintro ⟨longAt, shortAt, longChecked, shortChecked, invalid⟩
    obtain ⟨longUsed, longUsable⟩ := usable_of_state longChecked
    obtain ⟨shortUsed, shortUsable⟩ := usable_of_state shortChecked
    have found : desk.finding pair = resultOfUsable desk.fees pair longUsed shortUsed := by
      simp only [finding, quote_at_ok.mpr longAt, quote_at_ok.mpr shortAt, longUsable, shortUsable,
        bind, Except.bind]
    rw [found]
    rcases invalid with longInvalid | shortInvalid
    · rw [usable_eq_none.mpr ⟨_, longChecked, longInvalid⟩] at longUsable
      cases longUsable
      rfl
    · rw [usable_eq_none.mpr ⟨_, shortChecked, shortInvalid⟩] at shortUsable
      cases shortUsable
      cases longUsed <;> rfl

theorem evaluate_found {result : SpreadResult} (found : desk.finding pair = .ok (some result)) :
    ((evaluate pair).ending desk).1 = .ok (.result result) ∨
      ∃ failure, ((evaluate pair).ending desk).1 = .error failure ∧ Stray failure := by
  obtain ⟨middle, -, settled_ends, refused_ends⟩ := evaluate_settles found
  cases settles : (settle result).ending middle with
  | mk settled last =>
  cases settled with
  | ok _ =>
      rw [settled_ends last settles]
      exact .inl rfl
  | error failure =>
      have stray : Stray failure := settle_fails result middle failure (by rw [settles])
      rw [refused_ends failure last settles stray]
      exact .inr ⟨failure, rfl, stray⟩

/-- An evaluation answers with a result only if it has found that result. -/
theorem finding_of_result {result : SpreadResult}
    (ended : ((evaluate pair).ending desk).1 = .ok (.result result)) :
    desk.finding pair = .ok (some result) := by
  cases found : desk.finding pair with
  | error failure =>
      obtain ⟨next, failed, -⟩ := evaluate_failed found
      rw [failed] at ended
      cases ended
  | ok signal =>
  cases signal with
  | none =>
      obtain ⟨next, passed, -⟩ := evaluate_passed_over found
      rw [passed] at ended
      cases ended
  | some other =>
      rcases evaluate_found found with same | ⟨failure, failed, -⟩
      · rw [same] at ended
        cases ended
        rfl
      · rw [failed] at ended
        cases ended

/-- An evaluation ends without a signal exactly if both quotes can be checked and not both can be
used. It then counts itself and the missing signal, and leaves the fees, the fetcher's requests, the
water marks and the sinks with their files alone. After an engine error it has counted itself and
the failure, and has at most added fees that it fetched to the cache. -/
theorem evaluate_without_result (pair : Pair) (desk : Desk) :
    ((∃ other, ((evaluate pair).ending desk).1 = .ok (.noSignal other)) ↔ PassedOver pair desk) ∧
    (∀ other, ((evaluate pair).ending desk).1 = .ok (.noSignal other) →
      other = pair ∧
      ((evaluate pair).ending desk).2.steady = desk.countEvaluation.countNoSignal.steady ∧
      ((evaluate pair).ending desk).2.fees = desk.fees) ∧
    ∀ error, ((evaluate pair).ending desk).1 = .error (.engine error) →
      ((evaluate pair).ending desk).2.steady = desk.countEvaluation.countFailure.steady ∧
      desk.fees.Grown (Fetched pair desk.fees) ((evaluate pair).ending desk).2.fees := by
  rw [← finding_none_iff]
  cases found : desk.finding pair with
  | error failure =>
      obtain ⟨next, ended, steady, fees⟩ := evaluate_failed found
      rw [ended]
      refine ⟨by simp, by simp, ?_⟩
      rintro error ⟨⟩
      refine ⟨steady, ?_⟩
      rcases fees with same | asked
      · exact .of_cache (by rw [same]) (by rw [same]) (by rw [same])
      · rw [asked]
        exact fees_asked_grown pair desk.fees
  | ok signal =>
  cases signal with
  | none =>
      obtain ⟨next, ended, steady, fees⟩ := evaluate_passed_over found
      rw [ended]
      refine ⟨by simp, ?_, by simp⟩
      rintro other ⟨⟩
      exact ⟨rfl, steady, fees⟩
  | some result =>
      rcases evaluate_found found with settled | ⟨failure, ended, stray⟩
      · rw [settled]
        simp
      · rw [ended]
        refine ⟨by simp, by simp, ?_⟩
        rintro error ⟨⟩
        cases stray

/-- Quotes on two exchanges, an empty cache, and a fetcher that has a fee for one of the two. -/
def feelessDesk : Desk where
  quotes := {
    window := { maxAge := .int 5, maxSkew := .int 2 }
    quotes := [
      (("okx", "BTC/USD"),
        some { ask := some (.finite false 20000 (-2)), bid := some (.finite false 19990 (-2)) }),
      (("bybit", "BTC/USD"),
        some { ask := some (.finite false 20060 (-2)), bid := some (.finite false 20050 (-2)) })] }
  fees := { fetcher := some fun _ request =>
    if request.exchange = "okx" then .ok (.text "0.001") else .error (.source "no fee") }
  outlets := { clock := { wall := 63844891200000000 } }

theorem feeless_evaluations_keep_books :
    (((evaluate ⟨"okx", "kraken", "BTC/USD"⟩).ending feelessDesk).2.steady =
        feelessDesk.countEvaluation.countNoSignal.steady ∧
      ((evaluate ⟨"okx", "kraken", "BTC/USD"⟩).ending feelessDesk).2.fees.requests = []) ∧
    (((evaluate ⟨"okx", "bybit", "BTC/USD"⟩).ending feelessDesk).2.steady =
        feelessDesk.countEvaluation.countFailure.steady ∧
      ((evaluate ⟨"okx", "bybit", "BTC/USD"⟩).ending feelessDesk).2.fees.cache =
        [(("okx", "BTC/USD"), .finite false 1 (-3))]) := by
  have passedOver : PassedOver ⟨"okx", "kraken", "BTC/USD"⟩ feelessDesk :=
    .intro rfl rfl rfl rfl (.inr (by decide : QuoteState.missing ≠ .usable))
  obtain ⟨error, failed⟩ : ∃ error,
      ((evaluate ⟨"okx", "bybit", "BTC/USD"⟩).ending feelessDesk).1 = .error (.engine error) := by
    have engine : (match ((evaluate ⟨"okx", "bybit", "BTC/USD"⟩).ending feelessDesk).1 with
      | .error failure => isEngineError failure
      | .ok _ => false) = true := by decide +kernel
    split at engine
    · rename_i failure ended
      cases failure with
      | engine error => exact ⟨error, ended⟩
      | _ => cases engine
    · cases engine
  obtain ⟨ends, noSignal, -⟩ := evaluate_without_result ⟨"okx", "kraken", "BTC/USD"⟩ feelessDesk
  obtain ⟨-, -, engine⟩ := evaluate_without_result ⟨"okx", "bybit", "BTC/USD"⟩ feelessDesk
  obtain ⟨other, ended⟩ := ends.mpr passedOver
  obtain ⟨-, steady, fees⟩ := noSignal other ended
  exact ⟨⟨steady, by rw [fees]; rfl⟩, (engine error failed).1, by decide +kernel⟩

end Desk

end SpreadWatch
