import SpreadWatch.Proofs.Desk.FeeCalls
import SpreadWatch.Proofs.Spread.Answer

/-!
What the fetcher answers and what is cached. A fee that is fetched goes into the cache as it is,
whether or not it lies in [0, 1). So the cached fees are fractions as long as all fees that the
fetcher has answered with are. One that is not stays in the cache and fails every evaluation that
needs it, whatever the fetcher would answer by then.
-/

namespace SpreadWatch

open SpreadWatch.Action

theorem call_of_latest {calls : List FeeCall} {place : String × String} {fee : Decimal}
    (latest : latestFee calls place = some fee) :
    ∃ call ∈ calls, call.place = place ∧ call.fee? = some fee := by
  obtain ⟨call, member, found⟩ := List.exists_of_findSome?_eq_some latest
  split_ifs at found with here
  exact ⟨call, member, here, found⟩

namespace FeeSource

variable {source start : FeeSource} {fetch : Fetcher} {request : FeeRequest}
  {calls : List FeeCall}

/-! ### Where cached fees come from -/

/-- A history after which every cached fee is the latest one that a call has got for its place. -/
structure FromAnswers (fetch : Fetcher) (start : FeeSource) (calls : List FeeCall)
    (source : FeeSource) : Prop extends Called fetch start calls source where
  latest : ∀ (place : String × String) fee,
    source.cache.get? place.1 place.2 = some fee → latestFee calls place = some fee

theorem FromAnswers.nothing (fetcher : start.fetcher = some fetch) (empty : start.cache = []) :
    FromAnswers fetch start [] start := by
  refine ⟨.nothing fetcher, fun place fee cached => ?_⟩
  rw [empty] at cached
  cases cached

theorem FromAnswers.call (history : FromAnswers fetch start calls source) (request : FeeRequest) :
    FromAnswers fetch start (callFor fetch source request :: calls)
      (source.called (callFor fetch source request)) := by
  refine ⟨history.toCalled.call request, fun place fee cached => ?_⟩
  rw [called_cache] at cached
  rw [latestFee, List.findSome?_cons, ← latestFee]
  split at cached
  · rename_i here
    rw [if_pos here]
    cases got : (callFor fetch source request).fee? with
    | none =>
        rw [got] at cached
        exact history.latest place fee cached
    | some other =>
        rw [got] at cached
        exact cached
  · rename_i elsewhere
    rw [if_neg elsewhere]
    exact history.latest place fee cached

theorem FromAnswers.clear (history : FromAnswers fetch start calls source) :
    FromAnswers fetch start calls source.clear :=
  ⟨⟨history.fetcher, history.made⟩, fun place fee cached => by cases cached⟩

/-! ### Invariants of a source -/

/-- A property that a source keeps whatever is done to it, other than setting a fee. -/
structure Invariant (Kept : FeeSource → Prop) : Prop where
  fetch : ∀ {source} request, Kept source → Kept ((FeeSource.fetch request).ending source).2
  clear : ∀ {source}, Kept source → Kept source.clear

theorem Invariant.after_asking {Kept : FeeSource → Prop} (invariant : Invariant Kept)
    (kept : Kept source) (requests : List FeeRequest) : Kept (source.afterAsking requests) := by
  induction requests generalizing source with
  | nil => exact kept
  | cons request rest induction =>
      have next : Kept (source.resolve request).2 := by
        cases known : source.cache.get? request.exchange request.instrument with
        | some fee =>
            rw [resolve_of_known known]
            exact kept
        | none =>
            rw [resolve_of_unknown known]
            exact invariant.fetch request kept
      exact induction next

theorem from_answers_invariant (fetch : Fetcher) (start : FeeSource) :
    Invariant fun source => ∃ calls, FromAnswers fetch start calls source := by
  constructor
  · rintro source request ⟨calls, history⟩
    rw [fetch_of_fetcher history.fetcher]
    exact ⟨_, history.call request⟩
  · rintro source ⟨calls, history⟩
    exact ⟨calls, history.clear⟩

/-! ### Fractions -/

def FractionsAt (places : Set (String × String)) (source : FeeSource) : Prop :=
  ∀ place ∈ places, ∀ fee, source.cache.get? place.1 place.2 = some fee → Spread.Charged fee

/-- From now on, the fetcher answers all requests for certain places with fees in [0, 1). -/
def RecoveredAt (places : Set (String × String)) (fetch : Fetcher) (source : FeeSource) : Prop :=
  ∀ request, FeeRequest.place request ∈ places → ∀ more, ∃ fee,
    FeeCall.fee? ⟨request, fetch (more ++ source.requests) request⟩ = some fee ∧
      Spread.Charged fee

theorem FromAnswers.fractions_at {places : Set (String × String)}
    (history : FromAnswers fetch start calls source)
    (fractions : ∀ call ∈ calls, call.place ∈ places → ∀ fee, call.fee? = some fee →
      Spread.Charged fee) : source.FractionsAt places := by
  intro place among fee cached
  obtain ⟨call, member, rfl, got⟩ := call_of_latest (history.latest place fee cached)
  exact fractions call member among fee got

structure Fractional (places : Set (String × String)) (fetch : Fetcher) (source : FeeSource) :
    Prop where
  fetcher : source.fetcher = some fetch
  fractions : source.FractionsAt places
  recovered : source.RecoveredAt places fetch

theorem fractional_invariant (places : Set (String × String)) (fetch : Fetcher) :
    Invariant (Fractional places fetch) := by
  constructor
  · intro source request fractional
    rw [fetch_of_fetcher fractional.fetcher]
    refine ⟨fractional.fetcher, fun place among fee cached => ?_, fun other among more => ?_⟩
    · rw [called_cache] at cached
      split at cached
      · rename_i here
        rw [← here] at among
        obtain ⟨fraction, got, charged⟩ := fractional.recovered request among []
        have same : (callFor fetch source request).fee? = some fraction := got
        rw [same] at cached
        cases cached
        exact charged
      · exact fractional.fractions place among fee cached
    · obtain ⟨fee, got, charged⟩ := fractional.recovered other among (more ++ [request])
      rw [List.append_assoc] at got
      exact ⟨fee, got, charged⟩
  · intro source fractional
    refine ⟨fractional.fetcher, fun place among fee cached => ?_, fractional.recovered⟩
    cases cached

theorem Fractional.resolve {places : Set (String × String)}
    (fractional : Fractional places fetch source) (among : request.place ∈ places) :
    ∃ fee, (source.resolve request).1 = .ok fee ∧ Spread.Charged fee := by
  obtain ⟨fraction, answered, charged⟩ := fractional.recovered request among []
  have lookup := looked_up fractional.fetcher request
  generalize (source.resolve request).1 = answer, (source.resolve request).2 = next at lookup
  cases lookup with
  | known held => exact ⟨_, rfl, fractional.fractions request.place among _ held⟩
  | fetched absent got =>
      cases answered.symm.trans got
      exact ⟨_, rfl, charged⟩
  | failed absent nothing surfaces => cases answered.symm.trans nothing

theorem after_asking_holds {exchange instrument : String} {fee : Decimal}
    (held : source.cache.get? exchange instrument = some fee) (requests : List FeeRequest) :
    (source.afterAsking requests).cache.get? exchange instrument = some fee := by
  induction requests generalizing source with
  | nil => exact held
  | cons request rest induction =>
      exact induction ((source.resolve_grown request).kept exchange instrument fee held)

end FeeSource

namespace Desk

open FeeSource

variable {desk reached : Desk} {pair : Pair} {fetch : Fetcher}

/-! ### Evaluations -/

def feePlaces (pair : Pair) : Set (String × String) :=
  {place | ∃ request ∈ [longRequest pair, shortRequest pair], request.place = place}

theorem finding_of_fractional (fractional : Fractional (feePlaces pair) fetch desk.fees) :
    ∃ longFee shortFee, Spread.Charged longFee ∧ Spread.Charged shortFee ∧
      desk.finding pair = desk.findingWith pair longFee shortFee := by
  have next := (fractional_invariant (feePlaces pair) fetch).after_asking fractional
    [longRequest pair]
  obtain ⟨longFee, longFound, longCharged⟩ :=
    fractional.resolve ⟨longRequest pair, by simp, rfl⟩
  obtain ⟨shortFee, shortFound, shortCharged⟩ :=
    next.resolve ⟨shortRequest pair, by simp, rfl⟩
  exact ⟨longFee, shortFee, longCharged, shortCharged, finding_of_resolved longFound shortFound⟩

/-- Behind a result are two fees that lie in [0, 1). -/
theorem charged_of_finding {result : SpreadResult}
    (found : desk.finding pair = .ok (some result)) :
    ∃ longFee shortFee, (desk.fees.resolve (longRequest pair)).1 = .ok longFee ∧
      ((desk.fees.resolve (longRequest pair)).2.resolve (shortRequest pair)).1 = .ok shortFee ∧
      Spread.Charged longFee ∧ Spread.Charged shortFee := by
  obtain ⟨long, short, computed⟩ := result_from_of_finding found
  obtain ⟨longFee, longFound, afterLong⟩ := bind_eq_ok computed
  obtain ⟨shortFee, shortFound, afterShort⟩ := bind_eq_ok afterLong
  obtain ⟨⟨entry, exit⟩, spreads, -⟩ := bind_eq_ok afterShort
  obtain ⟨legs, -, longIs, -, shortIs, answered⟩ :=
    Spread.legs_of_answer (legs_of_spreads spreads).1
  obtain ⟨valid, -⟩ := Spread.Legs.prices_of_answer answered
  cases longIs
  cases shortIs
  exact ⟨_, _, longFound, shortFound, valid.longCharged, valid.shortCharged⟩

/-- No evaluation succeeds that needs a cached fee outside [0, 1). -/
theorem fails_of_excess {long short : Quote} {place : String × String} {fee : Decimal}
    (held : desk.fees.cache.get? place.1 place.2 = some fee) (excess : ¬ Spread.Charged fee)
    (needed : place ∈ feePlaces pair)
    (quotes : desk.usableQuotes pair = .ok (some long, some short)) :
    ∃ failure, desk.outcome pair = .error failure := by
  have computed := finding_of_usable quotes
  cases found : resultFrom desk.fees pair long short with
  | error failure => exact ⟨failure, outcome_of_failed (by rw [computed, found]; rfl)⟩
  | ok result =>
      rw [found] at computed
      obtain ⟨longFee, shortFee, longFound, shortFound, longCharged, shortCharged⟩ :=
        charged_of_finding computed
      obtain ⟨request, member, rfl⟩ := needed
      have later := (desk.fees.resolve_grown (longRequest pair)).kept _ _ _ held
      simp only [List.mem_cons, List.not_mem_nil, or_false] at member
      rcases member with rfl | rfl
      · rw [resolve_of_known held] at longFound
        cases longFound
        exact absurd longCharged excess
      · rw [resolve_of_known later] at shortFound
        cases shortFound
        exact absurd shortCharged excess

/-! ### Runs -/

theorem AskedOver.keeps {Kept : FeeSource → Prop} (invariant : Invariant Kept)
    {turns : List (Pair × Desk)} {last : Desk} (asked : AskedOver turns desk last)
    (kept : Kept desk.fees) : Kept last.fees ∧ ∀ turn ∈ turns, Kept turn.2.fees := by
  constructor
  · rw [asked.last]
    exact invariant.after_asking kept _
  · rintro ⟨pair, middle⟩ member
    obtain ⟨earlier, later, split⟩ := List.append_of_mem member
    rw [asked.each earlier pair middle later split]
    exact invariant.after_asking kept _

theorem dealing_keeps {Kept : FeeSource → Prop} (invariant : Invariant Kept)
    (kept : Kept desk.fees) (dealing : Dealing) :
    Kept (dealing.after desk).fees ∧ ∀ turn ∈ dealing.turns desk, Kept turn.2.fees := by
  cases dealing with
  | evaluate pair => exact (AskedOver.one (evaluate_fees pair desk)).keeps invariant kept
  | evaluateAll pairs => exact (cycle_asked _ desk).keeps invariant kept
  | fetchFee request =>
      obtain ⟨next, ended, fees, -⟩ := fetch_fee_ending request desk
      rw [Dealing.after, ended, fees]
      exact ⟨invariant.fetch request kept, fun turn none => by cases none⟩
  | clearFees => exact ⟨invariant.clear kept, fun turn none => by cases none⟩
  | change other => exact ⟨kept, fun turn none => by cases none⟩

theorem dealings_keep {Kept : FeeSource → Prop} (invariant : Invariant Kept)
    (kept : Kept desk.fees) (dealings : List Dealing) :
    Kept (afterDealings dealings desk).fees ∧
      ∀ turn ∈ dealingTurns dealings desk, Kept turn.2.fees := by
  induction dealings generalizing desk with
  | nil => exact ⟨kept, fun turn none => by cases none⟩
  | cons dealing rest induction =>
      obtain ⟨next, first⟩ := dealing_keeps invariant kept dealing
      obtain ⟨last, later⟩ := induction next
      refine ⟨last, fun turn member => ?_⟩
      rcases List.mem_append.mp member with early | late
      · exact first turn early
      · exact later turn late

/-- Whatever a fetcher answers over time, every cached fee is the fee of its latest answer for the
exchange and the instrument that has had one, before every evaluation and at the end. So all cached
fees lie in [0, 1) if all fees that it has answered with do. If those for the places of a pair do,
and the fetcher answers with such fees from now on, every evaluation of the pair applies two of
them. But a cached fee outside [0, 1) remains over all evaluations, and each of them that needs it
for two usable quotes fails. -/
theorem cached_fees_are_answers (fetcher : desk.fees.fetcher = some fetch)
    (empty : desk.fees.cache = []) {dealings : List Dealing}
    (reaches : afterDealings dealings desk = reached) :
    (∀ turn ∈ dealingTurns dealings desk, ∃ past,
      FromAnswers fetch desk.fees past turn.2.fees) ∧
    ∃ answered, FromAnswers fetch desk.fees answered reached.fees ∧
      ((∀ call ∈ answered, ∀ fee, call.fee? = some fee → Spread.Charged fee) →
        reached.fees.FractionsAt Set.univ) ∧
      (∀ pair, (∀ call ∈ answered, call.place ∈ feePlaces pair → ∀ fee, call.fee? = some fee →
          Spread.Charged fee) →
        reached.fees.RecoveredAt (feePlaces pair) fetch →
        ∀ later middle, (pair, middle) ∈ dealingTurns later reached →
          ∃ longFee shortFee, Spread.Charged longFee ∧ Spread.Charged shortFee ∧
            middle.finding pair = middle.findingWith pair longFee shortFee) ∧
      ∀ (place : String × String) fee, reached.fees.cache.get? place.1 place.2 = some fee →
        ¬ Spread.Charged fee →
        ∀ {later : List Dealing}, (∀ dealing ∈ later, dealing.LeavesCache) →
          (afterDealings later reached).fees.cache.get? place.1 place.2 = some fee ∧
          ∀ pair middle long short, (pair, middle) ∈ dealingTurns later reached →
            place ∈ feePlaces pair → middle.usableQuotes pair = .ok (some long, some short) →
              ∃ failure, middle.outcome pair = .error failure := by
  subst reaches
  obtain ⟨⟨answered, history⟩, before⟩ := dealings_keep (from_answers_invariant fetch desk.fees)
    ⟨[], FromAnswers.nothing fetcher empty⟩ dealings
  refine ⟨before, answered, history, ?_, ?_, ?_⟩
  · exact fun fractions => history.fractions_at fun call member _ => fractions call member
  · intro pair fractions recovered later middle turn
    have fractional : Fractional (feePlaces pair) fetch (afterDealings dealings desk).fees :=
      ⟨history.fetcher, history.fractions_at fractions, recovered⟩
    have kept := (dealings_keep (fractional_invariant _ _) fractional later).2
    exact finding_of_fractional (kept (pair, middle) turn)
  · intro place fee cached excess later leave
    have turns := dealings_asked leave (afterDealings dealings desk)
    constructor
    · rw [turns.last]
      exact after_asking_holds cached _
    · intro pair middle long short turn needed quotes
      obtain ⟨first, rest, split⟩ := List.append_of_mem turn
      have held : middle.fees.cache.get? place.1 place.2 = some fee := by
        rw [turns.each first pair middle rest split]
        exact after_asking_holds cached _
      exact fails_of_excess held excess needed quotes

def onceExcessive : Fetcher := fun earlier _ =>
  .ok (.text (if earlier.isEmpty then "1.5" else "0.001"))

def overchargedDesk : Desk := { sidedDesk with fees := { fetcher := some onceExcessive } }

def overchargedDealings : List Dealing := [.fetchFee ⟨"okx", "BTC/USD", false⟩]

theorem overcharge_is_excess : ¬ Spread.Charged (.finite false 15 (-1)) := by
  rintro ⟨-, -, below⟩
  norm_num [Decimal.toRat, Decimal.signed] at below

def failedDealings : List Dealing := List.replicate 3 (.evaluate ⟨"okx", "bybit", "BTC/USD"⟩)

theorem late_requests : (afterDealings failedDealings lateDesk).fees.requests =
    List.replicate 3 (longRequest ⟨"okx", "bybit", "BTC/USD"⟩) := by
  decide +kernel

theorem late_fetcher_recovered (places : Set (String × String)) :
    (afterDealings failedDealings lateDesk).fees.RecoveredAt places lateFetcher := by
  intro request _ more
  have answered : lateFetcher
      (more ++ (afterDealings failedDealings lateDesk).fees.requests) request =
        .ok (.text "0.001") := by
    rw [late_requests, lateFetcher, List.length_append, List.length_replicate]
    rfl
  have converted : (Value.text "0.001").toDecimalByText.toOption = some (.finite false 1 (-3)) := by
    decide +kernel
  rw [answered]
  refine ⟨.finite false 1 (-3), converted, rfl, ?_, ?_⟩
  · norm_num [Decimal.toRat, Decimal.signed]
  · norm_num [Decimal.toRat, Decimal.signed]

/-- After three answers without a fee, an evaluation applies two fees in [0, 1). After one answer
with a fee of 1.5, three evaluations leave this fee in the cache. -/
theorem late_and_excessive_answers :
    (∃ longFee shortFee, Spread.Charged longFee ∧ Spread.Charged shortFee ∧
      (afterDealings failedDealings lateDesk).finding ⟨"okx", "bybit", "BTC/USD"⟩ =
        (afterDealings failedDealings lateDesk).findingWith ⟨"okx", "bybit", "BTC/USD"⟩ longFee
          shortFee) ∧
    (afterDealings failedDealings
        (afterDealings overchargedDealings overchargedDesk)).fees.cache.get? "okx" "BTC/USD" =
      some (.finite false 15 (-1)) := by
  constructor
  · obtain ⟨-, answered, history, -, applied, -⟩ := cached_fees_are_answers
      (show lateDesk.fees.fetcher = some lateFetcher from rfl) rfl
      (show afterDealings failedDealings lateDesk = _ from rfl)
    have feeless : ∀ call ∈ callsOf lateFetcher [] (List.replicate 3
        (longRequest ⟨"okx", "bybit", "BTC/USD"⟩)), call.fee? = none := by
      decide +kernel
    obtain ⟨asked, all, rfl⟩ := history.made
    rw [late_requests, show lateDesk.fees.requests = [] from rfl, List.append_nil] at all
    rw [← all] at applied
    refine applied ⟨"okx", "bybit", "BTC/USD"⟩ (fun call member _ fee got => ?_)
      (late_fetcher_recovered _) [.evaluate ⟨"okx", "bybit", "BTC/USD"⟩] _
      (List.mem_singleton.mpr rfl)
    rw [feeless call member] at got
    cases got
  · have cached : (afterDealings overchargedDealings overchargedDesk).fees.cache.get? "okx"
        "BTC/USD" = some (.finite false 15 (-1)) := by
      decide +kernel
    have leave : ∀ dealing ∈ failedDealings, dealing.LeavesCache := by
      simp [failedDealings, Dealing.LeavesCache]
    obtain ⟨-, answered, -, -, -, stays⟩ := cached_fees_are_answers
      (show overchargedDesk.fees.fetcher = some onceExcessive from rfl) rfl
      (show afterDealings overchargedDealings overchargedDesk = _ from rfl)
    exact (stays ("okx", "BTC/USD") _ cached overcharge_is_excess leave).1

/-- The fee of 1.5 is in the cache. The fetcher has gone back to a fee of 0.001, but an evaluation
fails for the cached one. It succeeds if the cache is emptied before. -/
theorem excess_is_cached :
    (afterDealings overchargedDealings overchargedDesk).fees.cache.get? "okx" "BTC/USD" =
        some (.finite false 15 (-1)) ∧
      ¬ Spread.Charged (.finite false 15 (-1)) ∧
      (∀ more request, onceExcessive
          (more ++ (afterDealings overchargedDealings overchargedDesk).fees.requests) request =
        .ok (.text "0.001")) ∧
      (match (afterDealings overchargedDealings overchargedDesk).outcome
          ⟨"okx", "bybit", "BTC/USD"⟩ with
        | .error (.engine error) => some error.cause.name
        | _ => none) = some "FeeOutOfRangeError" ∧
      (resultsOf ((afterDealings (overchargedDealings ++ [.clearFees]) overchargedDesk).outcome
          ⟨"okx", "bybit", "BTC/USD"⟩)).map (·.entry) =
        [some (.finite false 49700 (-8))] := by
  refine ⟨by decide +kernel, overcharge_is_excess, fun more request => ?_, by decide +kernel,
    by decide +kernel⟩
  have requests : (afterDealings overchargedDealings overchargedDesk).fees.requests =
      [⟨"okx", "BTC/USD", false⟩] := by
    decide +kernel
  rw [requests]
  cases more <;> rfl

end Desk

end SpreadWatch
