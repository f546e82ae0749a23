import SpreadWatch.Proofs.Desk.FeeSides

/-!
Calls of the fetcher. An evaluation calls the fetcher for the fees that are not in the cache. So
over any evaluations, the fetcher is called for a place until a call gets a fee, and never again. A
call that gets none ends the evaluation with its failure and leaves the place absent, so that the
next evaluation that comes to it calls the fetcher again.
-/

namespace SpreadWatch

open SpreadWatch.Action
open SpreadWatch.Desk (Stray)

/-! ### Calls and their fees -/

structure FeeCall where
  request : FeeRequest
  answer : Except Failure Value

namespace FeeCall

def place (call : FeeCall) : String × String := call.request.place

/-- The fee that a call gets. There is none if the fetcher fails, in null, and in a value whose text
is no decimal. -/
def fee? (call : FeeCall) : Option Decimal :=
  match call.answer with
  | .ok .null => none
  | .ok value => value.toDecimalByText.toOption
  | .error _ => none

/-- How a call without a fee shows: as the engine error that the fetcher has failed with, and else
as a fee that is unavailable for the exchange, the instrument and the side of the request. -/
inductive Surfaces (call : FeeCall) : Failure → Prop
  | engine {error : EngineError} (raised : call.answer = .error (.engine error)) :
      Surfaces call (.engine error)
  | unavailable {message : String} (other : ∀ error, call.answer ≠ .error (.engine error)) :
      Surfaces call (.ofCause (.feeUnavailable (.text call.request.exchange)
        (.text call.request.instrument) (.bool call.request.isBuy)) message)

theorem fee_of_answer (call : FeeCall) :
    call.fee? = (call.answer >>= FeeSource.feeIn).toOption.join := by
  unfold fee?
  rcases call.answer with failure | value
  · rfl
  · cases value with
    | null => rfl
    | _ =>
        simp only [bind, Except.bind, FeeSource.feeIn]
        cases Value.toDecimalByText _ <;> rfl

theorem answer_of_fee {call : FeeCall} {fee : Decimal} (got : call.fee? = some fee) :
    call.answer >>= FeeSource.feeIn = .ok (some fee) := by
  rw [fee_of_answer] at got
  cases fees : call.answer >>= FeeSource.feeIn with
  | error failure =>
      rw [fees] at got
      cases got
  | ok found =>
      rw [fees] at got
      exact congrArg _ got

theorem by_text_fails (value : Value) : FailsWith Stray value.toDecimalByText := by
  apply FailsWith.bind
  · unfold Value.written
    split
    · exact .ok _
    · exact .error rfl
  · intro text _
    exact .lift fun signal => rfl

theorem fee_in_fails (value : Value) : FailsWith Stray (FeeSource.feeIn value) := by
  unfold FeeSource.feeIn
  split
  · exact .ok _
  · exact (by_text_fails value).map some

theorem surfaces_of_no_fee (call : FeeCall) (nothing : call.fee? = none) :
    ∃ failure, FeeSource.answerOf call.request (call.answer >>= FeeSource.feeIn) =
      .error failure ∧ call.Surfaces failure := by
  rw [fee_of_answer] at nothing
  cases answered : call.answer with
  | error failure =>
      cases failure with
      | engine error => exact ⟨_, rfl, .engine answered⟩
      | _ => exact ⟨_, rfl, .unavailable fun error => by rw [answered]; nofun⟩
  | ok value =>
      have raised : ∀ error, call.answer ≠ .error (.engine error) := by
        rw [answered]
        nofun
      rw [answered] at nothing
      change (FeeSource.feeIn value).toOption.join = _ at nothing
      change ∃ failure, FeeSource.answerOf call.request (FeeSource.feeIn value) = _ ∧ _
      cases got : FeeSource.feeIn value with
      | ok fee =>
          rw [got] at nothing
          cases nothing
          exact ⟨_, rfl, .unavailable raised⟩
      | error failure =>
          have stray := fee_in_fails value failure got
          cases failure with
          | engine error => cases stray
          | _ => exact ⟨_, rfl, .unavailable raised⟩

end FeeCall

/-- The fee of the latest call for a place that has got one. The latest calls come first. -/
def latestFee (calls : List FeeCall) (place : String × String) : Option Decimal :=
  calls.findSome? fun call => if call.place = place then call.fee? else none

namespace FeeSource

variable {source start next : FeeSource} {fetch : Fetcher} {request : FeeRequest}
  {calls : List FeeCall}

/-! ### One call -/

def callFor (fetch : Fetcher) (source : FeeSource) (request : FeeRequest) : FeeCall :=
  ⟨request, fetch source.requests request⟩

def called (source : FeeSource) (call : FeeCall) : FeeSource :=
  { source with
    requests := call.request :: source.requests
    cache := match call.fee? with
      | some fee => source.cache.set call.request.exchange call.request.instrument fee
      | none => source.cache }

theorem called_cache (source : FeeSource) (call : FeeCall) (place : String × String) :
    (source.called call).cache.get? place.1 place.2 =
      if call.place = place then call.fee?.or (source.cache.get? place.1 place.2)
      else source.cache.get? place.1 place.2 := by
  unfold called
  cases call.fee? with
  | none => simp
  | some fee =>
      simp only [FeeCache.get_set, Option.some_or]
      exact if_congr eq_comm rfl rfl

theorem ask_of_fetcher (fetcher : source.fetcher = some fetch) (request : FeeRequest) :
    (ask request).ending source = (fetch source.requests request,
      { source with requests := request :: source.requests }) := by
  obtain ⟨params, _, cache, requests⟩ := source
  cases fetcher
  rfl

theorem fetch_of_fetcher (fetcher : source.fetcher = some fetch) (request : FeeRequest) :
    (FeeSource.fetch request).ending source =
      ((callFor fetch source request).answer >>= feeIn,
        source.called (callFor fetch source request)) := by
  rw [FeeSource.fetch, ending_bind, ask_of_fetcher fetcher, called, FeeCall.fee?, callFor]
  rcases fetch source.requests request with failure | value
  · rfl
  · cases value with
    | null => rfl
    | _ =>
        simp only [bind, Except.bind, feeIn]
        cases Value.toDecimalByText _ <;> rfl

/-- A look-up of a fee: how it ends, and what it leaves. The fetcher is called for a place that the
cache does not hold, and only then. -/
inductive LookedUp (fetch : Fetcher) (request : FeeRequest) (source : FeeSource) :
    Except Failure Decimal → FeeSource → Prop
  | known {fee : Decimal}
      (held : source.cache.get? request.exchange request.instrument = some fee) :
      LookedUp fetch request source (.ok fee) source
  | fetched {fee : Decimal}
      (absent : source.cache.get? request.exchange request.instrument = none)
      (got : (callFor fetch source request).fee? = some fee) :
      LookedUp fetch request source (.ok fee) { source with
        requests := request :: source.requests
        cache := source.cache.set request.exchange request.instrument fee }
  | failed {failure : Failure}
      (absent : source.cache.get? request.exchange request.instrument = none)
      (nothing : (callFor fetch source request).fee? = none)
      (surfaces : (callFor fetch source request).Surfaces failure) :
      LookedUp fetch request source (.error failure)
        { source with requests := request :: source.requests }

theorem looked_up (fetcher : source.fetcher = some fetch) (request : FeeRequest) :
    LookedUp fetch request source (source.resolve request).1 (source.resolve request).2 := by
  cases known : source.cache.get? request.exchange request.instrument with
  | some fee =>
      rw [resolve_of_known known]
      exact .known known
  | none =>
      rw [resolve_of_unknown known, fetch_of_fetcher fetcher]
      cases got : (callFor fetch source request).fee? with
      | none =>
          obtain ⟨failure, failed, surfaces⟩ := FeeCall.surfaces_of_no_fee _ got
          have ended : answerOf request ((callFor fetch source request).answer >>= feeIn) =
              .error failure := failed
          rw [ended, called, got]
          exact .failed known got surfaces
      | some fee =>
          rw [FeeCall.answer_of_fee got, called, got]
          exact .fetched known got

/-- A look-up leaves a source as it was, or as it is after one call for an absent place. -/
theorem LookedUp.leaves {answer : Except Failure Decimal}
    (lookup : LookedUp fetch request source answer next) :
    next = source ∨ source.cache.get? request.exchange request.instrument = none ∧
      next = source.called (callFor fetch source request) := by
  cases lookup with
  | known held => exact .inl rfl
  | fetched absent got => exact .inr ⟨absent, by rw [called, got]; rfl⟩
  | failed absent nothing surfaces => exact .inr ⟨absent, by rw [called, nothing]; rfl⟩

/-! ### Histories of calls -/

/-- The calls of a fetcher for some requests after certain ones before, the latest first. -/
def callsOf (fetch : Fetcher) (before : List FeeRequest) : List FeeRequest → List FeeCall
  | [] => []
  | request :: earlier => ⟨request, fetch (earlier ++ before) request⟩ ::
      callsOf fetch before earlier

/-- The calls of the fetcher between two states of a source, the latest first. -/
structure Called (fetch : Fetcher) (start : FeeSource) (calls : List FeeCall)
    (source : FeeSource) : Prop where
  fetcher : source.fetcher = some fetch
  made : ∃ asked, source.requests = asked ++ start.requests ∧
    calls = callsOf fetch start.requests asked

theorem Called.nothing (fetcher : start.fetcher = some fetch) : Called fetch start [] start :=
  ⟨fetcher, [], rfl, rfl⟩

theorem Called.call (history : Called fetch start calls source) (request : FeeRequest) :
    Called fetch start (callFor fetch source request :: calls)
      (source.called (callFor fetch source request)) := by
  obtain ⟨asked, all, rfl⟩ := history.made
  refine ⟨history.fetcher, request :: asked, by rw [called, all]; rfl, ?_⟩
  rw [callsOf, callFor, all]

theorem calls_of_requests (fetch : Fetcher) (before asked : List FeeRequest) :
    (callsOf fetch before asked).map FeeCall.request = asked := by
  induction asked with
  | nil => rfl
  | cons request earlier induction => rw [callsOf, List.map_cons, induction]

theorem Called.requests (history : Called fetch start calls source) :
    source.requests = calls.map FeeCall.request ++ start.requests := by
  obtain ⟨asked, all, rfl⟩ := history.made
  rw [all, calls_of_requests]

theorem Called.unique {others : List FeeCall} (history : Called fetch start calls source)
    (other : Called fetch start others source) : others = calls := by
  obtain ⟨asked, all, rfl⟩ := history.made
  obtain ⟨askedToo, allToo, rfl⟩ := other.made
  rw [all] at allToo
  rw [List.append_cancel_right allToo]

/-- What a cache holds for a place after some calls if no entry is ever replaced: what it has held
at the start, and else the fee of a call. -/
def holding (start : FeeSource) (calls : List FeeCall) (place : String × String) :
    Option Decimal :=
  (start.cache.get? place.1 place.2).or (latestFee calls place)

/-- A history in which the fetcher has been called for absent places only, and nothing else has
changed the cache. -/
structure CacheFirst (fetch : Fetcher) (start : FeeSource) (calls : List FeeCall)
    (source : FeeSource) : Prop extends Called fetch start calls source where
  cached : ∀ place : String × String,
    source.cache.get? place.1 place.2 = start.holding calls place
  absent : ∀ later call earlier, calls = later ++ call :: earlier →
    start.holding earlier call.place = none

theorem CacheFirst.nothing (fetcher : start.fetcher = some fetch) :
    CacheFirst fetch start [] start where
  toCalled := .nothing fetcher
  cached := fun place => by simp [holding, latestFee]
  absent := fun later call earlier none => by simp at none

theorem holding_call (start : FeeSource) (call : FeeCall) (calls : List FeeCall)
    (absent : start.holding calls call.place = none) (place : String × String) :
    start.holding (call :: calls) place =
      if call.place = place then call.fee? else start.holding calls place := by
  unfold holding latestFee at *
  rw [List.findSome?_cons]
  by_cases here : call.place = place
  · subst here
    rw [Option.or_eq_none_iff] at absent
    rw [if_pos rfl, if_pos rfl, absent.1, absent.2]
    cases call.fee? <;> rfl
  · rw [if_neg here, if_neg here]

theorem CacheFirst.call (history : CacheFirst fetch start calls source)
    (absent : source.cache.get? request.exchange request.instrument = none) :
    CacheFirst fetch start (callFor fetch source request :: calls)
      (source.called (callFor fetch source request)) := by
  have unheld : start.holding calls (callFor fetch source request).place = none := by
    rw [← history.cached]
    exact absent
  refine ⟨history.toCalled.call request, fun place => ?_, ?_⟩
  · rw [called_cache, holding_call start _ calls unheld, history.cached]
    split
    · rename_i here
      rw [← here, unheld, Option.or_none]
    · rfl
  · rintro (_ | ⟨latest, later⟩) call earlier split
    · cases split
      exact unheld
    · cases split
      exact history.absent later call earlier rfl

/-- A look-up calls the fetcher at most once. -/
theorem CacheFirst.looked_up {answer : Except Failure Decimal}
    (history : CacheFirst fetch start calls source)
    (lookup : LookedUp fetch request source answer next) :
    ∃ more, CacheFirst fetch start (more ++ calls) next := by
  rcases lookup.leaves with rfl | ⟨absent, rfl⟩
  · exact ⟨[], history⟩
  · exact ⟨[callFor fetch source request], history.call absent⟩

theorem CacheFirst.after_asking (history : CacheFirst fetch start calls source)
    (requests : List FeeRequest) :
    ∃ more, CacheFirst fetch start (more ++ calls) (source.afterAsking requests) := by
  induction requests generalizing source calls with
  | nil => exact ⟨[], history⟩
  | cons request rest induction =>
      obtain ⟨first, next⟩ := history.looked_up (FeeSource.looked_up history.fetcher request)
      obtain ⟨more, last⟩ := induction next
      exact ⟨more ++ first, by rw [List.append_assoc]; exact last⟩

/-- Once a call has got a fee, the fetcher is not called for its place again. -/
theorem CacheFirst.once {later earlier : List FeeCall} {call : FeeCall}
    (history : CacheFirst fetch start calls source) (split : calls = later ++ call :: earlier)
    {fee : Decimal} (got : call.fee? = some fee) :
    ∀ other ∈ later, other.place ≠ call.place := by
  intro other member same
  obtain ⟨newer, between, rfl⟩ := List.append_of_mem member
  have absent := history.absent newer other (between ++ call :: earlier) (by simp [split])
  rw [holding, Option.or_eq_none_iff, latestFee, List.findSome?_eq_none_iff] at absent
  have missed := absent.2 call (by simp)
  rw [if_pos same.symm, got] at missed
  cases missed

theorem CacheFirst.still_absent {later earlier : List FeeCall} {call : FeeCall}
    (history : CacheFirst fetch start calls source) (split : calls = later ++ call :: earlier)
    (nothing : call.fee? = none) : start.holding (call :: earlier) call.place = none := by
  rw [holding_call start call earlier (history.absent later call earlier split), if_pos rfl,
    nothing]

end FeeSource

namespace Desk

open FeeSource

variable {desk : Desk} {pair : Pair} {fetch : Fetcher}

/-! ### Evaluations -/

/-- What an evaluation of a pair does about fees, how it ends, and what it leaves of the source.
Nothing is looked up without two usable quotes. With them, the long side is looked up, and then, if
it has a fee, the short side. A look-up without a fee ends the evaluation. -/
inductive Billed (fetch : Fetcher) (pair : Pair) (desk : Desk) :
    Except Failure Outcome → FeeSource → Prop
  | unasked {ended : Except Failure Outcome}
      (unusable : ∀ long short, desk.usableQuotes pair ≠ .ok (some long, some short)) :
      Billed fetch pair desk ended desk.fees
  | long {long short : Quote} {failure : Failure} {next : FeeSource}
      (quotes : desk.usableQuotes pair = .ok (some long, some short))
      (missed : LookedUp fetch (longRequest pair) desk.fees (.error failure) next) :
      Billed fetch pair desk (.error failure) next
  | short {long short : Quote} {longFee : Decimal} {failure : Failure} {middle next : FeeSource}
      (quotes : desk.usableQuotes pair = .ok (some long, some short))
      (found : LookedUp fetch (longRequest pair) desk.fees (.ok longFee) middle)
      (missed : LookedUp fetch (shortRequest pair) middle (.error failure) next) :
      Billed fetch pair desk (.error failure) next
  | both {long short : Quote} {longFee shortFee : Decimal} {ended : Except Failure Outcome}
      {middle next : FeeSource} (quotes : desk.usableQuotes pair = .ok (some long, some short))
      (longFound : LookedUp fetch (longRequest pair) desk.fees (.ok longFee) middle)
      (shortFound : LookedUp fetch (shortRequest pair) middle (.ok shortFee) next)
      (applied : desk.finding pair = desk.findingWith pair longFee shortFee) :
      Billed fetch pair desk ended next

theorem finding_of_usable {long short : Quote}
    (quotes : desk.usableQuotes pair = .ok (some long, some short)) :
    desk.finding pair = (resultFrom desk.fees pair long short).map some := by
  rw [finding_of_quotes, quotes]
  rfl

theorem outcome_of_failed {failure : Failure} (found : desk.finding pair = .error failure) :
    desk.outcome pair = .error failure := by
  obtain ⟨next, ended, -⟩ := evaluate_failed found
  rw [outcome, ended]

theorem evaluate_billed (fetcher : desk.fees.fetcher = some fetch) (pair : Pair) :
    Billed fetch pair desk (desk.outcome pair) ((evaluate pair).ending desk).2.fees := by
  rw [evaluate_fees]
  by_cases quotes : ∃ long short, desk.usableQuotes pair = .ok (some long, some short)
  · obtain ⟨long, short, quotes⟩ := quotes
    have longLookup := looked_up fetcher (longRequest pair)
    have found := finding_of_usable quotes
    rw [after_asking_both quotes, feesAsked]
    cases longAnswer : desk.fees.resolve (longRequest pair) with
    | mk longFound middle =>
    rw [longAnswer] at longLookup
    cases longFound with
    | error failure =>
        have failed : desk.finding pair = .error failure := by
          rw [found, resultFrom, longAnswer]
          rfl
        rw [outcome_of_failed failed]
        exact .long quotes longLookup
    | ok longFee =>
        have kept : middle.fetcher = some fetch := by
          have grown := desk.fees.resolve_grown (longRequest pair)
          rw [longAnswer] at grown
          exact grown.fetcher.trans fetcher
        have shortLookup := looked_up kept (shortRequest pair)
        cases shortAnswer : (middle.resolve (shortRequest pair)).1 with
        | error failure =>
            have failed : desk.finding pair = .error failure := by
              rw [found, resultFrom, longAnswer]
              simp only [bind, Except.bind, shortAnswer, Except.map]
            rw [shortAnswer] at shortLookup
            rw [outcome_of_failed failed]
            exact .short quotes longLookup shortLookup
        | ok shortFee =>
            rw [shortAnswer] at shortLookup
            have longFound : (desk.fees.resolve (longRequest pair)).1 = .ok longFee := by
              rw [longAnswer]
            refine .both quotes longLookup shortLookup (finding_of_resolved longFound ?_)
            rw [longAnswer]
            exact shortAnswer
  · have nothing : asks pair desk = [] := by
      unfold asks
      split
      · rename_i long short usable
        exact absurd ⟨long, short, usable⟩ quotes
      · rfl
    rw [nothing]
    exact .unasked fun long short usable => quotes ⟨long, short, usable⟩

/-! ### Runs -/

/-- An evaluation, a cycle, a fee that is fetched past the cache, an emptying of the cache, or a
change of anything but the fees: of quotes and outages, of the clock, of pairs and sinks. -/
inductive Dealing where
  | evaluate (pair : Pair)
  | evaluateAll (pairs : Option (List Pair))
  | fetchFee (request : FeeRequest)
  | clearFees
  | change (other : Desk)

def Dealing.after (desk : Desk) : Dealing → Desk
  | .evaluate pair => ((Desk.evaluate pair).ending desk).2
  | .evaluateAll pairs => ((Desk.evaluateAll (desk.cyclePairs pairs)).ending desk).2
  | .fetchFee request => ((Desk.fetchFee request).ending desk).2
  | .clearFees => { desk with fees := desk.fees.clear }
  | .change other => { other with fees := desk.fees }

def Dealing.turns (desk : Desk) : Dealing → List (Pair × Desk)
  | .evaluate pair => [(pair, desk)]
  | .evaluateAll pairs => cycleTurns (desk.cyclePairs pairs) desk
  | _ => []

def afterDealings (dealings : List Dealing) (desk : Desk) : Desk :=
  dealings.foldl Dealing.after desk

def dealingTurns : List Dealing → Desk → List (Pair × Desk)
  | [], _ => []
  | dealing :: rest, desk => dealing.turns desk ++ dealingTurns rest (dealing.after desk)

/-- A dealing that leaves the cache alone, other than by evaluating. -/
def Dealing.LeavesCache : Dealing → Prop
  | .fetchFee _ | .clearFees => False
  | _ => True

theorem dealing_asked {dealing : Dealing} (leaves : dealing.LeavesCache) (desk : Desk) :
    AskedOver (dealing.turns desk) desk (dealing.after desk) := by
  cases dealing with
  | evaluate pair => exact .one (evaluate_fees pair desk)
  | evaluateAll pairs => exact cycle_asked _ desk
  | change other => exact .nothing rfl
  | fetchFee => cases leaves
  | clearFees => cases leaves

theorem dealings_asked {dealings : List Dealing}
    (leave : ∀ dealing ∈ dealings, dealing.LeavesCache) (desk : Desk) :
    AskedOver (dealingTurns dealings desk) desk (afterDealings dealings desk) := by
  induction dealings generalizing desk with
  | nil => exact .nothing rfl
  | cons dealing rest induction =>
      have first := dealing_asked (leave dealing List.mem_cons_self) desk
      exact first.append (induction (fun other member =>
        leave other (List.mem_cons_of_mem _ member)) (dealing.after desk))

/-- Over any evaluations and cycles, with any changes of anything but the fees between them, the
fetcher is called for a place only while the cache does not hold it: never again after a call has
got a fee, and a call that gets none leaves the place absent. Every evaluation of two usable quotes
looks up its long side and then its short side. It calls the fetcher for a side that is absent,
whatever has been answered before, and a call without a fee is what the evaluation fails with. -/
theorem fetcher_called_until_fee (fetcher : desk.fees.fetcher = some fetch)
    {dealings : List Dealing} (leave : ∀ dealing ∈ dealings, dealing.LeavesCache) :
    ∃ history, CacheFirst fetch desk.fees history (afterDealings dealings desk).fees ∧
      (∀ later call earlier, history = later ++ call :: earlier →
        (∀ fee, call.fee? = some fee → ∀ other ∈ later, other.place ≠ call.place) ∧
        (call.fee? = none → desk.fees.holding (call :: earlier) call.place = none)) ∧
      ∀ earlier pair middle later,
        dealingTurns dealings desk = earlier ++ (pair, middle) :: later →
          ∃ more past, history = more ++ past ∧ CacheFirst fetch desk.fees past middle.fees ∧
            Billed fetch pair middle (middle.outcome pair)
              ((evaluate pair).ending middle).2.fees := by
  have turns := dealings_asked leave desk
  have start := CacheFirst.nothing fetcher
  obtain ⟨history, whole⟩ := start.after_asking (askedIn (dealingTurns dealings desk))
  rw [List.append_nil, ← turns.last] at whole
  refine ⟨history, whole, ?_, ?_⟩
  · intro later call earlier split
    exact ⟨fun fee got => whole.once split got, whole.still_absent split⟩
  · intro earlier pair middle later split
    obtain ⟨past, begun⟩ := start.after_asking (askedIn earlier)
    rw [List.append_nil, ← turns.each earlier pair middle later split] at begun
    -- The rest of the run goes on from here, so the whole history is one that adds to this one.
    obtain ⟨more, rest⟩ := begun.after_asking (askedIn ((pair, middle) :: later))
    have same : middle.fees.afterAsking (askedIn ((pair, middle) :: later)) =
        (afterDealings dealings desk).fees := by
      rw [turns.last, split, asked_in_append, after_asking_append,
        turns.each earlier pair middle later split]
    rw [same] at rest
    exact ⟨more, past, rest.unique whole.toCalled, begun, evaluate_billed begun.fetcher pair⟩

/-- A fetcher that fails, answers with null and with a text that is no decimal, and only then has a
fee. -/
def lateFetcher : Fetcher := fun earlier _ =>
  match earlier.length with
  | 0 => .error (.source "timed out")
  | 1 => .ok .null
  | 2 => .ok (.text "n/a")
  | _ => .ok (.text "0.001")

def lateDesk : Desk := { sidedDesk with fees := { fetcher := some lateFetcher } }

def lateDealings : List Dealing :=
  List.replicate 4 (.evaluate ⟨"okx", "bybit", "BTC/USD"⟩) ++
    [.evaluateAll (some [⟨"bybit", "okx", "BTC/USD"⟩])]

/-- The first three evaluations fail for the long side. The fourth one gets both fees, and the cycle
finds them in the cache. -/
theorem late_fetcher_called_until_fee :
    ∃ history,
      CacheFirst lateFetcher lateDesk.fees history (afterDealings lateDealings lateDesk).fees ∧
      history.map FeeCall.request = shortRequest ⟨"okx", "bybit", "BTC/USD"⟩ ::
        List.replicate 4 (longRequest ⟨"okx", "bybit", "BTC/USD"⟩) := by
  have leave : ∀ dealing ∈ lateDealings, dealing.LeavesCache := by
    simp [lateDealings, Dealing.LeavesCache]
  have requests : (afterDealings lateDealings lateDesk).fees.requests =
      shortRequest ⟨"okx", "bybit", "BTC/USD"⟩ ::
        List.replicate 4 (longRequest ⟨"okx", "bybit", "BTC/USD"⟩) := by
    decide +kernel
  obtain ⟨history, whole, -⟩ :=
    fetcher_called_until_fee (show lateDesk.fees.fetcher = some lateFetcher from rfl) leave
  have all := whole.requests
  rw [requests, show lateDesk.fees.requests = [] from rfl, List.append_nil] at all
  exact ⟨history, whole, all.symm⟩

end Desk

end SpreadWatch
