import SpreadWatch.Proofs.Desk.Cycle
import SpreadWatch.Proofs.Desk.Frame

/-!
Fees over evaluations. An evaluation asks a source for certain fees, one after the other, and does
nothing else to it. A source whose replies do not change over time answers a request from its cache,
and else with the fee in its reply, which it then caches.
-/

namespace SpreadWatch

open SpreadWatch.Action

namespace FeeSource

variable {source : FeeSource} {request : FeeRequest}

def answerOf (request : FeeRequest) : Except Failure (Option Decimal) → Except Failure Decimal
  | .ok (some fee) => .ok fee
  | .ok none => .error (.ofCause (Desk.feeMissing request)
      ("No fee available for " ++ Desk.placeText request.exchange request.instrument))
  | .error failure => .error (failure.under (Desk.feeMissing request)
      ("Fee fetch failed for " ++ Desk.placeText request.exchange request.instrument))

theorem resolve_of_known {fee : Decimal}
    (known : source.cache.get? request.exchange request.instrument = some fee) :
    source.resolve request = (.ok fee, source) := by
  simp only [resolve, lookup, known]

theorem resolve_of_unknown
    (unknown : source.cache.get? request.exchange request.instrument = none) :
    source.resolve request = (answerOf request ((fetch request).ending source).1,
      ((fetch request).ending source).2) := by
  simp only [resolve, lookup, unknown]
  rcases (fetch request).ending source with ⟨failure | _ | fee, next⟩ <;> rfl

theorem answer_of_eq_ok {got : Except Failure (Option Decimal)} {fee : Decimal} :
    answerOf request got = .ok fee ↔ got = .ok (some fee) := by
  rcases got with failure | _ | other
  · simp [answerOf]
  · simp [answerOf]
  · simp [answerOf]

/-! ### Replies that do not change -/

/-- A source replies to every request in the same way, whatever it has been asked before and
whatever is in its cache. -/
def Replies (reply : FeeRequest → Except Failure Value) (source : FeeSource) : Prop :=
  ∀ (request : FeeRequest) (requests : List FeeRequest) (cache : FeeCache),
    ((ask request).ending { source with requests, cache }).1 = reply request

def feeIn : Value → Except Failure (Option Decimal)
  | .null => .ok none
  | value => value.toDecimalByText.map some

def charged (reply : FeeRequest → Except Failure Value) (request : FeeRequest) :
    Except Failure Decimal :=
  answerOf request (reply request >>= feeIn)

variable {reply : FeeRequest → Except Failure Value}

theorem fetch_replies (replies : source.Replies reply) (request : FeeRequest) :
    ((fetch request).ending source).1 = reply request >>= feeIn := by
  have asked := replies request source.requests source.cache
  rw [fetch, ending_bind]
  cases ended : (ask request).ending source with
  | mk answer next =>
  have same : answer = reply request := by rw [← asked, ended]
  rw [← same]
  cases answer with
  | error failure => rfl
  | ok value =>
      dsimp only
      split
      · rfl
      · rename_i present
        have fee : feeIn value = value.toDecimalByText.map some := by
          unfold feeIn
          split
          · exact absurd rfl present
          · rfl
        simp only [bind, Except.bind, fee]
        cases value.toDecimalByText <;> rfl

/-- What a source with unchanging replies makes of a request that is not in its cache. -/
theorem resolve_replies (replies : source.Replies reply)
    (unknown : source.cache.get? request.exchange request.instrument = none) :
    ∃ requests, source.resolve request = (charged reply request, { source with
      requests
      cache := match charged reply request with
        | .ok fee => source.cache.set request.exchange request.instrument fee
        | .error _ => source.cache }) := by
  obtain ⟨got, requests, fetched⟩ := fetch_ending request source
  have same : got = reply request >>= feeIn := by
    rw [← fetch_replies replies, fetched]
  refine ⟨requests, ?_⟩
  rw [resolve_of_unknown unknown, fetched, charged, ← same]
  rcases got with failure | _ | fee <;> rfl

theorem replies_after (replies : source.Replies reply) (request : FeeRequest) :
    (source.resolve request).2.Replies reply := by
  cases known : source.cache.get? request.exchange request.instrument with
  | some fee =>
      rw [resolve_of_known known]
      exact replies
  | none =>
      obtain ⟨requests, resolved⟩ := resolve_replies replies known
      rw [resolved]
      exact replies

theorem replies_after_asking (replies : source.Replies reply) (requests : List FeeRequest) :
    (source.afterAsking requests).Replies reply := by
  induction requests generalizing source with
  | nil => exact replies
  | cons request rest induction => exact induction (replies_after replies request)

/-- A fetcher that answers by the request alone replies without change. -/
theorem replies_of_fetcher {fetch : Fetcher} (fetcher : source.fetcher = some fetch)
    (pure : ∀ earlier request, fetch earlier request = reply request) :
    source.Replies reply := by
  intro request requests cache
  obtain ⟨params, _, _, _⟩ := source
  cases fetcher
  exact pure requests request

/-- Without a fetcher the configured fees reply, by the exchange alone. -/
theorem replies_of_params (none : source.fetcher = none) :
    source.Replies fun request => FeeParams.feeOf source.params request.exchange := by
  intro request requests cache
  obtain ⟨params, _, _, _⟩ := source
  cases none
  rfl

/-! ### Replies without sides -/

/-- A source that replies by the exchange and the instrument alone: the configured fees, or a
fetcher that does not look at the side. -/
def Sideless (source : FeeSource) : Prop :=
  source.fetcher = none ∨
    ∃ (fetch : Fetcher) (reply : String → String → Except Failure Value),
      source.fetcher = some fetch ∧
        ∀ earlier request, fetch earlier request = reply request.exchange request.instrument

theorem Sideless.replies (sideless : source.Sideless) :
    ∃ reply : String → String → Except Failure Value,
      source.Replies fun request => reply request.exchange request.instrument := by
  rcases sideless with none | ⟨fetch, reply, fetcher, pure⟩
  · exact ⟨fun exchange _ => FeeParams.feeOf source.params exchange, replies_of_params none⟩
  · exact ⟨reply, replies_of_fetcher fetcher pure⟩

/-- A request puts its answer, if it has one, into the cache at its place. -/
theorem cache_after_resolve (source : FeeSource) (request : FeeRequest)
    (exchange instrument : String) (fee : Decimal) :
    (source.resolve request).2.cache.get? exchange instrument = some fee ↔
      source.cache.get? exchange instrument = some fee ∨
        request.exchange = exchange ∧ request.instrument = instrument ∧
          (source.resolve request).1 = .ok fee := by
  cases known : source.cache.get? request.exchange request.instrument with
  | some held =>
      rw [resolve_of_known known]
      constructor
      · exact .inl
      · rintro (cached | ⟨rfl, rfl, same⟩)
        · exact cached
        · cases same
          exact known
  | none =>
      obtain ⟨got, requests, fetched⟩ := fetch_ending request source
      rw [resolve_of_unknown known, fetched]
      dsimp only
      rcases got with failure | _ | got
      · simp [answerOf]
      · simp [answerOf]
      · have held := FeeCache.get_set source.cache request.exchange request.instrument got
          (exchange, instrument)
        rw [held]
        by_cases here : (exchange, instrument) = (request.exchange, request.instrument)
        · cases here
          rw [if_pos rfl, known]
          simp [answerOf]
        · rw [if_neg here]
          constructor
          · exact .inl
          · rintro (cached | ⟨rfl, rfl, -⟩)
            · exact cached
            · exact absurd rfl here

/-- Whatever a source without sides has been asked, it answers as before. -/
theorem answers_after_resolve {reply : String → String → Except Failure Value}
    (replies : source.Replies fun request => reply request.exchange request.instrument)
    (asked request : FeeRequest) :
    ((source.resolve asked).2.resolve request).1 = (source.resolve request).1 := by
  have after := replies_after replies asked
  have cached := cache_after_resolve source asked request.exchange request.instrument
  cases known : source.cache.get? request.exchange request.instrument with
  | some fee =>
      rw [resolve_of_known known, resolve_of_known ((cached fee).mpr (.inl known))]
  | none =>
      obtain ⟨requests, resolved⟩ := resolve_replies replies known
      rw [known] at cached
      cases knownAfter : (source.resolve asked).2.cache.get? request.exchange
          request.instrument with
      | none =>
          obtain ⟨requestsAfter, resolvedAfter⟩ := resolve_replies after knownAfter
          rw [resolved, resolvedAfter]
      | some fee =>
          rw [resolve_of_known knownAfter, resolved]
          rcases (cached fee).mp knownAfter with impossible | ⟨exchange, instrument, answered⟩
          · cases impossible
          · -- The place has been asked for and has the fee that is now in the cache.
            rw [← exchange, ← instrument] at known
            obtain ⟨requestsAsked, askedResolved⟩ := resolve_replies replies known
            rw [askedResolved, charged, answer_of_eq_ok] at answered
            rw [charged, ← exchange, ← instrument, answered]
            rfl

theorem answers_after_asking {reply : String → String → Except Failure Value}
    (replies : source.Replies fun request => reply request.exchange request.instrument)
    (asked : List FeeRequest) (request : FeeRequest) :
    ((source.afterAsking asked).resolve request).1 = (source.resolve request).1 := by
  induction asked generalizing source with
  | nil => rfl
  | cons first rest induction =>
      exact (induction (replies_after replies first)).trans
        (answers_after_resolve replies first request)

/-- What the cache of a source without sides holds after some requests depends on which requests
these are, not on their order. -/
theorem cache_after_asking {reply : String → String → Except Failure Value}
    (replies : source.Replies fun request => reply request.exchange request.instrument)
    (asked : List FeeRequest) (exchange instrument : String) (fee : Decimal) :
    (source.afterAsking asked).cache.get? exchange instrument = some fee ↔
      source.cache.get? exchange instrument = some fee ∨
        ∃ request ∈ asked, request.exchange = exchange ∧ request.instrument = instrument ∧
          (source.resolve request).1 = .ok fee := by
  induction asked generalizing source with
  | nil => simp [afterAsking]
  | cons first rest induction =>
      have later := induction (replies_after replies first)
      simp only [answers_after_resolve replies first, cache_after_resolve] at later
      rw [afterAsking, List.foldl_cons, ← afterAsking, later, or_assoc, List.exists_mem_cons_iff]

theorem cache_permuted {reply : String → String → Except Failure Value}
    (replies : source.Replies fun request => reply request.exchange request.instrument)
    {first second : List FeeRequest} (permuted : first.Perm second) (exchange instrument : String) :
    (source.afterAsking first).cache.get? exchange instrument =
      (source.afterAsking second).cache.get? exchange instrument := by
  apply Option.ext
  intro fee
  rw [cache_after_asking replies, cache_after_asking replies]
  simp only [permuted.mem_iff]

end FeeSource

/-! ### What an evaluation does to the fees -/

namespace Desk

variable {desk : Desk} {pair : Pair}

theorem settle_keeps_fees (result : SpreadResult) : Keeps Desk.fees (settle result) := by
  refine Keeps.bind (fun desk => rfl) fun _ => Keeps.bind (fun desk => rfl) fun _ => ?_
  refine Keeps.bind (Keeps.lift _) fun record => Keeps.bind (fun desk => rfl) fun _ => ?_
  apply Keeps.read
  intro desk
  cases published : Sink.publishEach result desk.sinks desk.outlets with
  | mk ended rest =>
  obtain ⟨sinks, outlets⟩ := rest
  cases ended <;> rfl

/-- Whatever an evaluation does after a failure, it leaves the fees alone. -/
theorem evaluate_fees (pair : Pair) (desk : Desk) :
    ((evaluate pair).ending desk).2.fees = desk.fees.afterAsking (asks pair desk) := by
  obtain ⟨next, asked, attempted⟩ := attempt_ending pair desk.countEvaluation
  have asked : next.fees = desk.fees.afterAsking (asks pair desk) := asked
  have same : desk.countEvaluation.finding pair = desk.finding pair := rfl
  rw [same] at attempted
  have handled : ∀ failure, Keeps Desk.fees (do
      if isEngineError failure then modify countFailure
      throw failure : Action Desk Outcome) := by
    intro failure
    cases isEngineError failure with
    | false => exact Keeps.throw failure
    | true => exact Keeps.bind (Keeps.modify fun _ => rfl) fun _ => Keeps.throw failure
  have ends : ((attempt pair).ending desk.countEvaluation).2.fees = next.fees := by
    cases found : desk.finding pair with
    | error failure =>
        rw [found] at attempted
        rw [attempted.1]
    | ok signal =>
    cases signal with
    | none =>
        rw [found] at attempted
        rw [attempted.1]
    | some result =>
        rw [found] at attempted
        rw [attempted.2]
        exact Keeps.bind (settle_keeps_fees result) (fun _ => Keeps.pure _) next
  rw [evaluate_opens, ending_try_catch, ← asked, ← ends]
  generalize (attempt pair).ending desk.countEvaluation = ended
  obtain ⟨failure | outcome, last⟩ := ended
  · exact handled failure last
  · rfl

theorem passed_fees (pair : Pair) (desk : Desk) :
    (desk.passed pair).fees = desk.fees.afterAsking (asks pair desk) := by
  rw [← evaluate_fees]
  obtain ⟨passes, escapes⟩ := evaluate_for_cycle_ending pair desk
  by_cases escaped : Escapes ((evaluate pair).ending desk).1
  · obtain ⟨failure, failed, stray⟩ := escaped
    rw [passed, escapes failure failed stray]
  · obtain ⟨found, next, ended, -, logged⟩ := passes escaped
    rw [passed, ended]
    exact logged.fees

end Desk

end SpreadWatch
