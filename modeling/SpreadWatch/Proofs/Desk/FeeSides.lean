import SpreadWatch.Proofs.Decimal.Text
import SpreadWatch.Proofs.Desk.Account
import SpreadWatch.Proofs.Desk.Fees

/-!
Sides and the fee cache. A fetcher is asked for the fee of a side, but the cache knows exchanges and
instruments only. So over a run that starts with an empty cache, an evaluation applies to a side the
fee of whichever side of that exchange and instrument was asked for first.
-/

namespace SpreadWatch

open SpreadWatch.Action

namespace FeeRequest

/-- Where a request looks into the cache: the side is not part of it. -/
def place (request : FeeRequest) : String × String := (request.exchange, request.instrument)

def firstFor (asked : List FeeRequest) (request : FeeRequest) : FeeRequest :=
  (asked.find? fun other => other.place = request.place).getD request

theorem fee_first_for {fee : FeeRequest → Decimal} {asked : List FeeRequest} {request : FeeRequest}
    (alike : ∀ other ∈ asked, other.place = request.place → fee other = fee request) :
    fee (firstFor asked request) = fee request := by
  unfold firstFor
  cases found : asked.find? fun other => other.place = request.place with
  | none => rfl
  | some other =>
      exact alike other (List.mem_of_find?_eq_some found)
        (by simpa using List.find?_some found)

end FeeRequest

namespace FeeSource

open FeeRequest

theorem after_asking_append (source : FeeSource) (first second : List FeeRequest) :
    source.afterAsking (first ++ second) = (source.afterAsking first).afterAsking second := by
  rw [afterAsking, afterAsking, afterAsking, List.foldl_append]

variable {source : FeeSource} {fee : FeeRequest → Decimal} {asked : List FeeRequest}

/-- A source whose fees do not change, and which has been asked for certain fees since its cache was
empty: the cache holds the fee of the first request for each place. -/
structure Charges (fee : FeeRequest → Decimal) (asked : List FeeRequest) (source : FeeSource) :
    Prop where
  replies : ∃ reply, source.Replies reply ∧ ∀ request, charged reply request = .ok (fee request)
  cached : ∀ place : String × String, source.cache.get? place.1 place.2 =
    (asked.find? fun other => other.place = place).map fee

/-- A source with an empty cache and a fetcher that answers each request with the same fee, whatever
it has been asked before. -/
theorem charges_of_fetcher {fetch : Fetcher} {tariff : FeeRequest → Value}
    (fetcher : source.fetcher = some fetch)
    (pure : ∀ earlier request, fetch earlier request = .ok (tariff request))
    (usable : ∀ request, (tariff request).toDecimalByText = .ok (fee request))
    (empty : source.cache = []) : source.Charges fee [] := by
  refine ⟨⟨fun request => .ok (tariff request), replies_of_fetcher fetcher pure, ?_⟩, ?_⟩
  · intro request
    have answered : feeIn (tariff request) = .ok (some (fee request)) := by
      unfold feeIn
      split
      · rename_i null
        have refused := usable request
        rw [null] at refused
        cases refused
      · rw [usable request]
        rfl
    simp only [charged, bind, Except.bind, answered, answerOf]
  · intro place
    rw [empty]
    rfl

/-- A request gets the fee of the first request for its place, and is from then on among the
requests that have been asked. -/
theorem Charges.resolve (charges : source.Charges fee asked) (request : FeeRequest) :
    (source.resolve request).1 = .ok (fee (firstFor asked request)) ∧
      (source.resolve request).2.Charges fee (asked ++ [request]) := by
  obtain ⟨reply, replies, each⟩ := charges.replies
  have cached := charges.cached request.place
  have replied : ∃ reply, (source.resolve request).2.Replies reply ∧
      ∀ request, charged reply request = .ok (fee request) :=
    ⟨reply, replies_after replies request, each⟩
  cases found : asked.find? fun other => other.place = request.place with
  | some first =>
      rw [found] at cached
      have known : source.resolve request = (.ok (fee first), source) := resolve_of_known cached
      refine ⟨by rw [known, firstFor, found]; rfl, replied, fun place => ?_⟩
      rw [known, List.find?_append, charges.cached place]
      by_cases here : request.place = place
      · rw [← here, found]
        rfl
      · simp [here]
  | none =>
      rw [found] at cached
      obtain ⟨requests, resolved⟩ := resolve_replies replies cached
      rw [each request] at resolved
      refine ⟨by rw [resolved, firstFor, found]; rfl, replied, fun place => ?_⟩
      rw [resolved, List.find?_append, FeeCache.get_set, charges.cached place]
      by_cases here : request.place = place
      · rw [← here, found]
        simp [FeeRequest.place]
      · rw [if_neg fun same => here same.symm]
        simp [here]

theorem Charges.after_asking (charges : source.Charges fee asked) (requests : List FeeRequest) :
    (source.afterAsking requests).Charges fee (asked ++ requests) := by
  induction requests generalizing source asked with
  | nil =>
      rw [List.append_nil]
      exact charges
  | cons request rest induction =>
      have later := induction (charges.resolve request).2
      rw [List.append_assoc] at later
      exact later

end FeeSource

namespace Desk

open FeeRequest

variable {desk middle next : Desk} {pair : Pair} {fee : FeeRequest → Decimal}
  {asked : List FeeRequest}

/-! ### Runs -/

/-- A call that does not write to the cache or empty it, other than by evaluating. -/
def Call.LeavesCache : Call → Prop
  | .setCachedFee _ _ _ | .clearFees => False
  | _ => True

def Call.turns (desk : Desk) : Call → List (Pair × Desk)
  | .evaluate pair => [(pair, desk)]
  | .evaluateAll pairs => cycleTurns (desk.cyclePairs pairs) desk
  | _ => []

def callTurns : List Call → Desk → List (Pair × Desk)
  | [], _ => []
  | call :: rest, desk => call.turns desk ++ callTurns rest (call.after desk)

def askedIn (turns : List (Pair × Desk)) : List FeeRequest :=
  turns.flatMap fun turn => asks turn.1 turn.2

/-- Some evaluations lead from one desk to another, and each of them begins with the fees that the
ones before it have left by asking. -/
structure AskedOver (turns : List (Pair × Desk)) (desk last : Desk) : Prop where
  each : ∀ earlier pair middle later, turns = earlier ++ (pair, middle) :: later →
    middle.fees = desk.fees.afterAsking (askedIn earlier)
  last : last.fees = desk.fees.afterAsking (askedIn turns)

theorem asked_in_append (first second : List (Pair × Desk)) :
    askedIn (first ++ second) = askedIn first ++ askedIn second := by
  rw [askedIn, askedIn, askedIn, List.flatMap_append]

theorem AskedOver.nothing (same : next.fees = desk.fees) : AskedOver [] desk next :=
  ⟨fun earlier pair middle later none => by simp at none, same⟩

theorem AskedOver.one (fees : next.fees = desk.fees.afterAsking (asks pair desk)) :
    AskedOver [(pair, desk)] desk next := by
  constructor
  · rintro (_ | ⟨first, rest⟩) other middle later split
    · cases split
      rfl
    · simp at split
  · rw [fees, askedIn, List.flatMap_singleton]

theorem AskedOver.append {first second : List (Pair × Desk)} {last : Desk}
    (early : AskedOver first desk middle) (late : AskedOver second middle last) :
    AskedOver (first ++ second) desk last := by
  have reached : ∀ turns, middle.fees.afterAsking (askedIn turns) =
      desk.fees.afterAsking (askedIn (first ++ turns)) := by
    intro turns
    rw [early.last, asked_in_append, FeeSource.after_asking_append]
  constructor
  · intro earlier pair start later split
    rcases List.append_eq_append_iff.mp split with ⟨more, rfl, second_eq⟩ | ⟨more, first_eq, rest⟩
    · rw [← reached]
      exact late.each more pair start later second_eq
    · cases more with
      | nil =>
          rw [List.append_nil] at first_eq
          subst first_eq
          rw [late.each [] pair start later rest.symm]
          exact early.last
      | cons head tail =>
          rw [List.cons_append, List.cons.injEq] at rest
          obtain ⟨rfl, -⟩ := rest
          exact early.each earlier pair start tail first_eq
  · rw [← reached]
    exact late.last

theorem cycle_asked (pairs : List Pair) (desk : Desk) :
    AskedOver (cycleTurns pairs desk) desk ((evaluateAll pairs).ending desk).2 := by
  induction pairs generalizing desk with
  | nil => exact .nothing rfl
  | cons pair rest induction =>
      have first := AskedOver.one (passed_fees pair desk)
      rw [cycleTurns, evaluateAll, ending_bind]
      rw [passed] at first
      generalize (evaluateForCycle pair).ending desk = ended at first ⊢
      obtain ⟨failure | found, middle⟩ := ended
      · exact first
      · have later := first.append (induction middle)
        dsimp only
        rw [ending_bind]
        generalize (evaluateAll rest).ending middle = others at later ⊢
        obtain ⟨failure | results, last⟩ := others
        · exact later
        · exact later

theorem call_asked {call : Call} (leaves : call.LeavesCache) (desk : Desk) :
    AskedOver (call.turns desk) desk (call.after desk) := by
  cases call with
  | evaluate pair => exact .one (evaluate_fees pair desk)
  | evaluateAll pairs => exact cycle_asked _ desk
  | updateQuote exchange instrument quote => exact .nothing rfl
  | outside outlets => exact .nothing rfl
  | setCachedFee => cases leaves
  | clearFees => cases leaves

/-- Over calls that leave the cache alone, the fees change by what the evaluations ask for, and by
nothing else. -/
theorem calls_asked {calls : List Call} (leave : ∀ call ∈ calls, call.LeavesCache) (desk : Desk) :
    AskedOver (callTurns calls desk) desk (afterCalls calls desk) := by
  induction calls generalizing desk with
  | nil => exact .nothing rfl
  | cons call rest induction =>
      have first := call_asked (leave call List.mem_cons_self) desk
      exact first.append (induction (fun other member =>
        leave other (List.mem_cons_of_mem _ member)) (call.after desk))

/-- Some evaluations lead to a place where the source of the desk has been asked for the fees of
these evaluations, and each of them has begun with what the ones before have asked for. -/
structure Charged (fee : FeeRequest → Decimal) (asked : List FeeRequest)
    (turns : List (Pair × Desk)) (last : Desk) : Prop where
  each : ∀ earlier pair middle later, turns = earlier ++ (pair, middle) :: later →
    middle.fees.Charges fee (asked ++ askedIn earlier)
  last : last.fees.Charges fee (asked ++ askedIn turns)

theorem calls_charged (charges : desk.fees.Charges fee asked) {calls : List Call}
    (leave : ∀ call ∈ calls, call.LeavesCache) :
    Charged fee asked (callTurns calls desk) (afterCalls calls desk) := by
  have turns := calls_asked leave desk
  constructor
  · intro earlier pair middle later turn
    rw [turns.each earlier pair middle later turn]
    exact charges.after_asking _
  · rw [turns.last]
    exact charges.after_asking _

/-! ### The fees that an evaluation applies -/

def findingWith (pair : Pair) (desk : Desk) (longFee shortFee : Decimal) :
    Except Failure (Option SpreadResult) := do
  match ← desk.usableQuotes pair with
  | (some long, some short) =>
      let (entry, exit) ← spreadsOf long short longFee shortFee
      return some { pair, longQuote := some long, shortQuote := some short, entry := some entry
                    exit := some exit }
  | _ => return none

theorem finding_of_resolved {longFee shortFee : Decimal}
    (longFound : (desk.fees.resolve (longRequest pair)).1 = .ok longFee)
    (shortFound :
      ((desk.fees.resolve (longRequest pair)).2.resolve (shortRequest pair)).1 = .ok shortFee) :
    desk.finding pair = desk.findingWith pair longFee shortFee := by
  rw [finding_of_quotes, findingWith]
  cases desk.usableQuotes pair with
  | error failure => rfl
  | ok quotes =>
      obtain ⟨_ | long, _ | short⟩ := quotes
      · rfl
      · rfl
      · rfl
      · simp only [resultOfUsable, resultFrom, longFound, shortFound, bind, Except.bind]
        cases spreadsOf long short _ _ <;> rfl

theorem finding_of_charges (charges : desk.fees.Charges fee asked) (pair : Pair) :
    desk.finding pair = desk.findingWith pair (fee (firstFor asked (longRequest pair)))
      (fee (firstFor (asked ++ [longRequest pair]) (shortRequest pair))) := by
  obtain ⟨longFound, next⟩ := charges.resolve (longRequest pair)
  exact finding_of_resolved longFound (next.resolve (shortRequest pair)).1

theorem spreads_of_finding {longFee shortFee : Decimal} {result : SpreadResult}
    (found : desk.findingWith pair longFee shortFee = .ok (some result)) :
    ∃ long short entry exit, desk.usableQuotes pair = .ok (some long, some short) ∧
      spreadsOf long short longFee shortFee = .ok (entry, exit) ∧
      result = { pair, longQuote := some long, shortQuote := some short, entry := some entry
                 exit := some exit } := by
  obtain ⟨⟨_ | long, _ | short⟩, quotes, computed⟩ := bind_eq_ok found
  · cases computed
  · cases computed
  · cases computed
  · obtain ⟨⟨entry, exit⟩, spreads, built⟩ := bind_eq_ok computed
    cases built
    exact ⟨long, short, entry, exit, quotes, spreads, rfl⟩

/-- Over any calls on a desk with an empty cache and a fetcher whose fee depends on the request
alone, an evaluation applies to each side the fetcher's fee for the side for which the exchange and
the instrument have been asked for first. These are the fees for its own sides, and what is found is
what is found with an empty cache, if the fetcher has had the same fee for whatever it has been
asked about these places. -/
theorem evaluation_applies_first_fees {fetch : Fetcher} {tariff : FeeRequest → Value}
    (fetcher : desk.fees.fetcher = some fetch)
    (pure : ∀ earlier request, fetch earlier request = .ok (tariff request))
    (usable : ∀ request, (tariff request).toDecimalByText = .ok (fee request))
    (empty : desk.fees.cache = []) {calls : List Call} (leave : ∀ call ∈ calls, call.LeavesCache)
    {earlier later : List (Pair × Desk)}
    (turn : callTurns calls desk = earlier ++ (pair, middle) :: later) :
    middle.finding pair = middle.findingWith pair
      (fee (firstFor (askedIn earlier) (longRequest pair)))
      (fee (firstFor (askedIn earlier ++ [longRequest pair]) (shortRequest pair))) ∧
    (∀ result, ((evaluate pair).ending middle).1 = .ok (.result result) →
      ∃ long short entry exit,
        middle.usableQuotes pair = .ok (some long, some short) ∧
        spreadsOf long short (fee (firstFor (askedIn earlier) (longRequest pair)))
          (fee (firstFor (askedIn earlier ++ [longRequest pair]) (shortRequest pair))) =
            .ok (entry, exit) ∧
        result = { pair, longQuote := some long, shortQuote := some short, entry := some entry
                   exit := some exit }) ∧
    ((∀ request ∈ [longRequest pair, shortRequest pair],
      ∀ other ∈ askedIn earlier ++ [longRequest pair],
        other.place = request.place → fee other = fee request) →
      fee (firstFor (askedIn earlier) (longRequest pair)) = fee (longRequest pair) ∧
      fee (firstFor (askedIn earlier ++ [longRequest pair]) (shortRequest pair)) =
        fee (shortRequest pair) ∧
      middle.finding pair = Desk.finding pair { middle with fees := desk.fees }) := by
  have start := FeeSource.charges_of_fetcher fetcher pure usable empty
  have charges := (calls_charged start leave).each earlier pair middle later turn
  rw [List.nil_append] at charges
  have found := finding_of_charges charges pair
  refine ⟨found, fun result ended => spreads_of_finding (found ▸ finding_of_result ended), ?_⟩
  intro alike
  have long : fee (firstFor (askedIn earlier) (longRequest pair)) = fee (longRequest pair) :=
    fee_first_for fun other member =>
      alike _ (by simp) other (List.mem_append_left _ member)
  have short : fee (firstFor (askedIn earlier ++ [longRequest pair]) (shortRequest pair)) =
      fee (shortRequest pair) := fee_first_for (alike _ (by simp))
  refine ⟨long, short, ?_⟩
  -- With an empty cache only the pair's own long side has been asked for before the short side.
  have startAgain : FeeSource.Charges fee [] { middle with fees := desk.fees : Desk }.fees := start
  have afresh : Desk.finding pair { middle with fees := desk.fees } =
      Desk.findingWith pair { middle with fees := desk.fees }
        (fee (firstFor [] (longRequest pair)))
        (fee (firstFor [longRequest pair] (shortRequest pair))) :=
    finding_of_charges startAgain pair
  have shortAfresh : fee (firstFor [longRequest pair] (shortRequest pair)) =
      fee (shortRequest pair) :=
    fee_first_for fun other member => alike _ (by simp) other (List.mem_append_right _ member)
  rw [found, long, short, afresh, shortAfresh]
  rfl

/-- A decimal in the range, taken as a fee by its text, is that fee. -/
theorem decimal_by_text {d : Decimal} (inRange : d.inRange = true) :
    (Value.decimal d).toDecimalByText = .ok d := by
  have written : (Value.decimal d).written = .ok d.toText := by
    simp only [Value.written, Value.isWritable, Value.toText, if_true]
  rw [Value.toDecimalByText, written]
  simp only [bind, Except.bind, Decimal.of_text_to_text inRange]
  rfl

def sidedFee (request : FeeRequest) : Decimal :=
  .finite false (if request.isBuy then 1 else 2) (-3)

def sidedDesk : Desk where
  quotes := {
    window := { maxAge := .int 5, maxSkew := .int 2 }
    quotes := [
      (("okx", "BTC/USD"),
        some { ask := some (.finite false 20000 (-2)), bid := some (.finite false 19990 (-2)) }),
      (("bybit", "BTC/USD"),
        some { ask := some (.finite false 20060 (-2)), bid := some (.finite false 20050 (-2)) })] }
  fees := { fetcher := some fun _ request => .ok (.decimal (sidedFee request)) }
  outlets := { clock := { wall := 63844891200000000 } }

def sidedCalls : List Call :=
  [.evaluate ⟨"okx", "bybit", "BTC/USD"⟩, .evaluate ⟨"bybit", "okx", "BTC/USD"⟩]

/-- The second evaluation buys at the fee for selling and sells at the fee for buying. -/
theorem sided_evaluation_applies_first_fees :
    Desk.finding ⟨"bybit", "okx", "BTC/USD"⟩
        ((evaluate ⟨"okx", "bybit", "BTC/USD"⟩).ending sidedDesk).2 =
      Desk.findingWith ⟨"bybit", "okx", "BTC/USD"⟩
        ((evaluate ⟨"okx", "bybit", "BTC/USD"⟩).ending sidedDesk).2
        (.finite false 2 (-3)) (.finite false 1 (-3)) := by
  have inRange : ∀ coefficient < 3, Decimal.inRange (.finite false coefficient (-3)) = true := by
    decide +kernel
  have usable : ∀ request, (Value.decimal (sidedFee request)).toDecimalByText =
      .ok (sidedFee request) := by
    rintro ⟨exchange, instrument, _ | _⟩
    · exact decimal_by_text (inRange 2 (by decide))
    · exact decimal_by_text (inRange 1 (by decide))
  have fetched : sidedDesk.fees.fetcher =
      some fun _ request => .ok (.decimal (sidedFee request)) := rfl
  have asked : askedIn [(⟨"okx", "bybit", "BTC/USD"⟩, sidedDesk)] =
      [longRequest ⟨"okx", "bybit", "BTC/USD"⟩, shortRequest ⟨"okx", "bybit", "BTC/USD"⟩] := by
    decide +kernel
  have leave : ∀ call ∈ sidedCalls, call.LeavesCache := by
    simp [sidedCalls, Call.LeavesCache]
  have found := (evaluation_applies_first_fees fetched (fun _ _ => rfl) usable rfl leave
    (show callTurns sidedCalls sidedDesk = [(⟨"okx", "bybit", "BTC/USD"⟩, sidedDesk)] ++
      (⟨"bybit", "okx", "BTC/USD"⟩,
        ((evaluate ⟨"okx", "bybit", "BTC/USD"⟩).ending sidedDesk).2) :: [] from rfl)).1
  rw [asked] at found
  exact found

/-- The exchange that the pair buys on has been asked for its fee for selling before, which is twice
its fee for buying. So the pair has other spreads than it has when it is evaluated first. -/
theorem sided_evaluation_depends_on_earlier :
    (((evaluate ⟨"okx", "bybit", "BTC/USD"⟩).ending sidedDesk).2.fees.resolve
        (longRequest ⟨"bybit", "okx", "BTC/USD"⟩)).1.toOption = some (.finite false 2 (-3)) ∧
      sidedFee (longRequest ⟨"bybit", "okx", "BTC/USD"⟩) = .finite false 1 (-3) ∧
      (resultsOf ((evaluate ⟨"bybit", "okx", "BTC/USD"⟩).ending
          ((evaluate ⟨"okx", "bybit", "BTC/USD"⟩).ending sidedDesk).2).1).map
            (fun result => (result.entry, result.exit)) =
        [(some (.finite true 647310 (-8)), some (.finite false 50475 (-8)))] ∧
      (resultsOf ((evaluate ⟨"bybit", "okx", "BTC/USD"⟩).ending sidedDesk).1).map
          (fun result => (result.entry, result.exit)) =
        [(some (.finite true 647608 (-8)), some (.finite false 50175 (-8)))] := by
  decide +kernel

end Desk

end SpreadWatch
