import SpreadWatch.Desk.Basic
import SpreadWatch.Spread

/-!
Evaluating pairs. An evaluation takes both quotes, gives up without a signal if one cannot be used,
finds both fees, computes both spreads, folds the result into the water marks and publishes it.
It ends with a result, without a signal, or with a failure; only engine errors count as failures of
the evaluation. A cycle evaluates pair after pair and passes over those that end in an engine error.
-/

namespace SpreadWatch

/-- An engine error as it is; any other failure as one of this cause, with its text behind a
lead. -/
def Failure.under (failure : Failure) (cause : EngineCause) (lead : String) : Failure :=
  match failure with
  | .engine error => .engine error
  | other => .ofCause cause (lead ++ ": " ++ other.text)

namespace Desk

def placeText (exchange instrument : String) : String := exchange ++ " " ++ instrument

def fetchQuote (exchange instrument : String) : Action Desk (Option Quote) := do
  let desk ← get
  match desk.quotes.fetch exchange instrument with
  | .ok quote => return quote
  | .error failure => throw (failure.under (.quoteFetch (.text exchange) (.text instrument))
      ("Quote fetch failed for " ++ placeText exchange instrument))

def usableQuote (quote : Option Quote) : Action Desk (Option Quote) := do
  return if (← stateOf quote) = .usable then quote else none

def feeMissing (request : FeeRequest) : EngineCause :=
  .feeUnavailable (.text request.exchange) (.text request.instrument) (.bool request.isBuy)

def feeOf (request : FeeRequest) : Action Desk Decimal := do
  let desk ← get
  match desk.fees.lookup request.exchange request.instrument with
  | .hit (some fee) => return fee
  | _ =>
      note .debug "Fee cache miss, fetching" [("exchange", .text request.exchange),
        ("instrument", .text request.instrument), ("is_buy", .bool request.isBuy)]
      let place := placeText request.exchange request.instrument
      let fee ← tryCatch (fetchFee request) fun failure =>
        throw (failure.under (feeMissing request) ("Fee fetch failed for " ++ place))
      match fee with
      | some fee => return fee
      | none => throw (.ofCause (feeMissing request) ("No fee available for " ++ place))

def spreadsOf (long short : Quote) (longFee shortFee : Decimal) :
    Except Failure (Decimal × Decimal) := do
  let entry ← Spread.spread .entry long.ask (some longFee) short.bid (some shortFee)
  let exit ← Spread.spread .exit long.bid (some longFee) short.ask (some shortFee)
  return (entry, exit)

def violation? (pair : Pair) (failure : Failure) : Option LogRecord :=
  match failure with
  | .engine error =>
      if error.cause.isPrecondition then
        let detail (name : String) := (error.cause.details.lookup name).getD .null
        some (LogRecord.ofSpreads {
          level := .error
          event := "Spread precondition violated"
          fields := [("pair", .text pair.toText), ("field", detail "field"),
            ("value", .text (detail "value").toText), ("error", .text error.message)] })
      else none
  | _ => none

def computeSpreads (pair : Pair) (long short : Quote) (longFee shortFee : Decimal) :
    Action Desk (Decimal × Decimal) :=
  match spreadsOf long short longFee shortFee with
  | .ok spreads => return spreads
  | .error failure => do
      if let some record := violation? pair failure then onOutlets (Outlets.write record)
      throw failure

def publishResult (result : SpreadResult) : Action Desk Unit := do
  let desk ← get
  let (ending, sinks, outlets) := Sink.publishEach result desk.sinks desk.outlets
  set { desk with sinks, outlets }
  match ending with
  | .ok _ => return
  | .error failure => throw failure

def settle (result : SpreadResult) : Action Desk Unit := do
  onTracker (Tracker.record result)
  modify fun desk => { desk with counts.results := desk.counts.results + 1 }
  onOutlets (Outlets.write (← LogRecord.ofResult result).ofSpreads)
  publishResult result

def passOver (pair : Pair) (longInvalid shortInvalid : Bool) : Action Desk Outcome := do
  modify fun desk => { desk with counts.noSignals := desk.counts.noSignals + 1 }
  note .debug "Invalid quote, no signal" [("pair", .text pair.toText),
    ("long_invalid", .bool longInvalid), ("short_invalid", .bool shortInvalid)]
  return .noSignal pair

def evaluateQuotes (pair : Pair) (long short : Quote) : Action Desk Outcome := do
  let longFee ← feeOf
    { exchange := pair.long, instrument := pair.instrument, isBuy := true }
  let shortFee ← feeOf
    { exchange := pair.short, instrument := pair.instrument, isBuy := false }
  let (entry, exit) ← computeSpreads pair long short longFee shortFee
  let result : SpreadResult :=
    { pair, longQuote := some long, shortQuote := some short, entry := some entry
      exit := some exit }
  settle result
  return .result result

/-- An evaluation, apart from its own count. -/
def attempt (pair : Pair) : Action Desk Outcome := do
  let long ← fetchQuote pair.long pair.instrument
  let short ← fetchQuote pair.short pair.instrument
  match ← usableQuote long, ← usableQuote short with
  | some long, some short => evaluateQuotes pair long short
  | long, short => passOver pair long.isNone short.isNone

def isEngineError : Failure → Bool
  | .engine _ => true
  | _ => false

def evaluate (pair : Pair) : Action Desk Outcome := do
  modify fun desk => { desk with counts.evaluations := desk.counts.evaluations + 1 }
  tryCatch (attempt pair) fun failure => do
    if isEngineError failure then
      modify fun desk => { desk with counts.failures := desk.counts.failures + 1 }
    throw failure

/-- The result of a pair, none without a signal or after an engine error, which is logged. -/
def evaluateForCycle (pair : Pair) : Action Desk (Option SpreadResult) :=
  tryCatch
    (do
      match ← evaluate pair with
      | .result result => return some result
      | .noSignal _ => return none)
    fun failure => do
      match failure with
      | .engine error =>
          note .error "Spread evaluation failed" [("pair", .text pair.toText),
            ("error", .text error.message), ("error_type", .text error.cause.name),
            ("context", error.context)]
          return none
      | other => throw other

def evaluateAll : List Pair → Action Desk (List SpreadResult)
  | [] => return []
  | pair :: rest => do
      let found ← evaluateForCycle pair
      let others ← evaluateAll rest
      return found.toList ++ others

def runCycle : Action Desk (List SpreadResult) := do
  evaluateAll (← get).combinations

end Desk

end SpreadWatch
