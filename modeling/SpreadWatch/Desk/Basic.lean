import SpreadWatch.Fee
import SpreadWatch.QuoteBook
import SpreadWatch.Sink.Publish

/-!
A desk: the quotes, fees, water marks and sinks of one run, the pairs it watches, and counts of
what its evaluations came to. Its sources can be asked directly; what they log, the desk logs.
-/

namespace SpreadWatch

structure Counts where
  evaluations : Nat := 0
  results : Nat := 0
  noSignals : Nat := 0
  failures : Nat := 0
deriving DecidableEq, Repr, Inhabited

structure Desk where
  quotes : QuoteBook
  fees : FeeSource
  outlets : Outlets
  combinations : List Pair := []
  sinks : List Sink := []
  tracker : Tracker := {}
  counts : Counts := {}

namespace Desk

def onOutlets (action : Action Outlets α) : Action Desk α :=
  action.on Desk.outlets fun outlets desk => { desk with outlets }

def onFees (action : Action FeeSource α) : Action Desk α :=
  action.on Desk.fees fun fees desk => { desk with fees }

def onTracker (action : Action Tracker α) : Action Desk α :=
  action.on Desk.tracker fun tracker desk => { desk with tracker }

def note (level : Level) (event : String) (fields : List (String × Value)) : Action Desk Unit :=
  onOutlets (Outlets.note level event fields)

def opening : Action Desk Unit := do
  let desk ← get
  note .info "Spread evaluation engine initialized"
    [("trade_combinations", .int desk.combinations.length), ("deliveries", .int desk.sinks.length)]

/-- The state of a quote by the reading that the clock shows throughout a call. A stale one is
logged. -/
def stateOf (quote : Option Quote) : Action Desk QuoteState := do
  let desk ← get
  let state ← desk.quotes.stateOf quote desk.outlets.now
  if state = .stale then
    note .debug "Stale quote rejected"
      [("quote_ts", Value.ofOption (fun m => .text m.toIso) (quote.bind Quote.time)),
        ("max_age_seconds", desk.quotes.window.maxAge)]
  return state

/-- Asks for a fee past the cache. A fee that is got is cached and logged. -/
def fetchFee (request : FeeRequest) : Action Desk (Option Decimal) := do
  let fee ← onFees (FeeSource.fetch request)
  if let some fee := fee then
    note .debug "Fee fetched and cached" [("exchange", .text request.exchange),
      ("instrument", .text request.instrument), ("is_buy", .bool request.isBuy),
      ("fee", .text fee.toText)]
  return fee

def onSink (index : Nat) (action : Action Sink.Channel α) : Action Desk α := do
  let desk ← get
  match desk.sinks[index]? with
  | none => throw .missingItem
  | some sink =>
      action.on (fun desk => (sink, desk.outlets)) fun (sink, outlets) desk =>
        { desk with sinks := desk.sinks.set index sink, outlets }

end Desk

end SpreadWatch
