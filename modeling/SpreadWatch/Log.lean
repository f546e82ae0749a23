import SpreadWatch.Json.Writer
import SpreadWatch.Market

/-!
Log records and the form in which they are printed. A record has a level, the event's text and
named fields, in the order in which they are given.
-/

namespace SpreadWatch

inductive Level where
  | debug
  | info
  | warning
  | error
deriving DecidableEq, Repr

def Level.name : Level → String
  | .debug => "debug"
  | .info => "info"
  | .warning => "warning"
  | .error => "error"

/-- The threshold up to which a record of this level is let through. -/
def Level.rank : Level → Nat
  | .debug => 10
  | .info => 20
  | .warning => 30
  | .error => 40

structure LogRecord where
  level : Level
  event : String
  fields : List (String × Value)
deriving Repr

namespace LogRecord

def ofResult (result : SpreadResult) : Except Failure LogRecord := do
  let long ← givenQuote "ask" result.longQuote
  let short ← givenQuote "ask" result.shortQuote
  return {
    level := .debug
    event := "Spread computed"
    fields := [("pair", .text result.pair.toText),
      ("entry_spread", .text (decimalText result.entry)),
      ("exit_spread", .text (decimalText result.exit)),
      ("long_ask", .text (decimalText long.ask)),
      ("long_bid", .text (decimalText long.bid)),
      ("short_ask", .text (decimalText short.ask)),
      ("short_bid", .text (decimalText short.bid))] }

def ofBlock (title block : String) : LogRecord :=
  { level := .info
    event := title ++ ":\n" ++ block
    fields := [("event_type", .text "water_mark_summary"), ("block", .text title)] }

/-- The record as one of the spread calculation: a field in front says so. -/
def ofSpreads (record : LogRecord) : LogRecord :=
  { record with fields := ("subsystem", .text "spread_engine") :: record.fields }

def jsonLine (record : LogRecord) (logger : String) : Except Failure String :=
  Json.compact (.ofFields (record.fields ++
    [("event", .text record.event), ("logger", .text logger), ("level", .text record.level.name)]))

end LogRecord

end SpreadWatch
