import SpreadWatch.Failure

/-!
What the market gives and what an evaluation makes of it: exchange pairs, quotes, spread results
and their form as events.
-/

namespace SpreadWatch

/-- Buying on one exchange and selling on another, for one instrument. -/
structure Pair where
  long : String
  short : String
  instrument : String
deriving DecidableEq, Repr, Inhabited

namespace Pair

def toText (pair : Pair) : String := pair.long ++ "/" ++ pair.short ++ " " ++ pair.instrument

/-- Pairs are ordered by long exchange, then short exchange, then instrument. -/
def before (a b : Pair) : Bool :=
  if a.long ≠ b.long then decide (a.long < b.long)
  else if a.short ≠ b.short then decide (a.short < b.short)
  else decide (a.instrument ≤ b.instrument)

def sort (pairs : List Pair) : List Pair := pairs.mergeSort before

end Pair

structure Quote where
  ask : Option Decimal
  bid : Option Decimal
  time : Option Calendar.Moment := none
deriving DecidableEq, Repr, Inhabited

def decimalOrNull (d : Option Decimal) : Value := Value.ofOption (fun d => .text d.toText) d

def decimalText (d : Option Decimal) : String := (d.map Decimal.toText).getD "None"

def Quote.toEvent (quote : Quote) : Value :=
  .ofFields [("ask", decimalOrNull quote.ask), ("bid", decimalOrNull quote.bid),
    ("ts", Value.ofOption (fun m => .text m.toIso) quote.time)]

/-- A quote where one has to be, for the use of a member that a missing quote lacks. -/
def givenQuote (member : String) : Option Quote → Except Failure Quote
  | some quote => .ok quote
  | none => .error (.noMember .null member)

/-- The spreads computed for a pair, with the quotes they were computed from. A result of an
evaluation has both quotes. -/
structure SpreadResult where
  pair : Pair
  longQuote : Option Quote
  shortQuote : Option Quote
  entry : Option Decimal
  exit : Option Decimal
deriving DecidableEq, Repr, Inhabited

def SpreadResult.toEvent (result : SpreadResult) : Except Failure Value := do
  let long ← givenQuote "to_dict" result.longQuote
  let short ← givenQuote "to_dict" result.shortQuote
  return .ofFields [("instrument", .text result.pair.instrument),
    ("long_exchange", .text result.pair.long),
    ("short_exchange", .text result.pair.short),
    ("long_quote", long.toEvent),
    ("short_quote", short.toEvent),
    ("entry_spread", .text (decimalText result.entry)),
    ("exit_spread", .text (decimalText result.exit))]

inductive Outcome where
  | result (result : SpreadResult)
  | noSignal (pair : Pair)
deriving Repr

def noSignalReason : String := "invalid_quote"

end SpreadWatch
