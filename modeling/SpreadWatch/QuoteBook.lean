import SpreadWatch.Freshness
import SpreadWatch.Market

/-!
The latest quote of every exchange and instrument, and whether a quote can be used: both sides are
there and the market's time, if there is one, is fresh by the clock.
-/

namespace SpreadWatch

inductive QuoteState where
  | usable
  | missing
  | stale
deriving DecidableEq, Repr

/-- Quotes by exchange and instrument; an entry may stand for no quote. -/
abbrev QuoteTable := List ((String × String) × Option Quote)

/-- The latest quotes, the places whose quote cannot be fetched at present, and the window of
accepted market times. -/
structure QuoteBook where
  window : Freshness.Window
  quotes : QuoteTable := []
  outages : List ((String × String) × Failure) := []

namespace QuoteBook

def update (book : QuoteBook) (exchange instrument : String) (quote : Option Quote) : QuoteBook :=
  { book with quotes := ((exchange, instrument), quote) :: book.quotes }

/-- From now on the quote of a place cannot be fetched. -/
def interrupt (book : QuoteBook) (exchange instrument : String) (failure : Failure) : QuoteBook :=
  { book with outages := ((exchange, instrument), failure) :: book.outages }

def restore (book : QuoteBook) (exchange instrument : String) : QuoteBook :=
  { book with outages := book.outages.filter fun outage => outage.1 != (exchange, instrument) }

def fetch (book : QuoteBook) (exchange instrument : String) : Except Failure (Option Quote) :=
  match book.outages.lookup (exchange, instrument) with
  | some failure => .error failure
  | none => .ok (book.quotes.lookup (exchange, instrument)).join

/-- Whether a quote can be used at a clock reading. One without a market time counts as current. The
record of a stale one is left to the desk; that it can be written is taken for granted. -/
def stateOf (book : QuoteBook) (quote : Option Quote) (clock : Except Failure Calendar.Moment) :
    Except Failure QuoteState :=
  match quote with
  | some { ask := some _, bid := some _, time := some time } => do
      return if ← book.window.contains time clock then .usable else .stale
  | some { ask := some _, bid := some _, time := none } => .ok .usable
  | _ => .ok .missing

end QuoteBook

end SpreadWatch
