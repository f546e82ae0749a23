import SpreadWatch.Decimal.Order
import SpreadWatch.Market

/-!
Water marks: the lowest and the highest entry and exit spread seen for every pair. A new pair
starts from a minimum of 1 and a maximum of −1, so a minimum is never above 1 and a maximum never
below −1. The four mappings are updated one after the other; a spread that cannot be compared
stops the recording where it stands.
-/

namespace SpreadWatch

/-- An action on a state that keeps what it changed when it fails. -/
abbrev Action (σ α : Type) := ExceptT Failure (StateM σ) α

def Action.on (part : σ → τ) (put : τ → σ → σ) (action : Action τ α) : Action σ α :=
  ExceptT.mk do
    let whole ← get
    let (result, changed) := action.run (part whole)
    set (put changed whole)
    return result

inductive Mark where
  | minEntry
  | maxEntry
  | minExit
  | maxExit
deriving DecidableEq, Repr

namespace Mark

def all : List Mark := [.minEntry, .maxEntry, .minExit, .maxExit]

def title : Mark → String
  | .minEntry => "Minimum entry spreads"
  | .maxEntry => "Maximum entry spreads"
  | .minExit => "Minimum exit spreads"
  | .maxExit => "Maximum exit spreads"

def start : Mark → Decimal
  | .minEntry | .minExit => .one
  | .maxEntry | .maxExit => Decimal.one.flip

/-- The mark after another spread. Of equal ones the earlier stays. -/
def extreme : Mark → Decimal → Decimal → Except Decimal.Signal Decimal
  | .minEntry | .minExit => Decimal.least
  | .maxEntry | .maxExit => Decimal.greatest

def spreadOf : Mark → SpreadResult → Option Decimal
  | .minEntry | .maxEntry => SpreadResult.entry
  | .minExit | .maxExit => SpreadResult.exit

end Mark

/-- One value per pair, in the order in which the pairs were first given. -/
abbrev PairTable (α : Type) := List (Pair × α)

namespace PairTable

def get? (table : PairTable α) (pair : Pair) : Option α := List.lookup pair table

def set : PairTable α → Pair → α → PairTable α
  | [], pair, value => [(pair, value)]
  | (known, old) :: rest, pair, value =>
      if known = pair then (pair, value) :: rest else (known, old) :: set rest pair value

def keys (table : PairTable α) : List Pair := Pair.sort (table.map (·.1))

def sorted (table : PairTable α) : PairTable α :=
  table.keys.filterMap fun pair => (table.get? pair).map (pair, ·)

def block (text : α → String) (table : PairTable α) : String :=
  "\n".intercalate (table.sorted.map fun (pair, value) => pair.toText ++ ": " ++ text value)

end PairTable

abbrev MarkTable := PairTable Decimal

structure Tracker where
  minEntry : MarkTable := []
  maxEntry : MarkTable := []
  minExit : MarkTable := []
  maxExit : MarkTable := []
deriving DecidableEq, Repr, Inhabited

namespace Tracker

def table (tracker : Tracker) : Mark → MarkTable
  | .minEntry => tracker.minEntry
  | .maxEntry => tracker.maxEntry
  | .minExit => tracker.minExit
  | .maxExit => tracker.maxExit

def setTable (tracker : Tracker) (mark : Mark) (table : MarkTable) : Tracker :=
  match mark with
  | .minEntry => { tracker with minEntry := table }
  | .maxEntry => { tracker with maxEntry := table }
  | .minExit => { tracker with minExit := table }
  | .maxExit => { tracker with maxExit := table }

def extend (table : MarkTable) (mark : Mark) (pair : Pair) (spread : Option Decimal) :
    Except Failure MarkTable :=
  match spread with
  | none => .error (.wrongType "an absent spread cannot be compared")
  | some spread => do
      let known := (table.get? pair).getD mark.start
      return table.set pair (← liftDecimal (mark.extreme known spread))

def recordMark (result : SpreadResult) (mark : Mark) : Action Tracker Unit := do
  let tracker ← get
  let table ← extend (tracker.table mark) mark result.pair (mark.spreadOf result)
  set (tracker.setTable mark table)

def record (result : SpreadResult) : Action Tracker Unit := Mark.all.forM (recordMark result)

def blocks (tracker : Tracker) : List (String × String) :=
  Mark.all.map fun mark => (mark.title, (tracker.table mark).block Decimal.toText)

def summary (tracker : Tracker) : String :=
  "\n".intercalate (tracker.blocks.map fun (title, block) =>
    if block.isEmpty then title ++ ":" else title ++ ":\n" ++ block)

def keys (tracker : Tracker) : List Pair := tracker.minEntry.keys

def size (tracker : Tracker) : Nat := tracker.minEntry.length

def reset : Action Tracker Unit := set ({} : Tracker)

end Tracker

end SpreadWatch
