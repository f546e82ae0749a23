import SpreadWatch.Value.Number

/-!
Freshness of market times. A market time is usable while its age by the clock does not exceed the
accepted age, and does not lie further in the future than the allowed skew. Both ends are included.
-/

namespace SpreadWatch.Freshness

open Calendar

/-- A duration in microseconds as seconds, correctly rounded. -/
def seconds (micros : Int) : Binary64 :=
  .ofRatio (decide (micros < 0)) micros.natAbs 1000000

def mixedZones : Failure := .wrongType "can't subtract offset-naive and offset-aware datetimes"

def elapsed (market clock : Moment) : Except Failure Int :=
  match clock.since? market with
  | some micros => .ok micros
  | none => .error mixedZones

/-- The seconds from a market time to a clock reading; positive if the market time is older. -/
def latency (market clock : Moment) : Except Failure Binary64 :=
  (elapsed market clock).map seconds

def firstDay : Failure := .badValue "year 0 is out of range"

def toUtc (m : Moment) : Except Failure Moment :=
  match m.toUtc? with
  | some utc => .ok utc
  | none => .error .outOfRange

/-- The machine's clock, which shows a local time, in UTC. Finding the local time's offset takes the
day before, so a reading without zone must not lie on the first day of all. -/
def machineTime (reading : Moment) : Except Failure Moment :=
  if reading.zone.isNone && reading.wall < day then .error firstDay else toUtc reading

structure Window where
  maxAge : Value
  maxSkew : Value
deriving Repr

/-- Whether a market time is neither too old nor too far in the future. The clock is read after the
market time is converted. -/
def Window.contains (window : Window) (market : Moment) (clock : Except Failure Moment) :
    Except Failure Bool := do
  let age ← latency (← toUtc market) (← toUtc (← clock))
  if (← Value.compareWith? age window.maxAge) == some .gt then return false
  let earliest ← window.maxSkew.negate
  return (← Value.compareWith? age earliest) != some .lt

end SpreadWatch.Freshness
