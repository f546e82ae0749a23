import SpreadWatch.Calendar.Civil

/-!
Time zones. A named zone is a table of offsets from UTC with the instants at which they change;
wall readings that a change skips or repeats are told apart by a fold. The table gives the offset
at an instant and at a wall reading.

Instants and wall readings are counted from the first of January of year 1, here in seconds.
-/

namespace SpreadWatch.Calendar

/-- From the instant `start` on, in UTC, local time is UTC plus `offset` seconds. -/
structure OffsetChange where
  start : Int
  offset : Int
deriving DecidableEq, Repr

/-- The offset before all changes, and the changes in order of time. -/
structure OffsetTable where
  initial : Int
  changes : List OffsetChange
deriving DecidableEq, Repr

/-- The wall reading from which a change counts as past. Between the readings of the old and the
new offset, the first fold still reads with the old offset and the second with the new one when
the clock is set back; a skipped reading goes the other way. -/
def OffsetChange.wallStart (before : Int) (change : OffsetChange) (fold : Bool) : Int :=
  change.start + if fold then min before change.offset else max before change.offset

def offsetAtWallFrom (wall : Int) (fold : Bool) : Int → List OffsetChange → Int
  | current, [] => current
  | current, change :: rest =>
      if change.wallStart current fold ≤ wall then offsetAtWallFrom wall fold change.offset rest
      else current

/-- The offset in force at an instant, and whether the wall reading there is the second one of a
repeated hour: the instant is then less than the step back after the change. -/
def offsetAtInstantFrom (instant : Int) : Int → Bool → List OffsetChange → Int × Bool
  | current, fold, [] => (current, fold)
  | current, fold, change :: rest =>
      if change.start ≤ instant then
        offsetAtInstantFrom instant change.offset
          (decide (instant - change.start < current - change.offset)) rest
      else (current, fold)

def OffsetTable.atWall (table : OffsetTable) (wall : Int) (fold : Bool) : Int :=
  offsetAtWallFrom wall fold table.initial table.changes

def OffsetTable.atInstant (table : OffsetTable) (instant : Int) : Int × Bool :=
  offsetAtInstantFrom instant table.initial false table.changes

structure NamedZone where
  name : String
  table : OffsetTable
deriving DecidableEq, Repr

inductive Zone where
  | utc
  | fixed (seconds : Int)
  | named (zone : NamedZone)
deriving DecidableEq, Repr

/-- Two zones that show one and the same clock: the same name, or both the UTC clock. -/
def Zone.sameClock : Zone → Zone → Bool
  | .utc, .utc => true
  | .named a, .named b => a.name == b.name
  | _, _ => false

def Zone.atWall : Zone → Int → Bool → Int
  | .utc, _, _ => 0
  | .fixed seconds, _, _ => seconds
  | .named zone, wall, fold => zone.table.atWall wall fold

def Zone.atInstant : Zone → Int → Int × Bool
  | .utc, _ => (0, false)
  | .fixed seconds, _ => (seconds, false)
  | .named zone, instant => zone.table.atInstant instant

end SpreadWatch.Calendar
