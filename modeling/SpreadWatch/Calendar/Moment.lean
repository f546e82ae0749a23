import SpreadWatch.Calendar.Zone

/-!
Moments: a wall reading, with or without the zone that it is read in. Of two moments whose zones
show the same clock the wall readings are compared and subtracted, offsets aside; otherwise the
instants are. A moment without zone has no instant and is not comparable with one that has.
-/

namespace SpreadWatch.Calendar

/-- Microseconds in a second and in a day. -/
def second : Int := 1000000

def day : Int := 86400 * second

/-- A wall reading in microseconds since the first of January of year 1. `fold` marks the second
of two equal readings when a clock is set back. -/
structure Moment where
  wall : Int
  zone : Option Zone := none
  fold : Bool := false
deriving DecidableEq, Repr

def inCalendar (wall : Int) : Bool := 0 ≤ wall && wall < 3652059 * day

/-- How far the zone's clock is ahead of UTC, in microseconds; none without a zone. -/
def Moment.offset? (m : Moment) : Option Int :=
  m.zone.map fun zone => zone.atWall (m.wall / second) m.fold * second

/-- The instant in UTC, in microseconds since the first of January of year 1. -/
def Moment.instant? (m : Moment) : Option Int := m.offset?.map (m.wall - ·)

def Moment.sameClock (a b : Moment) : Bool :=
  match a.zone, b.zone with
  | none, none => true
  | some z₁, some z₂ => z₁.sameClock z₂
  | _, _ => false

def Moment.since? (a b : Moment) : Option Int :=
  if a.sameClock b then some (a.wall - b.wall)
  else do return (← a.instant?) - (← b.instant?)

def Moment.ofInstant? (zone : Zone) (instant : Int) : Option Moment :=
  if ! inCalendar instant then none
  else
    let (offset, fold) := zone.atInstant (instant / second)
    let wall := instant + offset * second
    if inCalendar wall then some { wall, zone := some zone, fold } else none

/-- The same instant in another zone; without zone a reading is taken to be UTC. It has no
answer if the instant or the new reading leaves the calendar. -/
def Moment.inZone? (m : Moment) (zone : Zone) : Option Moment :=
  if m.zone.any (·.sameClock zone) then some m
  else Moment.ofInstant? zone (m.wall - m.offset?.getD 0)

def Moment.toUtc? (m : Moment) : Option Moment :=
  match m.zone with
  | none => some { m with zone := some .utc }
  | some _ => m.inZone? .utc

def Moment.atTime (m : Moment) (hour minute : Nat) : Moment :=
  { m with wall := m.wall / day * day + (hour * 60 + minute : Nat) * 60 * second }

def Moment.nextDay? (m : Moment) : Option Moment :=
  let wall := m.wall + day
  if inCalendar wall then some { wall, zone := m.zone } else none

end SpreadWatch.Calendar
