import SpreadWatch.Calendar.Zone

/-!
The zones known by name: their offsets and their rules for summer time, for the years 2008 to
2037, and which texts can be zone names at all.
-/

namespace SpreadWatch.Calendar

def sundayFrom (year month day : Nat) : Date :=
  let first : Date := { year, month, day }
  { first with day := day + (6 - first.weekday) }

/-- The last Sunday of a month with 31 days. -/
def lastSunday (year month : Nat) : Date := sundayFrom year month 25

/-- The instant, in UTC, at which a clock that is `offset` seconds ahead reads this hour. -/
def instantAt (date : Date) (hour : Nat) (offset : Int) : Int :=
  (date.toDays * 86400 + hour * 3600 : Nat) - offset

def yearlyChanges (changes : Nat → List OffsetChange) : List OffsetChange :=
  (List.range 30).flatMap fun index => changes (2008 + index)

/-- Summer time from the second Sunday of March to the first of November, at two o'clock by the
clock then in force. -/
def americanTable (standard : Int) : OffsetTable :=
  { initial := standard
    changes := yearlyChanges fun year =>
      [⟨instantAt (sundayFrom year 3 8) 2 standard, standard + 3600⟩,
        ⟨instantAt (sundayFrom year 11 1) 2 (standard + 3600), standard⟩] }

/-- Summer time from the last Sunday of March to the last of October, at one o'clock UTC. -/
def europeanTable (standard : Int) : OffsetTable :=
  { initial := standard
    changes := yearlyChanges fun year =>
      [⟨instantAt (lastSunday year 3) 1 0, standard + 3600⟩,
        ⟨instantAt (lastSunday year 10) 1 0, standard⟩] }

/-- Half an hour of summer time, until the first Sunday of April and from the first of October, at
two o'clock by the clock then in force. -/
def lordHoweTable : OffsetTable :=
  { initial := 39600
    changes := yearlyChanges fun year =>
      [⟨instantAt (sundayFrom year 4 1) 2 39600, 37800⟩,
        ⟨instantAt (sundayFrom year 10 1) 2 37800, 39600⟩] }

def constantTable (offset : Int) : OffsetTable := { initial := offset, changes := [] }

def namedZones : List NamedZone :=
  [⟨"UTC", constantTable 0⟩,
    ⟨"GMT", constantTable 0⟩,
    ⟨"EST5EDT", americanTable (-18000)⟩,
    ⟨"Etc/GMT+5", constantTable (-18000)⟩,
    ⟨"America/New_York", americanTable (-18000)⟩,
    ⟨"Europe/London", europeanTable 0⟩,
    ⟨"Europe/Berlin", europeanTable 3600⟩,
    ⟨"Asia/Tokyo", constantTable 32400⟩,
    ⟨"Asia/Kolkata", constantTable 19800⟩,
    ⟨"Asia/Kathmandu", constantTable 20700⟩,
    ⟨"Australia/Lord_Howe", lordHoweTable⟩]

inductive ZoneError where
  | malformed
  | unknown
deriving DecidableEq, Repr

/-- Whether a text can be a zone name: a relative path whose parts are all names, so none is empty,
`.` or `..`, and without a null character. -/
def isZonePath (name : String) : Bool :=
  ! name.toList.contains (Char.ofNat 0) &&
    (name.toList.splitOn '/').all fun part =>
      part != [] && part != ['.'] && part != ['.', '.']

def zoneNamed (name : String) : Except ZoneError NamedZone :=
  if ! isZonePath name then .error .malformed
  else
    match namedZones.find? (·.name == name) with
    | some zone => .ok zone
    | none => .error .unknown

end SpreadWatch.Calendar
