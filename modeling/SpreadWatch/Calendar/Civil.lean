/-!
Dates of the Gregorian calendar, years 1 to 9999, and their place in the count of days. Day 0 is
the first of January of year 1.
-/

namespace SpreadWatch.Calendar

structure Date where
  year : Nat
  month : Nat
  day : Nat
deriving DecidableEq, Repr

def isLeap (year : Nat) : Bool := year % 4 == 0 && (year % 100 != 0 || year % 400 == 0)

def daysInMonth (year month : Nat) : Nat :=
  if month = 2 then (if isLeap year then 29 else 28)
  else if month = 4 ∨ month = 6 ∨ month = 9 ∨ month = 11 then 30
  else 31

def daysBeforeYear (year : Nat) : Nat :=
  let past := year - 1
  past * 365 + past / 4 - past / 100 + past / 400

def daysBeforeMonth (year month : Nat) : Nat :=
  (List.range (month - 1)).foldl (fun days index => days + daysInMonth year (index + 1)) 0

def Date.isValid (date : Date) : Bool :=
  1 ≤ date.year && date.year ≤ 9999 && 1 ≤ date.month && date.month ≤ 12 &&
    1 ≤ date.day && date.day ≤ daysInMonth date.year date.month

/-- The number of days from the first of January of year 1 to a date. -/
def Date.toDays (date : Date) : Nat :=
  daysBeforeYear date.year + daysBeforeMonth date.year date.month + (date.day - 1)

/-- The month and day of the day with this index in its year. -/
def monthDay (year : Nat) : Nat → Nat → Nat → Nat × Nat
  | 0, month, index => (month, index + 1)
  | fuel + 1, month, index =>
      if index < daysInMonth year month then (month, index + 1)
      else monthDay year fuel (month + 1) (index - daysInMonth year month)

/-- The date with this count of days. Cycles of 400, 100, 4 and 1 years are split off in turn; the
last day of a cycle belongs to its last year, which the quotient alone would miss. -/
def Date.ofDays (days : Nat) : Date :=
  let cycles400 := days / 146097
  let in400 := days % 146097
  let cycles100 := min (in400 / 36524) 3
  let in100 := in400 - cycles100 * 36524
  let cycles4 := in100 / 1461
  let in4 := in100 % 1461
  let years := min (in4 / 365) 3
  let year := cycles400 * 400 + cycles100 * 100 + cycles4 * 4 + years + 1
  let (month, day) := monthDay year 11 1 (in4 - years * 365)
  { year, month, day }

def Date.weekday (date : Date) : Nat := date.toDays % 7

end SpreadWatch.Calendar
