import SpreadWatch.Calendar.ZoneTable
import SpreadWatch.Freshness
import SpreadWatch.Text.Digit

/-!
The schedule of the daily report: a time of day by the clock of a zone, and its next occurrence
after a moment. Reading and stepping are done on wall readings, so a report is due once on every
local day, also where the clock skips or repeats the time.
-/

namespace SpreadWatch.Report

open Calendar

structure TimeOfDay where
  hour : Nat
  minute : Nat
deriving DecidableEq, Repr

def TimeOfDay.toText (time : TimeOfDay) : String :=
  String.ofList (Text.padded 2 time.hour ++ ':' :: Text.padded 2 time.minute)

/-- The longest word of digits that is read as a number, and the greatest number taken as an hour
or a minute before its range is looked at. -/
def longestNumber : Nat := 4300

def greatestArgument : Nat := 2147483647

/-- The number of a word of digit-like characters: all of them must be decimal digits. -/
def readDigits (digits : List Char) : Except Failure Nat :=
  if longestNumber < digits.length then .error (.reportTime .unreadable)
  else
    match Text.digitsValue? digits with
    | some number => .ok number
    | none => .error (.reportTime .unreadable)

def isDigitWord (word : List Char) : Bool := ! word.isEmpty && word.all Text.isDigitLike

/-- Reads a time of day written `HH:MM`, with any number of decimal digits of any script. -/
def TimeOfDay.ofText (text : String) : Except Failure TimeOfDay := do
  let chars := text.toList
  let hours := chars.takeWhile (· != ':')
  let minutes := (chars.dropWhile (· != ':')).drop 1
  if ! (isDigitWord hours && isDigitWord minutes) then
    throw (.reportTime (.malformed text))
  let hour ← readDigits hours
  let minute ← readDigits minutes
  if greatestArgument < hour || greatestArgument < minute then throw .outOfRange
  if 24 ≤ hour then throw (.reportTime .hour)
  if 60 ≤ minute then throw (.reportTime .minute)
  return { hour, minute }

def TimeOfDay.ofValue : Value → Except Failure TimeOfDay
  | .text text => ofText text
  | value => .error (.noMember value "partition")

def inYears : Option Moment → Except Failure Moment
  | some m => .ok m
  | none => .error .outOfRange

/-- A moment on a zone's clock. One without zone is a local time. -/
def readingIn (zone : Zone) (now : Moment) : Except Failure Moment :=
  if now.zone.isNone && now.wall < day then .error Freshness.firstDay
  else inYears (now.inZone? zone)

/-- The next occurrence of a time of day on the zone's clock, strictly after a moment. -/
def next (time : TimeOfDay) (zone : Zone) (now : Moment) : Except Failure Moment := do
  let reading ← readingIn zone now
  let candidate := reading.atTime time.hour time.minute
  if candidate.wall ≤ reading.wall then inYears candidate.nextDay? else return candidate

def secondsUntil (time : TimeOfDay) (zone : Zone) (now : Moment) : Except Failure Binary64 := do
  Freshness.latency now (← next time zone now)

def zoneOf (name : String) : Except Failure Zone :=
  match zoneNamed name with
  | .ok zone => .ok (.named zone)
  | .error .malformed => .error (.badValue "ZoneInfo keys must be normalized relative paths")
  | .error .unknown => .error (.unknownZone name)

end SpreadWatch.Report
