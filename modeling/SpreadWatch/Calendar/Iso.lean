import SpreadWatch.Calendar.Moment
import SpreadWatch.Text.Digit

/-!
The written form of dates and moments: `2024-03-01T12:00:00.250000+05:30`. Microseconds are written
only if there are any, and then with six digits; the offset of a moment without zone is left out.
-/

namespace SpreadWatch.Calendar

def Date.toChars (date : Date) : List Char :=
  Text.padded 4 date.year ++ '-' :: Text.padded 2 date.month ++ '-' :: Text.padded 2 date.day

def Date.toText (date : Date) : String := String.ofList date.toChars

/-- Hours, minutes and, if there are any or they are asked for, seconds. -/
def clockChars (seconds : Nat) (always : Bool) : List Char :=
  Text.padded 2 (seconds / 3600) ++ ':' :: Text.padded 2 (seconds / 60 % 60) ++
    if always || seconds % 60 != 0 then ':' :: Text.padded 2 (seconds % 60) else []

def offsetChars (microseconds : Int) : List Char :=
  (if microseconds < 0 then '-' else '+') :: clockChars (microseconds.natAbs / 1000000) false

def Moment.date (m : Moment) : Date := Date.ofDays (m.wall / day).toNat

def Moment.toChars (m : Moment) (separator : Char) : List Char :=
  let inDay := (m.wall % day).toNat
  let micros := inDay % 1000000
  m.date.toChars ++ separator :: clockChars (inDay / 1000000) true ++
    (if micros = 0 then [] else '.' :: Text.padded 6 micros) ++
    (m.offset?.map offsetChars).getD []

def Moment.toIso (m : Moment) : String := String.ofList (m.toChars 'T')

def wallOf (date : Date) (hour minute seconds micros : Nat) : Int :=
  date.toDays * day + ((hour * 60 + minute) * 60 + seconds : Nat) * second + micros

/-- A number of exactly `width` ASCII digits, and the rest. -/
def takeNumber? (width : Nat) (chars : List Char) : Option (Nat × List Char) :=
  let digits := chars.take width
  if digits.length = width ∧ digits.all Char.isDigit then
    some (Text.wordValue digits, chars.drop width)
  else none

def takeNumberAfter? (mark : Char) (width : Nat) : List Char → Option (Nat × List Char)
  | c :: rest => if c == mark then takeNumber? width rest else none
  | [] => none

/-- An optional part, zero if its mark does not stand here. -/
def takeOptional? (mark : Char) (width : Nat) (chars : List Char) : Option (Nat × List Char) :=
  if chars.head? == some mark then takeNumberAfter? mark width chars else some (0, chars)

def takeZone? : List Char → Option (Option Zone)
  | [] => some none
  | ['Z'] => some (some .utc)
  | sign :: rest => do
      if sign != '+' && sign != '-' then none
      let (hours, rest) ← takeNumber? 2 rest
      let (minutes, rest) ← takeNumberAfter? ':' 2 rest
      let (seconds, rest) ← takeOptional? ':' 2 rest
      if ! rest.isEmpty then none
      let total : Int := ((hours * 60 + minutes) * 60 + seconds : Nat)
      let offset := if sign == '-' then -total else total
      return some (if offset = 0 then .utc else .fixed offset)

def Moment.ofIso? (text : String) : Option Moment := do
  let (year, rest) ← takeNumber? 4 text.toList
  let (month, rest) ← takeNumberAfter? '-' 2 rest
  let (dayOfMonth, rest) ← takeNumberAfter? '-' 2 rest
  let (hour, rest) ← takeNumberAfter? 'T' 2 rest
  let (minute, rest) ← takeNumberAfter? ':' 2 rest
  let (seconds, rest) ← takeNumberAfter? ':' 2 rest
  let (micros, rest) ← takeOptional? '.' 6 rest
  let zone ← takeZone? rest
  let date : Date := { year, month, day := dayOfMonth }
  if date.isValid && hour < 24 && minute < 60 && seconds < 60 then
    some { wall := wallOf date hour minute seconds micros, zone }
  else none

end SpreadWatch.Calendar
