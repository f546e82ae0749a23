import SpreadWatch.Binary64.Text
import SpreadWatch.Calendar.Iso
import SpreadWatch.Decimal.Text
import SpreadWatch.Text.Quoted
import SpreadWatch.Value.Basic

/-!
How values are shown inside messages. `Value.toText` shows a text as it is; `Value.shown` quotes
it and names the types that have no notation of their own, and is what stands inside containers.
-/

namespace SpreadWatch.Value

def commaSeparated (numbers : List Nat) : String :=
  ", ".intercalate (numbers.map fun number => String.ofList (Text.decimalDigits number))

def intText (i : Int) : String :=
  String.ofList ((if i < 0 then ['-'] else []) ++ Text.decimalDigits i.natAbs)

def shownDate (date : Calendar.Date) : String :=
  "datetime.date(" ++ commaSeparated [date.year, date.month, date.day] ++ ")"

/-- A fixed offset is split into whole days, rounded down, and seconds. -/
def shownOffset (seconds : Int) : String :=
  let days := Int.fdiv seconds 86400
  let rest := Int.fmod seconds 86400
  let parts := (if days = 0 then [] else ["days=" ++ intText days]) ++
    (if rest = 0 then [] else ["seconds=" ++ intText rest])
  "datetime.timezone(datetime.timedelta(" ++ ", ".intercalate parts ++ "))"

def shownZone : Calendar.Zone → String
  | .utc => "datetime.timezone.utc"
  | .fixed seconds => shownOffset seconds
  | .named zone => "zoneinfo.ZoneInfo(key=" ++ Text.quoted zone.name ++ ")"

/-- Seconds and microseconds are shown only down to the last that is not zero. -/
def shownMoment (m : Calendar.Moment) : String :=
  let inDay := (m.wall % Calendar.day).toNat
  let seconds := inDay / 1000000
  let micros := inDay % 1000000
  let fine := if micros ≠ 0 then [seconds % 60, micros]
    else if seconds % 60 ≠ 0 then [seconds % 60] else []
  let coarse := [m.date.year, m.date.month, m.date.day, seconds / 3600, seconds / 60 % 60]
  "datetime.datetime(" ++ commaSeparated (coarse ++ fine) ++
    (if m.fold then ", fold=1" else "") ++
    (match m.zone with
      | some zone => ", tzinfo=" ++ shownZone zone
      | none => "") ++ ")"

def elision : Value → String
  | .list _ => "[...]"
  | _ => "\x7b...\x7d"

mutual

/-- A value as it is shown inside the knots of these labels. -/
def shownIn (around : List (Nat × String)) : Value → String
  | .null => "None"
  | .bool value => if value then "True" else "False"
  | .int value => intText value
  | .float value => value.toText
  | .decimal value => "Decimal('" ++ value.toText ++ "')"
  | .text value => Text.quoted value
  | .bytes value => Text.quotedBytes value
  | .list items => "[" ++ ", ".intercalate (shownItems around items) ++ "]"
  | .pair first second => "(" ++ shownIn around first ++ ", " ++ shownIn around second ++ ")"
  | .set [] => "set()"
  | .set (first :: rest) =>
      "\x7b" ++ ", ".intercalate (shownIn around first :: shownItems around rest) ++ "\x7d"
  | .dict entries => "\x7b" ++ ", ".intercalate (shownEntries around entries) ++ "\x7d"
  | .date value => shownDate value
  | .moment value => shownMoment value
  | .knot label body =>
      match around.lookup label with
      | some mark => mark
      | none => shownIn ((label, elision body) :: around) body
  | .back label => (around.lookup label).getD "..."

def shownItems (around : List (Nat × String)) : List Value → List String
  | [] => []
  | item :: rest => shownIn around item :: shownItems around rest

def shownEntries (around : List (Nat × String)) : List (Value × Value) → List String
  | [] => []
  | (key, value) :: rest =>
      (shownIn around key ++ ": " ++ shownIn around value) :: shownEntries around rest

end

def shown (value : Value) : String := shownIn [] value

def toText : Value → String
  | .text value => value
  | .decimal value => value.toText
  | .date value => value.toText
  | .moment value => String.ofList (value.toChars ' ')
  | value => value.shown

def typeName : Value → String
  | .null => "NoneType"
  | .bool _ => "bool"
  | .int _ => "int"
  | .float _ => "float"
  | .decimal _ => "decimal.Decimal"
  | .text _ => "str"
  | .bytes _ => "bytes"
  | .list _ => "list"
  | .pair .. => "tuple"
  | .set _ => "set"
  | .dict _ => "dict"
  | .date _ => "datetime.date"
  | .moment _ => "datetime.datetime"
  | .knot _ body => body.typeName
  | .back _ => "list"

def plainTypeName (value : Value) : String := (value.typeName.splitOn ".").getLastD ""

end SpreadWatch.Value
