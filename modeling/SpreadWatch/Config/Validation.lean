import SpreadWatch.Fee
import SpreadWatch.Report.Schedule
import SpreadWatch.Text.Blank
import SpreadWatch.Text.Capital

/-!
Validation of configuration sections. Each check returns its findings in the order in which the
fields are looked at; an empty list means that the section is accepted. A section that is no
mapping fails where its members are asked for.
-/

namespace SpreadWatch.Config

structure Finding where
  field : String
  message : String
  value : Value
deriving Repr

def Finding.toValue (finding : Finding) : Value :=
  .ofFields [("field", .text finding.field), ("message", .text finding.message),
    ("value", finding.value)]

def findingUnless (accepted : Bool) (field message : String) (value : Value) : List Finding :=
  if accepted then [] else [{ field, message, value }]

def checkMember (name : String) (params : Value) (check : Value → Except Failure (List Finding)) :
    Except Failure (List Finding) := do
  match ← params.member? name with
  | some value => check value
  | none => return []

/-- An integer that satisfies a bound. Truth values are no integers. -/
def isIntWhere (bound : Int → Bool) : Value → Bool
  | .int value => bound value
  | _ => false

def isBool : Value → Bool
  | .bool _ => true
  | _ => false

def checkQuotes (params : Value) : Except Failure (List Finding) := do
  let age ← checkMember "max_age_seconds" params fun value =>
    return findingUnless (isIntWhere (0 < ·) value) "max_age_seconds"
      "Must be a positive integer" value
  let skew ← checkMember "max_future_skew_seconds" params fun value =>
    return findingUnless (isIntWhere (0 ≤ ·) value) "max_future_skew_seconds"
      "Must be a non-negative integer" value
  return age ++ skew

def feeMessage : String := "Must be a fee fraction in [0, 1)"

/-- The finding on a fee. Its field is named only if there is one. -/
def checkFee (field : Except Failure String) (fee : Value) : Except Failure (List Finding) := do
  if (← feeFraction? fee).isSome then return []
  return [{ field := ← field, message := feeMessage, value := fee }]

def checkFeeEntries : List (Value × Value) → Except Failure (List Finding)
  | [] => .ok []
  | (exchange, fee) :: rest => do
      let first ← checkFee (exchange.written.map ("fee_overrides." ++ ·)) fee
      return first ++ (← checkFeeEntries rest)

def checkFees (params : Value) : Except Failure (List Finding) := do
  let default ← checkMember "default_fee" params (checkFee (.ok "default_fee"))
  let overrides ← params.memberOr "fee_overrides" (.dict [])
  match overrides.entries? with
  | some entries => return default ++ (← checkFeeEntries entries)
  | none =>
      return default ++ findingUnless false "fee_overrides"
        "Must be a mapping of exchange to fee fraction" overrides

/-- Whether the text of a value is a time of day. A number too large to be looked at fails. -/
def isReportTime (value : Value) : Except Failure Bool :=
  match value.written.bind Report.TimeOfDay.ofText with
  | .ok _ => .ok true
  | .error (.reportTime _) | .error (.badValue _) => .ok false
  | .error failure => .error failure

def isZoneName (value : Value) : Bool :=
  (value.written.toOption.map Calendar.zoneNamed).any (·.isOk)

def checkSummary (params : Value) : Except Failure (List Finding) := do
  let enabled ← checkMember "enabled" params fun value =>
    return findingUnless (isBool value) "enabled" "Must be a boolean" value
  let time ← checkMember "report_time" params fun value => do
    return findingUnless (← isReportTime value) "report_time"
      "Must be a wall-clock time formatted HH:MM" value
  let zone ← checkMember "timezone" params fun value =>
    return findingUnless (isZoneName value) "timezone" "Must be an IANA time zone name" value
  return enabled ++ time ++ zone

def levelNames : List String := ["DEBUG", "INFO", "WARNING", "ERROR", "CRITICAL"]

def isLevelName : Value → Bool
  | .text name => levelNames.contains (Text.capitals name)
  | _ => false

def checkLogging (params : Value) : Except Failure (List Finding) := do
  let level ← checkMember "level" params fun value =>
    return findingUnless (isLevelName value) "level"
      ("Must be one of " ++ ", ".intercalate levelNames) value
  let flag (name : String) := checkMember name params fun value =>
    return findingUnless (isBool value) name "Must be a boolean" value
  return level ++ (← flag "format_json") ++ (← flag "include_timestamp")

def isName : Value → Bool
  | .text name => Text.isNonBlank name
  | _ => false

def isSameText : Value → Value → Bool
  | .text a, .text b => a == b
  | _, _ => false

def isInstrumentList (value : Value) : Bool :=
  value.items?.any fun instruments => ! instruments.isEmpty && instruments.all isName

def checkCombination (index : Nat) (combination : Value) : List Finding :=
  let place := "trade_combinations[" ++ Value.intText index ++ "]"
  match combination.entries? with
  | some entries =>
      let long := Entries.get entries "long"
      let short := Entries.get entries "short"
      let instruments := Entries.get entries "instruments"
      findingUnless (isName long) (place ++ ".long") "Must be a non-empty exchange name" long ++
        findingUnless (isName short) (place ++ ".short") "Must be a non-empty exchange name"
          short ++
        findingUnless (! isSameText long short) place "Long and short exchanges must differ" long ++
        findingUnless (isInstrumentList instruments) (place ++ ".instruments")
          "Must be a non-empty list of instrument names" instruments
  | none =>
      findingUnless false place "Must be a mapping with long, short and instruments" combination

def checkCombinations (combinations : Value) : List Finding :=
  match combinations.items? with
  | some items => (items.mapIdx checkCombination).flatten
  | none => findingUnless false "trade_combinations" "Must be a list" combinations

def checkAll (config : Value) : Except Failure (List Finding) := do
  let quotes ← checkMember "quotes" config checkQuotes
  let fees ← checkMember "fees" config checkFees
  let summary ← checkMember "summary" config checkSummary
  let logging ← checkMember "logging" config checkLogging
  let combinations ← checkMember "trade_combinations" config fun value =>
    return checkCombinations value
  return quotes ++ fees ++ summary ++ logging ++ combinations

end SpreadWatch.Config
