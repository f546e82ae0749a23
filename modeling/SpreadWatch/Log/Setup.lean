import SpreadWatch.Config.Settings
import SpreadWatch.Log
import SpreadWatch.Text.Capital
import SpreadWatch.WaterMark

/-!
The set-up of the log: the threshold below which records are dropped, and the form of what is
printed. The threshold is chosen by the first set-up and stays; the form is that of the latest.
-/

namespace SpreadWatch.Log

def thresholdNamed? : String → Option Nat
  | "NOTSET" => some 0
  | "DEBUG" => some 10
  | "INFO" => some 20
  | "WARN" | "WARNING" => some 30
  | "ERROR" => some 40
  | "CRITICAL" | "FATAL" => some 50
  | _ => none

/-- The names that are known beside those of levels, and why they cannot be thresholds. -/
def otherNames : List (String × Failure) :=
  [("BASIC_FORMAT", .badValue "Unknown level"),
    ("_STYLES", .wrongType "Level not an integer or a valid string")]

/-- The threshold of a level given as any value, in letters of either case. A name that is known but
belongs to no level is refused only when the threshold is to be set. -/
def thresholdOf : Value → Except Failure (Except Failure Nat)
  | .text name =>
      let name := Text.capitals name
      match thresholdNamed? name, otherNames.lookup name with
      | some threshold, _ => .ok (.ok threshold)
      | none, some refusal => .ok (.error refusal)
      | none, none => .error (.missingMember ("no level has the name " ++ name))
  | level => .error (.noMember level "upper")

structure Options where
  level : Value := .text "INFO"
  formatJson : Value := .bool false
  includeTimestamp : Value := .bool true
  includeCaller : Value := .bool false
  extraSteps : Value := .null
deriving Repr

def optionNames : List String :=
  ["level", "format_json", "include_timestamp", "include_caller", "extra_processors"]

/-- Options given by name. A name that there is no option for is refused. -/
def Options.ofEntries (entries : Entries) : Except Failure Options := do
  let known (key : Value) := optionNames.any fun name => Value.isText name key
  if entries.any fun entry => ! known entry.1 then
    throw (.wrongType "got an unexpected keyword argument")
  let default : Options := {}
  return {
    level := Config.valueOr entries "level" default.level
    formatJson := Config.valueOr entries "format_json" default.formatJson
    includeTimestamp := Config.valueOr entries "include_timestamp" default.includeTimestamp
    includeCaller := Config.valueOr entries "include_caller" default.includeCaller
    extraSteps := Config.valueOr entries "extra_processors" default.extraSteps }

def Options.ofParams (params : Config.LoggingParams) : Options :=
  { level := params.level
    formatJson := params.formatJson
    includeTimestamp := params.includeTimestamp }

/-- The state of the log. Records are let through from the threshold on. Steps that are values and
no functions make every record that is let through fail. -/
structure Setup where
  threshold : Nat := Level.rank .warning
  isSet : Bool := false
  isJson : Bool := false
  hasTimestamp : Bool := false
  hasCaller : Bool := false
  extraSteps : List Value := []
deriving Repr

namespace Setup

/-- Sets the threshold for the first time; later ones have no effect. A refused one leaves the
threshold as it was, but counts as set. -/
def chooseThreshold (threshold : Except Failure Nat) : Action Setup Unit := do
  if ! (← get).isSet then
    modify fun setup => { setup with isSet := true }
    let threshold ← threshold
    modify fun setup => { setup with threshold }

/-- Applies options. The threshold is set before the further steps are looked at. -/
def configure (options : Options) : Action Setup Unit := do
  chooseThreshold (← thresholdOf options.level)
  let extraSteps ←
    if options.extraSteps.isTruthy then Config.itemsOf options.extraSteps else pure []
  modify fun setup => { setup with
    isJson := options.formatJson.isTruthy
    hasTimestamp := options.includeTimestamp.isTruthy
    hasCaller := options.includeCaller.isTruthy
    extraSteps }

def lets (setup : Setup) (level : Level) : Bool := decide (setup.threshold ≤ level.rank)

def nameOf (logger : String) : String := if logger.isEmpty then "root" else logger

def print (setup : Setup) (logger : String) : List LogRecord → Except Failure String
  | [] => .ok ""
  | record :: rest =>
      if setup.lets record.level then do
        if let some step := setup.extraSteps.head? then
          throw (.wrongType ("'" ++ step.typeName ++ "' object is not callable"))
        let line ← record.jsonLine (nameOf logger)
        return line ++ "\n" ++ (← print setup logger rest)
      else print setup logger rest

end Setup

end SpreadWatch.Log
