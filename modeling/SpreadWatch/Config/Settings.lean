import SpreadWatch.Config.Destination
import SpreadWatch.Fee
import SpreadWatch.Freshness

/-!
The settings of the application in four sections, with their defaults, and how a section is built
from named values. The values are of any type; validation decides which are accepted.
-/

namespace SpreadWatch.Config

structure SummaryParams where
  enabled : Value := .bool true
  reportTime : Value := .text "00:00"
  timezone : Value := .text "UTC"
deriving Repr, Inhabited

structure LoggingParams where
  level : Value := .text "INFO"
  formatJson : Value := .bool false
  includeTimestamp : Value := .bool true
deriving Repr, Inhabited

structure Settings where
  quotes : Freshness.Window
  fees : FeeParams
  summary : SummaryParams
  logging : LoggingParams
deriving Repr

/-- Quotes may be a minute old and half a minute ahead of the clock. -/
def defaultWindow : Freshness.Window := { maxAge := .int 60, maxSkew := .int 30 }

def Settings.default : Settings :=
  { quotes := defaultWindow, fees := {}, summary := {}, logging := {} }

def windowFields (window : Freshness.Window) : List (String × Value) :=
  [("max_age_seconds", window.maxAge), ("max_future_skew_seconds", window.maxSkew)]

def feeFields (fees : FeeParams) : List (String × Value) :=
  [("default_fee", fees.defaultFee), ("fee_overrides", fees.overrides)]

def summaryFields (summary : SummaryParams) : List (String × Value) :=
  [("enabled", summary.enabled), ("report_time", summary.reportTime),
    ("timezone", summary.timezone)]

def loggingFields (logging : LoggingParams) : List (String × Value) :=
  [("level", logging.level), ("format_json", logging.formatJson),
    ("include_timestamp", logging.includeTimestamp)]

def Settings.toEntries (settings : Settings) : Entries :=
  [(.text "quotes", .ofFields (windowFields settings.quotes)),
    (.text "fees", .ofFields (feeFields settings.fees)),
    (.text "summary", .ofFields (summaryFields settings.summary)),
    (.text "logging", .ofFields (loggingFields settings.logging))]

/-- The named values of a section. A value that is no mapping, a key that is no text and a name
that the section does not have are refused; `kind` is the name under which messages report it. -/
def namedValues (kind : String) (names : List String) (part : Value) : Except Failure Entries :=
  match part.entries? with
  | some entries => do
      if ! hasTextKeys entries then throw notKeywords
      for (key, _) in entries do
        if let .text name := key then
          if name == "self" then
            throw (.wrongType (kind ++ ".__init__() got multiple values for argument 'self'"))
          if ! names.contains name then
            throw (.wrongType (kind ++
              ".__init__() got an unexpected keyword argument '" ++ name ++ "'"))
      return entries
  | none => .error (.wrongType ("spread_app.config.defaults." ++ kind ++
      "() argument after ** must be a mapping, not " ++ part.typeName))

def valueOr (entries : Entries) (name : String) (default : Value) : Value :=
  (entries.get? name).getD default

def windowOf (part : Value) : Except Failure Freshness.Window := do
  let entries ← namedValues "QuoteParams" ["max_age_seconds", "max_future_skew_seconds"] part
  return {
    maxAge := valueOr entries "max_age_seconds" defaultWindow.maxAge
    maxSkew := valueOr entries "max_future_skew_seconds" defaultWindow.maxSkew }

def feesOf (part : Value) : Except Failure FeeParams := do
  let entries ← namedValues "FeeParams" ["default_fee", "fee_overrides"] part
  let default : FeeParams := {}
  return {
    defaultFee := valueOr entries "default_fee" default.defaultFee
    overrides := valueOr entries "fee_overrides" default.overrides }

def summaryOf (part : Value) : Except Failure SummaryParams := do
  let entries ← namedValues "SummaryParams" ["enabled", "report_time", "timezone"] part
  let default : SummaryParams := {}
  return {
    enabled := valueOr entries "enabled" default.enabled
    reportTime := valueOr entries "report_time" default.reportTime
    timezone := valueOr entries "timezone" default.timezone }

def loggingOf (part : Value) : Except Failure LoggingParams := do
  let entries ← namedValues "LoggingParams" ["level", "format_json", "include_timestamp"] part
  let default : LoggingParams := {}
  return {
    level := valueOr entries "level" default.level
    formatJson := valueOr entries "format_json" default.formatJson
    includeTimestamp := valueOr entries "include_timestamp" default.includeTimestamp }

def Settings.ofEntries (config : Entries) : Except Failure Settings := do
  let quotes ← windowOf (valueOr config "quotes" (.dict []))
  let fees ← feesOf (valueOr config "fees" (.dict []))
  let summary ← summaryOf (valueOr config "summary" (.dict []))
  let logging ← loggingOf (valueOr config "logging" (.dict []))
  return { quotes, fees, summary, logging }

end SpreadWatch.Config
