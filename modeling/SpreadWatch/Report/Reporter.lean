import SpreadWatch.Config.Settings
import SpreadWatch.Outlets
import SpreadWatch.Report.Schedule

/-!
The reporter of the water marks: when it is due, whether it waits for its next report, and how
many reports it has logged. A report logs every block of the summary as a record of its own.
-/

namespace SpreadWatch.Report

open Calendar

structure Reporter where
  time : TimeOfDay := { hour := 0, minute := 0 }
  zone : Zone := .utc
  enabled : Value := .bool true
  isRunning : Bool := false
  reports : Nat := 0
deriving Repr

def zoneOfValue : Value → Except Failure Zone
  | .text name => zoneOf name
  | name => .error (.wrongType
      ("expected str, bytes or os.PathLike object, not " ++ name.typeName))

/-- A zone's name; one with a fixed offset is named by it. -/
def zoneText : Zone → String
  | .utc => "UTC"
  | .fixed seconds => "UTC" ++ String.ofList (offsetChars (seconds * second))
  | .named zone => zone.name

def logBlocks (blocks : List (String × String)) : Action Outlets Unit :=
  blocks.forM fun (title, block) => Outlets.write (LogRecord.ofBlock title block)

namespace Reporter

def ofParams (params : Config.SummaryParams) : Except Failure Reporter := do
  let time ← TimeOfDay.ofValue params.reportTime
  let zone ← zoneOfValue params.timezone
  return { time, zone, enabled := params.enabled }

def secondsUntil (reporter : Reporter) (now : Moment) : Except Failure Binary64 :=
  Report.secondsUntil reporter.time reporter.zone now

/-- Whether the reporter starts waiting at a clock reading: it has to know how long. -/
def start (reporter : Reporter) (now : Except Failure Moment) : Reporter :=
  { reporter with isRunning := (now.bind reporter.secondsUntil).isOk }

def stop (reporter : Reporter) : Reporter := { reporter with isRunning := false }

def startRecord (reporter : Reporter) : LogRecord :=
  { level := .info
    event := "Water-mark summary scheduled"
    fields := [("report_time", .text reporter.time.toText),
      ("timezone", .text (zoneText reporter.zone))] }

def disabledRecord : LogRecord :=
  { level := .info, event := "Water-mark summary disabled", fields := [] }

end Reporter

end SpreadWatch.Report
