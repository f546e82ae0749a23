import SpreadWatch.Config.Loader
import SpreadWatch.Desk.Evaluate
import SpreadWatch.Log.Setup
import SpreadWatch.Report.Reporter

/-!
A watch: a desk and the daily report of its water marks, put together by hand or from a
configuration.
-/

namespace SpreadWatch

structure Watch where
  desk : Desk
  reporter : Report.Reporter := {}
  settings : Option Config.Settings := none
  logSetup : Option Log.Setup := none

/-- A desk whose pairs and sinks come from a configuration. The sinks are created first, and what
they create on the way is there when the pairs are read. -/
def Desk.ofConfig (directory : FilePath) (overrides : Value) (quotes : QuoteBook)
    (fees : FeeSource) (outlets : Outlets) : Except Failure Desk := do
  let delivery ← Config.Loader.delivery { files := outlets.files, directory } overrides
  let (sinks, files) ← Sink.createAll delivery outlets.files
  let combinations ← Config.Loader.pairs { files, directory } overrides
  return { quotes, fees, combinations, sinks, outlets := { outlets with files } }

namespace Watch

def onDesk (action : Action Desk α) : Action Watch α :=
  action.on Watch.desk fun desk watch => { watch with desk }

def onOutlets (action : Action Outlets α) : Action Watch α := onDesk (Desk.onOutlets action)

structure Sources where
  quotes : Option QuoteBook := none
  fees : Option FeeSource := none

def configuredLog (settings : Config.Settings) : Except Failure Log.Setup := do
  let (ending, setup) := (Log.Setup.configure (.ofParams settings.logging)).run {}
  ending
  return setup

def readyRecord (settings : Config.Settings) : LogRecord :=
  { level := .info
    event := "Spread app configured"
    fields := [("report_time", settings.summary.reportTime),
      ("timezone", settings.summary.timezone), ("summary_enabled", settings.summary.enabled)] }

/-- A watch built from a configuration. Its records are logged: one for the desk, one for the
watch as a whole. -/
def ofConfig (directory : FilePath) (overrides : Value) (sources : Sources) (outlets : Outlets)
    (setsUpLog : Bool) : Except Failure Watch := do
  let settings ← Config.Loader.settings { files := outlets.files, directory } overrides
  let logSetup ← if setsUpLog then (configuredLog settings).map some else pure none
  let quotes := sources.quotes.getD { window := settings.quotes }
  let fees := sources.fees.getD { params := settings.fees }
  let desk ← Desk.ofConfig directory overrides quotes fees outlets
  let reporter ← Report.Reporter.ofParams settings.summary
  return { desk, reporter, settings := some settings, logSetup }

def opening : Action Watch Unit := do
  onDesk Desk.opening
  if let some settings := (← get).settings then
    onOutlets (Outlets.write (readyRecord settings))

def now (watch : Watch) : Except Failure Calendar.Moment := watch.desk.outlets.now

def setClock (clock : Calendar.Moment) : Action Watch Unit :=
  onOutlets (modify fun outlets => { outlets with clock })

def secondsUntilReport (watch : Watch) : Except Failure Binary64 := do
  watch.reporter.secondsUntil (← watch.now)

def report : Action Watch (List (String × String)) := do
  let blocks := (← get).desk.tracker.blocks
  onOutlets (Report.logBlocks blocks)
  modify fun watch => { watch with reporter.reports := watch.reporter.reports + 1 }
  return blocks

/-- Starts waiting for the next report, from a clock reading on. Nothing happens while the reporter
is waiting already. -/
def startFrom (now : Except Failure Calendar.Moment) : Action Watch Unit := do
  let watch ← get
  if ! watch.reporter.enabled.isTruthy then
    onOutlets (Outlets.write Report.Reporter.disabledRecord)
  else if ! watch.reporter.isRunning then
    set { watch with reporter := watch.reporter.start now }
    onOutlets (Outlets.write watch.reporter.startRecord)

def start : Action Watch Unit := do
  startFrom (← get).now

def stop : Action Watch Unit :=
  modify fun watch => { watch with reporter := watch.reporter.stop }

/-- Starts at a clock reading shortly before a report is due, stays until it has been logged, and
stops. Without a start there is no report. -/
def awaitReport (now : Calendar.Moment) : Action Watch Unit := do
  let wasRunning := (← get).reporter.isRunning
  startFrom (.ok now)
  if (← get).reporter.isRunning && ! wasRunning then
    let _ ← report
  stop

end Watch

end SpreadWatch
