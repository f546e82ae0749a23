import SpreadWatch.Sink.FileText

/-!
Delivering events and publishing results. A sink answers a delivery with one receipt per event;
publishing turns whatever goes wrong in a delivery into a failed receipt, counts it and logs it.
-/

namespace SpreadWatch.Sink

abbrev Channel := Sink × Outlets

def onOutlets (action : Action Outlets α) : Action Channel α :=
  action.on (·.2) fun outlets channel => (channel.1, outlets)

def isFileFailure : Failure → Bool
  | .file .. => true
  | _ => false

/-- The failures of encoding and printing that end in a failed receipt; others end the delivery. -/
def isTextFailure : Failure → Bool
  | .wrongType _ | .badValue _ => true
  | _ => false

/-- Delivers events to a file: all succeed or all fail. -/
def deliverToFile (path : FilePath) (form : FileForm) (appends : Bool) (events : List Value) :
    Action Channel (List Receipt) := do
  let (sink, outlets) ← get
  let (files, failure?) := writeEvents outlets.files path form appends events
  set (sink, { outlets with files })
  match failure? with
  | none => return events.map fun _ => .succeeded ("Written to " ++ path.toText)
  | some failure =>
      if isFileFailure failure then
        onOutlets (Outlets.note .warning "Spread delivery file error" [("delivery_name", sink.name),
          ("output_path", .text path.toText), ("error", .text failure.text)])
        return events.map fun _ => .failed "File system error" failure
      else if ! isTextFailure failure then throw failure
      else
        onOutlets (Outlets.note .error "Spread delivery JSON error"
          [("delivery_name", sink.name), ("error", .text failure.text)])
        return events.map fun _ => .failed "JSON encoding error" failure

def prettyLine (now : Calendar.Moment) (event : Value) : Except Failure String := do
  let long ← event.member "long_exchange"
  let short ← event.member "short_exchange"
  let instrument ← event.member "instrument"
  let entry ← event.member "entry_spread"
  let exit ← event.member "exit_spread"
  return "[" ++ now.toIso ++ "] SPREAD: " ++ (← long.written) ++ "/" ++ (← short.written) ++ " " ++
    (← instrument.written) ++ " entry=" ++ (← entry.written) ++ " exit=" ++ (← exit.written)

def stamped (outlets : Outlets) : Value → Except Failure Value
  | .dict entries => do
      let now ← outlets.utcNow
      return .dict (Entries.set entries "stdout_timestamp" (.text now.toIso))
  | event => .error (.wrongType ("'" ++ event.typeName ++ "' object is not a mapping"))

def consoleLine (format includeTimestamp : Value) (outlets : Outlets) (event : Value) :
    Except Failure String := do
  if format.isText "pretty" then prettyLine (← outlets.utcNow) event
  else if includeTimestamp.isTruthy then Json.compact (← stamped outlets event)
  else Json.compact event

/-- Prints one event. The record of a failure names the event's instrument. -/
def printEvent (format includeTimestamp event : Value) : Action Channel Receipt := do
  let (sink, outlets) ← get
  let printing : Action Channel Receipt := do
    onOutlets (Outlets.print (← consoleLine format includeTimestamp outlets event))
    return .succeeded "Printed to stdout"
  tryCatch printing fun failure => do
    if ! (isFileFailure failure || isTextFailure failure) then throw failure
    let instrument ← event.memberOr "instrument" .null
    onOutlets (Outlets.note .error "Failed to print spread to stdout" [("delivery_name", sink.name),
      ("instrument", instrument), ("error", .text failure.text)])
    return .failed "Stdout error" failure

/-- Answers a delivery of a rehearsed sink. Without a cue it succeeds. -/
def rehearse (cues : List Cue) (events : List Value) : Action Channel (List Receipt) := do
  modify fun (sink, outlets) => ({ sink with medium := .rehearsal cues.tail }, outlets)
  match cues.headD .succeed with
  | .succeed => return events.map fun _ => .succeeded "ok"
  | .fail => return events.map fun _ => { isSuccess := false, message := "fail" }
  | .breakDown => throw (.source "sink down")
  | .stayEmpty => return []

def deliver (events : List Value) : Action Channel (List Receipt) := do
  let (sink, _) ← get
  match sink.medium with
  | .console format includeTimestamp => events.mapM (printEvent format includeTimestamp)
  | .file path form appends => deliverToFile path form appends events
  | .rehearsal cues => rehearse cues events

/-- Delivers the event of a result, whatever goes wrong. -/
def deliverResult (result : SpreadResult) : Action Channel Receipt :=
  tryCatch
    (do
      match ← deliver [← result.toEvent] with
      | receipt :: _ => return receipt
      | [] => return { isSuccess := false, message := "No delivery result" })
    fun failure => return .failed "Unexpected error" failure

/-- Delivers a result that the sink accepts and counts the outcome; none for any other result. -/
def publish (result : SpreadResult) : Action Channel (Option Receipt) := do
  let (sink, _) ← get
  if ! (← sink.accepts result.pair.instrument) then return none
  let receipt ← deliverResult result
  modify fun (sink, outlets) => (sink.count receipt, outlets)
  if ! receipt.isSuccess then
    onOutlets (Outlets.note .warning "Spread delivery failed" [("delivery_name", sink.name),
      ("pair", .text result.pair.toText), ("error", .text receipt.message)])
  return some receipt

/-- Publishes a result to one sink after the other. A failure ends it at its sink. -/
def publishEach (result : SpreadResult) :
    List Sink → Outlets → Except Failure Unit × List Sink × Outlets
  | [], outlets => (.ok (), [], outlets)
  | sink :: rest, outlets =>
      match (publish result).run (sink, outlets) with
      | (.error failure, sink, outlets) => (.error failure, sink :: rest, outlets)
      | (.ok _, sink, outlets) =>
          let (ending, rest, outlets) := publishEach result rest outlets
          (ending, sink :: rest, outlets)

/-- The file that is written and removed again to see whether a directory can be written to. -/
def probeOf (path : FilePath) : FilePath := path.parent.child ".health_check_test"

def probe (files : Files) (path : FilePath) : Except Failure Files := do
  let files ← files.writeText (probeOf path) "test"
  files.unlink (probeOf path)

/-- Whether the sink can be delivered to. A rehearsed sink is fine once it has used its cues. -/
def isHealthy : Action Channel Bool := do
  let (sink, outlets) ← get
  match sink.medium with
  | .console .. => return outlets.console.isOpen
  | .rehearsal cues => return cues.isEmpty
  | .file path _ _ =>
      match probe outlets.files path with
      | .ok files => do
          set (sink, { outlets with files })
          return true
      | .error failure => do
          if ! isFileFailure failure then throw failure
          onOutlets (Outlets.note .warning "Health check failed"
            [("delivery_name", sink.name), ("error", .text failure.text)])
          return false

end SpreadWatch.Sink
