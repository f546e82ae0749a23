import SpreadWatch.Config.Destination
import SpreadWatch.Outlets

/-!
Sinks for spread results: standard output, a file, or a rehearsed sink that answers from a list.
A sink may be limited to some instruments, and counts what it delivered and what it failed to.
-/

namespace SpreadWatch

inductive Cue where
  | succeed
  | fail
  | breakDown
  | stayEmpty
deriving DecidableEq, Repr

/-- A file holds one array of all events, or one event per line. -/
inductive FileForm where
  | array
  | lines
deriving DecidableEq, Repr

inductive Medium where
  | console (format includeTimestamp : Value)
  | file (path : FilePath) (form : FileForm) (appends : Bool)
  | rehearsal (cues : List Cue)
deriving Repr

structure Sink where
  name : Value
  instruments : Value := .null
  medium : Medium
  delivered : Nat := 0
  failed : Nat := 0
deriving Repr

structure Receipt where
  isSuccess : Bool
  message : String
  failure : Option Failure := none
deriving Repr

namespace Receipt

def succeeded (message : String) : Receipt := { isSuccess := true, message }

def failed (lead : String) (failure : Failure) : Receipt :=
  { isSuccess := false, message := lead ++ ": " ++ failure.text, failure := some failure }

def status (receipt : Receipt) : String := if receipt.isSuccess then "success" else "failed"

end Receipt

namespace Sink

/-- Whether the sink wants results for an instrument. Null stands for all instruments. -/
def accepts (sink : Sink) (instrument : String) : Except Failure Bool :=
  match sink.instruments with
  | .null => .ok true
  | wanted => wanted.hasMember instrument

def count (sink : Sink) (receipt : Receipt) : Sink :=
  if receipt.isSuccess then { sink with delivered := sink.delivered + 1 }
  else { sink with failed := sink.failed + 1 }

def resetCounts (sink : Sink) : Sink := { sink with delivered := 0, failed := 0 }

/-- The part of the deliveries that succeeded, zero if there were none. -/
def successRate (sink : Sink) : Binary64 :=
  if sink.delivered + sink.failed = 0 then .ofInt 0
  else .ofRatio false sink.delivered (sink.delivered + sink.failed)

def formOf? : Value → Option FileForm
  | .text "json" => some .array
  | .text "jsonl" => some .lines
  | _ => none

/-- The file of a file sink. If asked for, the directories above it are made, also when the form is
refused afterwards. -/
def createFile (path format appendMode createDirs : Value) (files : Files) :
    Except Failure (Medium × Files) := do
  let .text path := path | throw (.wrongType
    ("expected str, bytes or os.PathLike object, not " ++ path.typeName))
  let path := FilePath.ofText path
  let files ← if createDirs.isTruthy then files.makeDirectories path.parent else pure files
  let some form := formOf? format | throw (.engine {
    cause := .delivery (.text Config.Method.file.name) .null
    message := "Unsupported format: " ++ (← format.written) })
  return (.file path form appendMode.isTruthy, files)

/-- The sink of a destination. Its name must have a text. -/
def create (destination : Config.Destination) (files : Files) : Except Failure (Sink × Files) := do
  let _ ← destination.name.written
  let (medium, files) ← match destination.options with
    | .stdout format includeTimestamp => pure (.console format includeTimestamp, files)
    | .file path format appendMode createDirs =>
        createFile path format appendMode createDirs files
  return ({ name := destination.name, instruments := destination.instruments, medium }, files)

def createEach : List Config.Destination → Files → Except Failure (List Sink × Files)
  | [], files => .ok ([], files)
  | destination :: rest, files => do
      let (sink, files) ← create destination files
      let (sinks, files) ← createEach rest files
      return (sink :: sinks, files)

def createAll (delivery : Config.Delivery) (files : Files) : Except Failure (List Sink × Files) :=
  if delivery.enabled.isTruthy then
    createEach (delivery.destinations.filter fun destination => destination.enabled.isTruthy) files
  else .ok ([], files)

end Sink

end SpreadWatch
