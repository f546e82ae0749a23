import SpreadWatch.Json.Reader
import SpreadWatch.Sink.Basic

/-!
What file sinks leave in their files. In both forms the file is opened before anything is encoded,
and what was encoded before a failure stays in it.
-/

namespace SpreadWatch.Sink

/-- The events that a file holds as one array; none if it holds anything else or cannot be read. A
number that cannot be taken in, arrays that lie too deep in each other and half a pair of units are
a failure. -/
def heldEvents (files : Files) (path : FilePath) : Except Failure (List Value) :=
  match files.readText path with
  | .error _ => .ok []
  | .ok text =>
      match Json.read text with
      | .ok (.list events) => .ok events
      | .error (.failing failure) => .error failure
      | _ => .ok []

/-- The events one per line, up to the first that cannot be encoded. -/
def eventLines : List Value → Json.Written
  | [] => { text := "" }
  | event :: rest =>
      (Json.Written.of ((Json.compact event).map (· ++ "\n"))).andThen fun _ => eventLines rest

def fileText (form : FileForm) (held : List Value) (known : String) (events : List Value) :
    Json.Written :=
  match form with
  | .array => Json.indented 0 (.list (held ++ events))
  | .lines => (Json.Written.of (.ok known)).andThen fun _ => eventLines events

/-- Writes events to a file, behind those in it or in their place. -/
def writeEvents (files : Files) (path : FilePath) (form : FileForm) (appends : Bool)
    (events : List Value) : Files × Option Failure :=
  match files.openPlace path with
  | .error failure => (files, some failure)
  | .ok (place, known) =>
      match if appends && form = .array then heldEvents files path else .ok [] with
      | .error failure => (files, some failure)
      | .ok held =>
          let written := fileText form held (if appends then known else "") events
          (files.put place (.file written.text), written.failure)

end SpreadWatch.Sink
