import SpreadWatch.Files
import SpreadWatch.Freshness
import SpreadWatch.Log
import SpreadWatch.WaterMark

/-!
What a run reads the time from and writes to: the clock, the file tree, the console and the log.
-/

namespace SpreadWatch

structure Console where
  isOpen : Bool := true
  printed : String := ""
deriving DecidableEq, Repr, Inhabited

/-- The machine's clock shows `clock`. So does the clock that the run is given, if it is given one;
else it goes by the machine's, in UTC. Calls take no time: whenever an evaluation or a cycle looks at
the clock, it finds the reading with which it has begun. -/
structure Outlets where
  clock : Calendar.Moment
  hasOwnClock : Bool := true
  files : Files := {}
  console : Console := {}
  log : List LogRecord := []
deriving Repr

namespace Outlets

def utcNow (outlets : Outlets) : Except Failure Calendar.Moment :=
  Freshness.machineTime outlets.clock

def now (outlets : Outlets) : Except Failure Calendar.Moment :=
  if outlets.hasOwnClock then .ok outlets.clock else outlets.utcNow

def write (record : LogRecord) : Action Outlets Unit :=
  modify fun outlets => { outlets with log := outlets.log ++ [record] }

def note (level : Level) (event : String) (fields : List (String × Value)) : Action Outlets Unit :=
  write { level, event, fields }

def print (line : String) : Action Outlets Unit := do
  let outlets ← get
  if ! outlets.console.isOpen then throw (.badValue "I/O operation on closed file")
  set { outlets with
    console := { outlets.console with printed := outlets.console.printed ++ line ++ "\n" } }

/-- Takes up what has been printed and logged since the last time. -/
def collect : Action Outlets (String × List LogRecord) := do
  let outlets ← get
  set { outlets with console := { outlets.console with printed := "" }, log := [] }
  return (outlets.console.printed, outlets.log)

end Outlets

end SpreadWatch
