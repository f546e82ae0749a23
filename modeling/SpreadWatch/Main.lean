import SpreadWatch.Config.Check
import SpreadWatch.Config.Shipped

/-!
The command line: checks the configuration of the directory given as the argument, or the shipped
one, and ends with the report's exit code.
-/

namespace SpreadWatch

def placeOf (parts : List String) : List String :=
  parts.foldl (fun place part => if part == ".." then place.dropLast else place ++ [part]) []

/-- A file of this path as a file tree, empty if the file is not there. -/
def configTree (path : FilePath) (text : Option String) : Files :=
  let directories := (List.range (path.parts.length - 1)).map fun index =>
    (placeOf (path.parts.take (index + 1)), FileEntry.directory)
  match text with
  | some text => { entries := (placeOf path.parts, .file text) :: directories }
  | none => { entries := directories }

def readIfThere (path : String) : IO (Option String) := do
  try return some (← IO.FS.readFile path)
  catch _ => return none

end SpreadWatch

open SpreadWatch in
def main (arguments : List String) : IO UInt32 := do
  let directory := FilePath.ofText (arguments.headD "config")
  let path := directory.child "spread.yaml"
  let text ←
    if arguments.isEmpty then pure (some Config.shippedText) else readIfThere path.toText
  match Config.check { files := configTree path text, directory } with
  | .ok report =>
      IO.print report.text
      return UInt32.ofNat report.exitCode
  | .error failure =>
      IO.eprintln failure.text
      return 1
