import SpreadWatch.Config.Loader

/-!
The check of a configuration for the command line: whether it can be loaded and what validation
finds, as a printed report and an exit code.
-/

namespace SpreadWatch.Config

structure CheckReport where
  lines : List String
  exitCode : Nat
deriving DecidableEq, Repr

def CheckReport.text (report : CheckReport) : String :=
  String.join (report.lines.map (· ++ "\n"))

def countText (count : Nat) : String := Value.intText count

def check (loader : Loader) : Except Failure CheckReport := do
  let head := "Validating " ++ loader.path.toText ++ "..."
  match loader.merged .null with
  | .error (.engine error) =>
      match error.cause with
      | .configuration _ => return {
          lines := [head, "Could not load configuration: " ++ error.message], exitCode := 1 }
      | _ => throw (.engine error)
  | .error failure => throw failure
  | .ok config =>
      let findings ← checkAll (.dict config)
      if findings.isEmpty then
        let pairs ← loader.pairs .null
        return {
          lines := head ::
            ("Configuration is valid, " ++ countText pairs.length ++ " trade combinations:") ::
            pairs.map fun pair => "  - " ++ pair.toText
          exitCode := 0 }
      else
        let lines ← findings.mapM fun finding => do
          return "  - " ++ finding.field ++ ": " ++ finding.message ++
            " (value: " ++ (← finding.value.written) ++ ")"
        return {
          lines := head :: ("Found " ++ countText findings.length ++ " validation errors:") :: lines
          exitCode := 1 }

end SpreadWatch.Config
