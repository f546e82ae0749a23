import SpreadWatch.Config.Settings
import SpreadWatch.Config.Validation
import SpreadWatch.Files
import SpreadWatch.Yaml.Document

/-!
Loading the configuration: the defaults, over them the file `spread.yaml` of the configuration
directory, over both the overrides of the run. Mappings are merged key by key at every depth;
anything else replaces what it lies over.
-/

namespace SpreadWatch.Config

/-- Lays one mapping over another. A knot that is laid over a mapping is tied again afterwards. -/
def merge : Entries → List (Value × Value) → Entries
  | base, [] => base
  | base, (key, value) :: rest =>
      let laid := match (base.find? key).bind Value.entries?, value with
        | some inner, .dict entries => .dict (merge inner entries)
        | some inner, .knot label (.dict entries) =>
            Value.fill label (.knot label (.dict entries)) (.dict (merge inner entries))
        | _, value => value
      merge (base.insert key laid) rest

def refused (message : String) (findings : List Finding) : Failure :=
  .ofCause (.configuration (.list (findings.map Finding.toValue))) message

def refusedFile (path : FilePath) (message : String) : Failure :=
  .engine {
    cause := .configuration (.list [])
    message
    context := .ofFields [("path", .text path.toText)] }

structure Loader where
  files : Files
  directory : FilePath

namespace Loader

def path (loader : Loader) : FilePath := loader.directory.child "spread.yaml"

/-- The mapping that the file holds, empty if there is no file or nothing in it. -/
def fileEntries (loader : Loader) : Except Failure Entries := do
  if ! loader.files.contains loader.path then return []
  let text ← loader.files.readText loader.path
  match Yaml.read text with
  | .error .malformed => throw (refusedFile loader.path ("Could not parse " ++ loader.path.toText))
  | .error (.failing failure) => throw failure
  | .ok .null => return []
  | .ok value =>
      let some entries := value.entries? | throw (refusedFile loader.path
        (loader.path.toText ++ " must contain a mapping at top level"))
      return entries

/-- Defaults, file and overrides laid over each other. Overrides that count as false are none. -/
def merged (loader : Loader) (overrides : Value) : Except Failure Entries := do
  let config := merge Settings.default.toEntries (← loader.fileEntries)
  if ! overrides.isTruthy then return config
  match overrides.entries? with
  | some entries => return merge config entries
  | none => throw (.noMember overrides "items")

def settings (loader : Loader) (overrides : Value) : Except Failure Settings := do
  let config ← loader.merged overrides
  let findings ← checkAll (.dict config)
  if ! findings.isEmpty then
    let texts ← findings.mapM fun finding => do
      return finding.field ++ ": " ++ finding.message ++ " (got: " ++
        (← finding.value.written) ++ ")"
    throw (refused ("Invalid configuration: " ++ "; ".intercalate texts) findings)
  match Settings.ofEntries config with
  | .error (.wrongType text) => throw (refused ("Invalid configuration: " ++ text) [])
  | result => result

def pairsOf (combination : Value) : List Pair :=
  match combination.entries? with
  | some entries =>
      match Entries.get entries "long", Entries.get entries "short",
          (Entries.get entries "instruments").items? with
      | .text long, .text short, some instruments =>
          instruments.filterMap fun instrument => match instrument with
            | .text instrument => some { long, short, instrument }
            | _ => none
      | _, _, _ => []
  | none => []

def distinct (pairs : List Pair) : List Pair :=
  pairs.foldl (fun known pair => if known.contains pair then known else known ++ [pair]) []

def pairs (loader : Loader) (overrides : Value) : Except Failure (List Pair) := do
  let config ← loader.merged overrides
  let given := config.get "trade_combinations"
  let combinations := if given.isTruthy then given else .list []
  let findings := checkCombinations combinations
  if ! findings.isEmpty then
    let texts := findings.map fun finding => finding.field ++ ": " ++ finding.message
    throw (refused ("Invalid trade combinations: " ++ "; ".intercalate texts) findings)
  return distinct ((combinations.items?.getD []).flatMap pairsOf)

def delivery (loader : Loader) (overrides : Value) : Except Failure Delivery := do
  Delivery.ofValue ((← loader.merged overrides).get "delivery")

end Loader

end SpreadWatch.Config
