import SpreadWatch.Value.Access
import SpreadWatch.Value.Write

/-!
Destinations of spread results: standard output or a file, each with its options. An entry of the
delivery section names a method and options by name; an option that the method does not know, or
that the entry gives in its own place already, is refused.
-/

namespace SpreadWatch.Config

inductive Method where
  | stdout
  | file
deriving DecidableEq, Repr

def Method.name : Method → String
  | .stdout => "stdout"
  | .file => "file_output"

def Method.ofValue? : Value → Option Method
  | .text "stdout" => some .stdout
  | .text "file_output" => some .file
  | _ => none

/-- The options of a method, with values of any type as they were given. -/
inductive SinkOptions where
  | stdout (format includeTimestamp : Value)
  | file (outputPath format appendMode createDirs : Value)
deriving Repr

def SinkOptions.method : SinkOptions → Method
  | .stdout .. => .stdout
  | .file .. => .file

structure Destination where
  name : Value
  options : SinkOptions
  enabled : Value := .bool true
  instruments : Value := .null
deriving Repr

structure Delivery where
  destinations : List Destination
  enabled : Value := .bool true
deriving Repr

/-- The names under which messages report the makers of destinations and of their options. -/
def Method.maker : Method → String
  | .stdout => "create_stdout_destination()"
  | .file => "create_file_destination()"

def Method.optionMaker : Method → String
  | .stdout => "StdoutDeliveryConfig.__init__()"
  | .file => "FileDeliveryConfig.__init__()"

def sharedNames : List String := ["format", "enabled", "instruments_filter"]

def Method.optionNames : Method → List String
  | .stdout => ["include_timestamp"]
  | .file => ["append_mode", "create_dirs"]

def unknownOption? (method : Method) (options : Entries) : Option Failure :=
  options.findSome? fun (key, _) =>
    match key with
    | .text "self" =>
        some (.wrongType (method.optionMaker ++ " got multiple values for argument 'self'"))
    | .text name =>
        if sharedNames.contains name || method.optionNames.contains name then none
        else some (.wrongType (method.optionMaker ++
          " got an unexpected keyword argument '" ++ name ++ "'"))
    | _ => none

def hasTextKeys (options : Entries) : Bool :=
  options.all fun (key, _) => match key with
    | .text _ => true
    | _ => false

def notKeywords : Failure := .wrongType "keywords must be strings"

def SinkOptions.ofEntries (method : Method) (path : Value) (options : Entries) : SinkOptions :=
  let option (name : String) (default : Value) := (options.get? name).getD default
  match method with
  | .stdout => .stdout (option "format" (.text "json")) (option "include_timestamp" (.bool true))
  | .file => .file path (option "format" (.text "jsonl")) (option "append_mode" (.bool true))
      (option "create_dirs" (.bool true))

def Destination.ofOptions (method : Method) (name path : Value) (options : Entries) :
    Except Failure Destination := do
  if ! hasTextKeys options then throw notKeywords
  if options.contains "name" then
    throw (.wrongType (method.maker ++ " got multiple values for argument 'name'"))
  if let some failure := unknownOption? method options then throw failure
  return {
    name
    options := .ofEntries method path options
    enabled := (options.get? "enabled").getD (.bool true)
    instruments := options.get "instruments_filter" }

/-- A destination described by options alone, its name and path among them. -/
def Destination.ofKeywords (method : Method) (options : Entries) : Except Failure Destination := do
  if ! hasTextKeys options then throw notKeywords
  match method with
  | .stdout =>
      let name := (options.get? "name").getD (.text method.name)
      ofOptions method name .null (options.erase "name")
  | .file =>
      match options.get? "name", options.get? "output_path" with
      | some name, some path =>
          ofOptions method name path ((options.erase "name").erase "output_path")
      | _, _ => throw (.wrongType (method.maker ++ " missing required arguments"))

def notPair : Failure :=
  .badValue "dictionary update sequence element has the wrong length; 2 is required"

/-- The items that a value yields one after the other: a mapping its keys, a text its characters. -/
def itemsOf (value : Value) : Except Failure (List Value) :=
  match value.opened with
  | .list items | .set items => .ok items
  | .pair first second => .ok [first, second]
  | .dict entries => .ok (entries.map (·.1))
  | .text word => .ok (word.toList.map fun c => .text (String.ofList [c]))
  | .bytes bytes => .ok (bytes.map fun byte => .int byte.toNat)
  | other => .error (.wrongType ("'" ++ other.typeName ++ "' object is not iterable"))

def pairOfItems (index : Nat) (item : Value) : Except Failure (Value × Value) :=
  match itemsOf item with
  | .error _ => .error (.wrongType ("cannot convert dictionary update sequence element #" ++
      Value.intText index ++ " to a sequence"))
  | .ok [key, value] =>
      if key.isKey then .ok (key, value)
      else .error (.wrongType ("unhashable type: '" ++ key.typeName ++ "'"))
  | .ok _ => .error notPair

/-- The entries that pairs give one after the other, up to the first item that is no pair. -/
def entriesOfItems : Nat → Entries → List Value → Except Failure Entries
  | _, known, [] => .ok known
  | index, known, item :: rest => do
      let (key, value) ← pairOfItems index item
      entriesOfItems (index + 1) (known.insert key value) rest

/-- Options given as a mapping or as a list of pairs. Values that count as false give none. -/
def optionEntries (value : Value) : Except Failure Entries :=
  if ! value.isTruthy then .ok []
  else
    match value.entries? with
    | some entries => .ok entries
    | none => do entriesOfItems 0 [] (← itemsOf value)

def destinationError (message : String) (name : Value) : Failure :=
  .engine {
    cause := .configuration (.list [])
    message
    context := .ofFields [("destination", name)] }

def Destination.ofEntry (method : Method) (name : Value) (options : Entries)
    (enabled instruments : Value) : Except Failure Destination := do
  let path := options.get "output_path"
  let rest := if method = .file then options.erase "output_path" else options
  for shared in ["enabled", "instruments_filter"] do
    if rest.contains shared then
      throw (.wrongType ("spread_app.config.delivery." ++ method.maker ++
        " got multiple values for keyword argument '" ++ shared ++ "'"))
  let destination ← ofOptions method name path rest
  return { destination with enabled, instruments }

def Destination.ofFields (fields : Entries) : Except Failure Destination := do
  let some method := Method.ofValue? (fields.get "method")
    | throw (destinationError
        ("Unknown delivery method " ++ (← (fields.get "method").display)) (fields.get "name"))
  let name := (fields.get? "name").getD (.text method.name)
  let options ← optionEntries (fields.get "config")
  if method = .file ∧ ¬ options.contains "output_path" then
    throw (destinationError
      ("File destination " ++ (← name.display) ++ " needs an output_path") name)
  let enabled := (fields.get? "enabled").getD (.bool true)
  match ofEntry method name options enabled (fields.get "instruments_filter") with
  | .error (.wrongType text) => throw (destinationError
      ("Invalid options for destination " ++ (← name.display) ++ ": " ++ text) name)
  | result => result

def Destination.ofValue (entry : Value) : Except Failure Destination := do
  match entry.entries? with
  | some fields => ofFields fields
  | none => throw (.ofCause (.configuration (.list []))
      ("Delivery destination must be a mapping, got " ++ (← entry.display)))

/-- Everything goes to standard output, as JSON. -/
def Delivery.default : Delivery :=
  { destinations := [{
      name := .text "stdout", options := .stdout (.text "json") (.bool true) }] }

/-- Reads the delivery section; one that counts as false gives the default. -/
def Delivery.ofValue (part : Value) : Except Failure Delivery := do
  if ! part.isTruthy then return Delivery.default
  let listed ← part.memberOr "destinations" (.list [])
  let items ← if listed.isTruthy then itemsOf listed else pure []
  let destinations ← items.mapM Destination.ofValue
  return { destinations, enabled := ← part.memberOr "enabled" (.bool true) }

end SpreadWatch.Config
