import SpreadWatch.Value.Text

/-!
What can go wrong, by cause. Errors of the engine carry a message, a context and the details of
their kind; the other failures stand for wrong data met on the way: a value of the wrong type, a
missing entry, a number out of range, a file that cannot be opened.
-/

namespace SpreadWatch

inductive EngineCause where
  | general
  | precondition (field value : Value)
  | nonPositivePrice (field value : Value)
  | feeOutOfRange (field value : Value)
  | zeroPrice (field value : Value)
  | feeUnavailable (exchange instrument isBuy : Value)
  | quoteFetch (exchange instrument : Value)
  | delivery (method pair : Value)
  | configuration (findings : Value)
deriving Repr, Inhabited

def EngineCause.name : EngineCause → String
  | .general => "SpreadEngineError"
  | .precondition .. => "PreconditionViolationError"
  | .nonPositivePrice .. => "NonPositivePriceError"
  | .feeOutOfRange .. => "FeeOutOfRangeError"
  | .zeroPrice .. => "ZeroPriceError"
  | .feeUnavailable .. => "FeeUnavailableError"
  | .quoteFetch .. => "QuoteFetchError"
  | .delivery .. => "DeliveryError"
  | .configuration _ => "ConfigurationError"

def EngineCause.details : EngineCause → List (String × Value)
  | .general => []
  | .precondition field value | .nonPositivePrice field value | .feeOutOfRange field value
  | .zeroPrice field value => [("field", field), ("value", value)]
  | .feeUnavailable exchange instrument isBuy =>
      [("exchange", exchange), ("instrument", instrument), ("is_buy", isBuy)]
  | .quoteFetch exchange instrument => [("exchange", exchange), ("instrument", instrument)]
  | .delivery method pair => [("delivery_method", method), ("pair", pair)]
  | .configuration findings => [("errors", findings)]

/-- The kinds of error that a cause belongs to, itself included, in alphabetical order. A zero
price is also an arithmetic error. -/
def EngineCause.kinds (cause : EngineCause) : List String :=
  let own := match cause with
    | .general => []
    | .precondition .. => ["PreconditionViolationError"]
    | .nonPositivePrice .. | .feeOutOfRange .. => [cause.name, "PreconditionViolationError"]
    | .zeroPrice .. =>
        [cause.name, "PreconditionViolationError", "ArithmeticError", "ZeroDivisionError"]
    | _ => [cause.name]
  (own ++ ["SpreadEngineError", "Exception"]).mergeSort (fun a b => decide (a ≤ b))

def EngineCause.isPrecondition : EngineCause → Bool
  | .precondition .. | .nonPositivePrice .. | .feeOutOfRange .. | .zeroPrice .. => true
  | _ => false

structure EngineError where
  cause : EngineCause
  message : String
  context : Value := .dict []
deriving Repr, Inhabited

def EngineCause.named? (kind : String) (detail : String → Value) : Option EngineCause :=
  match kind with
  | "SpreadEngineError" => some .general
  | "PreconditionViolationError" => some (.precondition (detail "field") (detail "value"))
  | "NonPositivePriceError" => some (.nonPositivePrice (detail "field") (detail "value"))
  | "FeeOutOfRangeError" => some (.feeOutOfRange (detail "field") (detail "value"))
  | "ZeroPriceError" => some (.zeroPrice (detail "field") (detail "value"))
  | "FeeUnavailableError" =>
      some (.feeUnavailable (detail "exchange") (detail "instrument") (detail "is_buy"))
  | "QuoteFetchError" => some (.quoteFetch (detail "exchange") (detail "instrument"))
  | "DeliveryError" => some (.delivery (detail "delivery_method") (detail "pair"))
  | "ConfigurationError" =>
      let findings := detail "errors"
      some (.configuration (if findings.isTruthy then findings else .list []))
  | _ => none

inductive FileProblem where
  | missing
  | exists
  | notDirectory
  | isDirectory
  | nameTooLong
deriving DecidableEq, Repr

def FileProblem.text : FileProblem → String
  | .missing => "[Errno 2] No such file or directory"
  | .exists => "[Errno 17] File exists"
  | .notDirectory => "[Errno 20] Not a directory"
  | .isDirectory => "[Errno 21] Is a directory"
  | .nameTooLong => "[Errno 36] File name too long"

inductive ReportTimeProblem where
  | malformed (text : String)
  | hour
  | minute
  | unreadable
deriving DecidableEq, Repr

def ReportTimeProblem.text : ReportTimeProblem → String
  | .malformed text => "Report time must be HH:MM, got " ++ Text.quoted text
  | .hour => "hour must be in 0..23"
  | .minute => "minute must be in 0..59"
  | .unreadable => "a digit of the report time has no decimal value"

inductive Failure where
  | engine (error : EngineError)
  | wrongType (text : String)
  | missingMember (text : String)
  | missingKey (key : String)
  | missingItem
  | badValue (text : String)
  | reportTime (problem : ReportTimeProblem)
  | outOfRange
  | tooDeep (text : String)
  | decimal (signal : Decimal.Signal)
  | unknownZone (name : String)
  | file (problem : FileProblem) (path : String)
  | source (message : String)
deriving Repr, Inhabited

def signalName : Decimal.Signal → String
  | .conversionSyntax => "ConversionSyntax"
  | .invalidOperation => "InvalidOperation"
  | .divisionUndefined => "DivisionUndefined"
  | .divisionByZero => "DivisionByZero"
  | .overflow => "Overflow"

def Failure.text : Failure → String
  | .engine error => error.message
  | .wrongType text | .missingMember text | .badValue text | .tooDeep text => text
  | .missingKey key => Text.quoted key
  | .missingItem => "string index out of range"
  | .reportTime problem => problem.text
  | .outOfRange => "date value out of range"
  | .decimal signal => "[<class 'decimal." ++ signalName signal ++ "'>]"
  | .unknownZone name => Text.quoted ("No time zone found with key " ++ name)
  | .file problem path => problem.text ++ ": " ++ Text.quoted path
  | .source message => message

def Failure.ofCause (cause : EngineCause) (message : String) : Failure :=
  .engine { cause, message }

/-- An engine error from the name of its kind, its message and its details by name. A detail that
the kind does not have is refused. -/
def EngineError.ofDetails (kind message : String) (details : Entries) :
    Except Failure EngineError :=
  match EngineCause.named? kind details.get with
  | none => .error (.missingMember kind)
  | some cause =>
      let known := "context" :: cause.details.map (·.1)
      if details.all fun (key, _) => known.any fun name => key.sameKey (.text name) then
        let context := details.get "context"
        .ok { cause, message, context := if context.isTruthy then context else .dict [] }
      else .error (.wrongType (kind ++ " got an unexpected keyword argument"))

def Failure.noMember (value : Value) (member : String) : Failure :=
  .missingMember ("'" ++ value.typeName ++ "' object has no attribute '" ++ member ++ "'")

def liftDecimal (result : Except Decimal.Signal α) : Except Failure α :=
  result.mapError .decimal

end SpreadWatch
