import SpreadWatch.Decimal.Context
import SpreadWatch.Decimal.Order
import SpreadWatch.Failure
import SpreadWatch.Value.Write

/-!
Free values as numbers: the decimal that a value is, the one that its text is, and comparisons of
measured seconds with limits of any type.
-/

namespace SpreadWatch.Value

/-- The integer that a value is; truth values count as 0 and 1. -/
def toInt? : Value → Option Int
  | .int value => some value
  | .bool value => some (if value then 1 else 0)
  | _ => none

/-- An integer that fits into a machine word; `message` tells what has to be one. -/
def wordOf (message : String) (value : Value) : Except Failure Int :=
  match value.toInt? with
  | none => .error (.badValue message)
  | some i => if -(power 2 63 : Int) ≤ i ∧ i < power 2 63 then .ok i else .error .outOfRange

def coefficientDigits (items : List Value) : Except Failure (List Nat) :=
  let message := "coefficient must be a tuple of digits"
  items.mapM fun item => do
    let digit ← wordOf message item
    if 0 ≤ digit ∧ digit ≤ 9 then return digit.toNat else throw (.badValue message)

/-- What stands in the place of an exponent: a number, or a letter for infinity or NaN. -/
inductive ExponentPart where
  | number (place : Int)
  | infinity
  | nan (signaling : Bool)

def exponentPart : Value → Except Failure ExponentPart
  | .text "F" => .ok .infinity
  | .text "n" => .ok (.nan false)
  | .text "N" => .ok (.nan true)
  | .text _ => .error (.badValue "string argument in the third position must be 'F', 'n' or 'N'")
  | value => (wordOf "exponent must be an integer" value).map .number

/-- A decimal given by its sign, the digits of its coefficient and its exponent. The parts are
looked at in the order sign, exponent, digits; an infinity has digits that do not count. -/
def decimalOfParts (items : List Value) : Except Failure Decimal :=
  match items with
  | [sign, digits, exponent] => do
      let message := "sign must be an integer with the value 0 or 1"
      let sign ← wordOf message sign
      if sign != 0 && sign != 1 then throw (.badValue message)
      let negative := sign == 1
      let part ← exponentPart exponent
      let some digits := digits.items? | throw (.badValue "coefficient must be a tuple of digits")
      let digits ← coefficientDigits digits
      let coefficient := digits.foldl (fun total digit => 10 * total + digit) 0
      let number : Decimal := match part with
        | .number place => .finite negative coefficient place
        | .infinity => .infinite negative
        | .nan signaling => .nan negative signaling coefficient
      if Decimal.inRange number then pure number else throw (.decimal .invalidOperation)
  | _ => .error (.badValue "argument must be a sequence of length 3")

def toDecimal : Value → Except Failure Decimal
  | .text value => liftDecimal (Decimal.ofText value)
  | .list items => decimalOfParts items
  | .pair first second => decimalOfParts [first, second]
  | value =>
      match value.toNumber? with
      | some number => .ok number
      | none => .error (.wrongType
          ("conversion from " ++ value.typeName ++ " to Decimal is not supported"))

/-- The decimal that the text of a value is. A double is taken at its shortest text. -/
def toDecimalByText (value : Value) : Except Failure Decimal := do
  liftDecimal (Decimal.ofText (← value.written))

def unordered (value : Value) : Failure :=
  .wrongType ("'<' not supported between instances of 'float' and '" ++ value.typeName ++ "'")

/-- The order of a measured number and a limit; none if the limit is a NaN double. -/
def compareWith? (measured : Binary64) (limit : Value) : Except Failure (Option Ordering) :=
  match limit with
  | .float value => .ok (Decimal.compare? measured.toDecimal value.toDecimal)
  | value =>
      match value.toNumber? with
      | some number => (liftDecimal (Decimal.order measured.toDecimal number)).map some
      | none => .error (unordered limit)

def everyday : Decimal.Context := { precision := 28 }

def negate : Value → Except Failure Value
  | .bool value => .ok (.int (if value then -1 else 0))
  | .int value => .ok (.int (-value))
  | .float value => .ok (.float value.negate)
  | .decimal value => (liftDecimal (everyday.negate value)).map .decimal
  | value => .error (.wrongType ("bad operand type for unary -: '" ++ value.typeName ++ "'"))

end SpreadWatch.Value
