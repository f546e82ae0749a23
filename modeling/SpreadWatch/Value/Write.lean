import SpreadWatch.Failure
import SpreadWatch.Rounding

/-!
Writing values out into messages. An integer is written out with at most 4300 digits, so a value
that holds a longer one has no text.
-/

namespace SpreadWatch.Value

def longestInteger : Nat := 4300

def integerBound : Nat := power 10 longestInteger

def limitText : String := "Exceeds the limit (4300 digits) for integer string conversion"

def limitAdvice : String := "; use sys.set_int_max_str_digits() to increase the limit"

def tooLong : Failure := .badValue (limitText ++ limitAdvice)

def tooManyDigits (count : Nat) : Failure :=
  .badValue (limitText ++ ": value has " ++ String.ofList (Text.decimalDigits count) ++ " digits" ++
    limitAdvice)

mutual

def isWritable : Value → Bool
  | .int value => decide (value.natAbs < integerBound)
  | .list items => areWritable items
  | .pair first second => isWritable first && isWritable second
  | .set members => areWritable members
  | .dict entries => hasWritable entries
  | .knot _ body => isWritable body
  | _ => true

def areWritable : List Value → Bool
  | [] => true
  | item :: rest => isWritable item && areWritable rest

def hasWritable : List (Value × Value) → Bool
  | [] => true
  | (key, value) :: rest => isWritable key && isWritable value && hasWritable rest

end

def written (value : Value) : Except Failure String :=
  if value.isWritable then .ok value.toText else .error tooLong

/-- The form of a value in which a text is quoted. -/
def display (value : Value) : Except Failure String :=
  if value.isWritable then .ok value.shown else .error tooLong

end SpreadWatch.Value
