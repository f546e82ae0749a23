import SpreadWatch.Decimal.Basic
import SpreadWatch.Text.Blank
import SpreadWatch.Text.Digit

/-!
The written form of decimals. A number is written positionally while its exponent is not positive
and its leading digit stands at the sixth place after the point or above; otherwise one digit
stands before the point and the exponent is written out. The reader takes every such form, blanks
around it, underscores anywhere and the decimal digits of every script, and keeps the number
exactly as it is written.
-/

namespace SpreadWatch.Decimal

def exponentText (exponent : Int) : List Char :=
  (if exponent < 0 then '-' else '+') :: Text.decimalDigits exponent.natAbs

def magnitudeText (coefficient : Nat) (exponent : Int) : List Char :=
  let digits := Text.decimalDigits coefficient
  let leading := exponent + digits.length - 1
  if exponent ≤ 0 ∧ -6 ≤ leading then
    if exponent = 0 then digits
    else if 0 ≤ leading then
      digits.take (leading + 1).toNat ++ '.' :: digits.drop (leading + 1).toNat
    else '0' :: '.' :: (List.replicate (-leading - 1).toNat '0' ++ digits)
  else
    let fraction := if digits.length ≤ 1 then [] else '.' :: digits.drop 1
    digits.take 1 ++ fraction ++ 'E' :: exponentText leading

def toChars : Decimal → List Char
  | .finite negative coefficient exponent =>
      (if negative then ['-'] else []) ++ magnitudeText coefficient exponent
  | .infinite negative => (if negative then ['-'] else []) ++ "Infinity".toList
  | .nan negative signaling payload =>
      (if negative then ['-'] else []) ++ (if signaling then "sNaN" else "NaN").toList ++
        (if payload = 0 then [] else Text.decimalDigits payload)

def toText (d : Decimal) : String := String.ofList d.toChars

/-- One character of a number as it is read: a decimal digit of any script stands for the ASCII
digit, and no other character outside ASCII occurs in a number. -/
def plainChar? (c : Char) : Option Char :=
  if 0 < c.toNat ∧ c.toNat < 128 then some c
  else (Text.digitValue? c).map fun value => Char.ofNat ('0'.toNat + value)

def readSign : List Char → Bool × List Char
  | '-' :: rest => (true, rest)
  | '+' :: rest => (false, rest)
  | rest => (false, rest)

def readExponent? : List Char → Option Int
  | [] => some 0
  | mark :: rest =>
      if mark.toLower == 'e' then
        let (negative, digits) := readSign rest
        if digits.isEmpty || ! digits.all Char.isDigit then none
        else some (if negative then -(Text.wordValue digits : Int) else Text.wordValue digits)
      else none

def readFinite? (negative : Bool) (chars : List Char) : Option Decimal :=
  let whole := chars.takeWhile Char.isDigit
  let afterWhole := chars.dropWhile Char.isDigit
  let (fraction, afterFraction) := match afterWhole with
    | '.' :: rest => (rest.takeWhile Char.isDigit, rest.dropWhile Char.isDigit)
    | rest => ([], rest)
  if whole.isEmpty && fraction.isEmpty then none
  else (readExponent? afterFraction).map fun exponent =>
    .finite negative (Text.wordValue (whole ++ fraction)) (exponent - fraction.length)

/-- The words for infinity and NaN, in any case; a NaN may carry a payload. -/
def readSpecial? (negative : Bool) (chars : List Char) : Option Decimal :=
  match chars.map Char.toLower with
  | ['i', 'n', 'f'] => some (.infinite negative)
  | ['i', 'n', 'f', 'i', 'n', 'i', 't', 'y'] => some (.infinite negative)
  | 'n' :: 'a' :: 'n' :: payload =>
      if payload.all Char.isDigit then some (.nan negative false (Text.wordValue payload)) else none
  | 's' :: 'n' :: 'a' :: 'n' :: payload =>
      if payload.all Char.isDigit then some (.nan negative true (Text.wordValue payload)) else none
  | _ => none

/-- The greatest place of a leading digit, and the least place of a last digit, that a number may
be given with. -/
def greatestPlace : Int := 999999999999999999

def leastPlace : Int := -1999999999999999997

/-- A number is taken exactly or not at all: outside the range it is an invalid operation. -/
def inRange : Decimal → Bool
  | .finite _ coefficient exponent =>
      leastPlace ≤ exponent && exponent + digitCount coefficient - 1 ≤ greatestPlace
  | _ => true

def ofText (text : String) : Except Signal Decimal :=
  let chars := (Text.trim text.toList).filter (· != '_')
  match chars.mapM plainChar? with
  | none => .error .conversionSyntax
  | some plain =>
      let (negative, rest) := readSign plain
      match (readFinite? negative rest).or (readSpecial? negative rest) with
      | none => .error .conversionSyntax
      | some number => if inRange number then .ok number else .error .invalidOperation

end SpreadWatch.Decimal
