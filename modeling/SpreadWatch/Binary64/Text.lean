import SpreadWatch.Binary64.Basic
import SpreadWatch.Text.Digit

/-!
The written form of doubles: the fewest digits that read back as the same double, and of those
the nearest. Numbers from `1e-04` up to below `1e+16` are written positionally, with at least one
digit after the point; the others with an exponent of two digits or more.
-/

namespace SpreadWatch.Binary64

/-- The exponent of the leading decimal digit of a positive ratio. -/
def leadingPlace (numerator denominator : Nat) : Int :=
  let guess : Int := (digitCount numerator : Int) - digitCount denominator
  if denominator * power 10 guess.toNat ≤ numerator * power 10 (-guess).toNat then guess
  else guess - 1

/-- The distance of `coefficient · 10 ^ exponent` from a ratio, times both denominators. -/
def distance (numerator denominator coefficient : Nat) (exponent : Int) : Nat :=
  let onGrid : Int := (coefficient * power 10 exponent.toNat * denominator : Nat)
  (onGrid - (numerator * power 10 (-exponent).toNat : Nat)).natAbs

/-- The nearest number on the decimal grid of this exponent that reads back as the given double,
if there is one: one of the two neighbours on the grid. -/
def onGrid? (value : Binary64) (numerator denominator : Nat) (exponent : Int) : Option Nat :=
  let below := numerator * power 10 (-exponent).toNat / (denominator * power 10 exponent.toNat)
  let hits := [below, below + 1].filter fun coefficient =>
    coefficient != 0 && ofScaled false coefficient exponent == value
  match hits with
  | [] => none
  | [only] => some only
  | first :: second :: _ =>
      let near := distance numerator denominator first exponent
      let far := distance numerator denominator second exponent
      if near < far then some first
      else if far < near then some second
      else if first % 2 = 0 then some first else some second

/-- The shortest coefficient with its exponent, trying one digit more at a time. Seventeen digits
always read back. -/
def shortest (value : Binary64) (numerator denominator : Nat) (leading : Int) :
    Nat → Nat → Nat × Int
  | 0, digits => (numerator * power 10 (-(leading - digits)).toNat / denominator, leading - digits)
  | fuel + 1, digits =>
      let exponent := leading - digits + 1
      match onGrid? value numerator denominator exponent with
      | some coefficient => (coefficient, exponent)
      | none => shortest value numerator denominator leading fuel (digits + 1)

/-- Digits laid out with the point after the first `point` of them. -/
def positional (digits : List Char) (point : Int) : List Char :=
  if point ≤ 0 then '0' :: '.' :: (List.replicate (-point).toNat '0' ++ digits)
  else if (digits.length : Int) ≤ point then
    digits ++ List.replicate (point - digits.length).toNat '0' ++ ['.', '0']
  else digits.take point.toNat ++ '.' :: digits.drop point.toNat

def scientific (digits : List Char) (exponent : Int) : List Char :=
  let fraction := if digits.length ≤ 1 then [] else '.' :: digits.drop 1
  digits.take 1 ++ fraction ++ 'e' :: (if exponent < 0 then '-' else '+') ::
    Text.padded 2 exponent.natAbs

def magnitudeText (mantissa : Nat) (exponent : Int) : List Char :=
  if mantissa = 0 then ['0', '.', '0']
  else
    let numerator := mantissa * power 2 exponent.toNat
    let denominator := power 2 (-exponent).toNat
    let leading := leadingPlace numerator denominator
    let (coefficient, place) :=
      shortest (.finite false mantissa exponent) numerator denominator leading 17 1
    let strip := trailingZeros (digitCount coefficient) coefficient
    let digits := Text.decimalDigits (coefficient / power 10 strip)
    let point := place + strip + digits.length
    if -4 < point ∧ point ≤ 16 then positional digits point else scientific digits (point - 1)

def toText : Binary64 → String
  | .nan => "nan"
  | .infinite negative => if negative then "-inf" else "inf"
  | .finite negative mantissa exponent =>
      String.ofList ((if negative then ['-'] else []) ++ magnitudeText mantissa exponent)

end SpreadWatch.Binary64
