import SpreadWatch.Rounding

/-!
Decimal numbers with a sign, a coefficient and an exponent. Two numbers of one value but different
exponents are different data: `1.0` and `1.00` are written differently and stay apart.
-/

namespace SpreadWatch

/-- A decimal datum: `± coefficient · 10 ^ exponent`, an infinity, or a NaN with its payload. -/
inductive Decimal where
  | finite (negative : Bool) (coefficient : Nat) (exponent : Int)
  | infinite (negative : Bool)
  | nan (negative signaling : Bool) (payload : Nat)
deriving DecidableEq, Repr

namespace Decimal

inductive Signal where
  | conversionSyntax
  | invalidOperation
  | divisionUndefined
  | divisionByZero
  | overflow
deriving DecidableEq, Repr

def ofInt (i : Int) : Decimal := .finite (decide (i < 0)) i.natAbs 0

def zero : Decimal := .finite false 0 0

def one : Decimal := .finite false 1 0

def isNan : Decimal → Bool
  | .nan .. => true
  | _ => false

def isFinite : Decimal → Bool
  | .finite .. => true
  | _ => false

def isZero : Decimal → Bool
  | .finite _ coefficient _ => coefficient == 0
  | _ => false

/-- The same number with the other sign, unrounded. -/
def flip : Decimal → Decimal
  | .finite negative coefficient exponent => .finite (! negative) coefficient exponent
  | .infinite negative => .infinite (! negative)
  | .nan negative signaling payload => .nan (! negative) signaling payload

end Decimal

end SpreadWatch
