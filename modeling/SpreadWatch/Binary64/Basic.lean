import SpreadWatch.Decimal.Order

/-!
Double precision binary numbers as exact data. Every operation forms the exact ratio of integers
and rounds it once, to nearest with ties to even, so nothing hangs on the machine's own floats.
-/

namespace SpreadWatch

/-- A double: `± mantissa · 2 ^ exponent`, an infinity, or a NaN. A finite one is kept with the
least exponent −1074 or with a mantissa of exactly 53 bits. -/
inductive Binary64 where
  | finite (negative : Bool) (mantissa : Nat) (exponent : Int)
  | infinite (negative : Bool)
  | nan
deriving DecidableEq, Repr

namespace Binary64

def zero : Binary64 := .finite false 0 (-1074)

/-- The double nearest to `± numerator / denominator`. Beyond the greatest finite double it is
the infinity of that sign. -/
def ofRatio (negative : Bool) (numerator denominator : Nat) : Binary64 :=
  if numerator = 0 then .finite negative 0 (-1074)
  else
    let guess : Int := (numerator.log2 : Int) - denominator.log2 - 53
    let scaled (exponent : Int) : Nat × Nat :=
      (numerator * power 2 (-exponent).toNat, denominator * power 2 exponent.toNat)
    let fits (exponent : Int) : Bool :=
      let (high, low) := scaled exponent
      high < low * power 2 53
    let exponent := max (if fits guess then guess else guess + 1) (-1074)
    let (high, low) := scaled exponent
    let rounded := roundHalfEven high low
    let (mantissa, place) :=
      if rounded = power 2 53 then (power 2 52, exponent + 1) else (rounded, exponent)
    if 971 < place then .infinite negative else .finite negative mantissa place

/-- The double nearest to `± coefficient · 10 ^ exponent`. Far outside the range of doubles the
answer is known without forming the power. -/
def ofScaled (negative : Bool) (coefficient : Nat) (exponent : Int) : Binary64 :=
  if coefficient = 0 then .finite negative 0 (-1074)
  else
    let leading := exponent + digitCount coefficient
    if 400 < leading then .infinite negative
    else if leading < -400 then .finite negative 0 (-1074)
    else ofRatio negative (coefficient * power 10 exponent.toNat) (power 10 (-exponent).toNat)

def ofInt (i : Int) : Binary64 := ofRatio (decide (i < 0)) i.natAbs 1

/-- The exact value as a signed numerator over a power of two. -/
def ratio (negative : Bool) (mantissa : Nat) (exponent : Int) : Int × Nat :=
  let magnitude : Int := (mantissa * power 2 exponent.toNat : Nat)
  (if negative then -magnitude else magnitude, power 2 (-exponent).toNat)

def negate : Binary64 → Binary64
  | .finite negative mantissa exponent => .finite (! negative) mantissa exponent
  | .infinite negative => .infinite (! negative)
  | .nan => .nan

def add : Binary64 → Binary64 → Binary64
  | .nan, _ => .nan
  | _, .nan => .nan
  | .infinite a, .infinite b => if a == b then .infinite a else .nan
  | .infinite a, .finite .. => .infinite a
  | .finite .., .infinite b => .infinite b
  | .finite n₁ m₁ e₁, .finite n₂ m₂ e₂ =>
      let (a, c) := ratio n₁ m₁ e₁
      let (b, d) := ratio n₂ m₂ e₂
      let sum := a * d + b * c
      if sum = 0 then .finite (n₁ && n₂) 0 (-1074)
      else ofRatio (decide (sum < 0)) sum.natAbs (c * d)

def multiply : Binary64 → Binary64 → Binary64
  | .nan, _ => .nan
  | _, .nan => .nan
  | .infinite a, .infinite b => .infinite (a ^^ b)
  | .infinite a, .finite b m _ => if m = 0 then .nan else .infinite (a ^^ b)
  | .finite a m _, .infinite b => if m = 0 then .nan else .infinite (a ^^ b)
  | .finite n₁ m₁ e₁, .finite n₂ m₂ e₂ =>
      let (a, c) := ratio n₁ m₁ e₁
      let (b, d) := ratio n₂ m₂ e₂
      ofRatio (n₁ ^^ n₂) (a * b).natAbs (c * d)

/-- The same number as a decimal, digit for digit. A power of two in the denominator becomes a
power of ten: `n / 2 ^ k = n · 5 ^ k / 10 ^ k`, with the fraction in lowest terms. -/
def toDecimal : Binary64 → Decimal
  | .nan => .nan false false 0
  | .infinite negative => .infinite negative
  | .finite negative mantissa exponent =>
      if 0 ≤ exponent then .finite negative (mantissa * power 2 exponent.toNat) 0
      else
        let whole := power 2 (-exponent).toNat
        let common := Nat.gcd mantissa whole
        let places := (whole / common).log2
        .finite negative (mantissa / common * power 5 places) (-(places : Int))

def ofDecimal : Decimal → Binary64
  | .finite negative coefficient exponent => ofScaled negative coefficient exponent
  | .infinite negative => .infinite negative
  | .nan .. => .nan

def isZero : Binary64 → Bool
  | .finite _ mantissa _ => mantissa == 0
  | _ => false

end Binary64

end SpreadWatch
