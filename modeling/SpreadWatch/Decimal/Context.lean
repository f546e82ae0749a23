import SpreadWatch.Decimal.Basic

/-!
Decimal arithmetic at a working precision. Every operation forms its exact result, or one that
rounds like it, and `Context.finish` rounds it once, half to even, to the precision and to the
exponent range of the context.
-/

namespace SpreadWatch.Decimal

/-- A working precision with the range of the exponent of the leading digit. -/
structure Context where
  precision : Nat
  maxExponent : Int := 999999
  minExponent : Int := -999999
deriving DecidableEq, Repr

/-- The least exponent of the last digit. -/
def Context.leastExponent (c : Context) : Int := c.minExponent - c.precision + 1

/-- Rounds `± coefficient · 10 ^ exponent` once, to as many digits as the precision and the least
exponent leave. Above the range the result overflows. -/
def Context.finish (c : Context) (negative : Bool) (coefficient : Nat) (exponent : Int) :
    Except Signal Decimal :=
  if coefficient = 0 then
    .ok (.finite negative 0 (min (max exponent c.leastExponent) c.maxExponent))
  else
    let drop := max ((digitCount coefficient : Int) - c.precision) (c.leastExponent - exponent)
    let (kept, place) :=
      if drop ≤ 0 then (coefficient, exponent)
      else if digitCount coefficient < drop then (0, exponent + drop)
      else
        let rounded := roundHalfEven coefficient (power 10 drop.toNat)
        if c.precision < digitCount rounded then (rounded / 10, exponent + drop + 1)
        else (rounded, exponent + drop)
    if c.maxExponent < place + digitCount kept - 1 then .error .overflow
    else .ok (.finite negative kept place)

/-- A NaN as the result of an operation: quiet, with the payload cut to the precision. -/
def Context.quiet (c : Context) (negative : Bool) (payload : Nat) : Decimal :=
  .nan negative false (payload % power 10 c.precision)

/-- What a NaN among two operands makes of an operation: a signaling one is invalid, else the
first NaN is the result. None if there is no NaN. -/
def Context.nanResult? (c : Context) (a b : Decimal) : Option (Except Signal Decimal) :=
  match a, b with
  | .nan _ true _, _ => some (.error .invalidOperation)
  | _, .nan _ true _ => some (.error .invalidOperation)
  | .nan negative false payload, _ => some (.ok (c.quiet negative payload))
  | _, .nan negative false payload => some (.ok (c.quiet negative payload))
  | _, _ => none

def signed (negative : Bool) (magnitude : Nat) : Int :=
  if negative then -(magnitude : Int) else magnitude

/-- The sum of a number with the greater exponent and one with the smaller. If all digits of the
second lie below everything the result can show, one unit just below that takes its place: the
sum rounds the same, and no more zeros are written than the precision has digits. -/
def Context.addAligned (c : Context) (n₁ : Bool) (c₁ : Nat) (e₁ : Int) (n₂ : Bool) (c₂ : Nat)
    (e₂ : Int) : Except Signal Decimal :=
  let floor := e₁ - 1 + min 0 ((digitCount c₁ : Int) - c.precision - 1)
  let (low, place) :=
    if c₁ ≠ 0 ∧ e₂ < e₁ ∧ e₂ + digitCount c₂ - 1 < floor then (min c₂ 1, floor) else (c₂, e₂)
  let high := if c₁ = 0 then 0 else c₁ * power 10 (e₁ - place).toNat
  let sum := signed n₁ high + signed n₂ low
  let negative := if sum = 0 then n₁ && n₂ else decide (sum < 0)
  c.finish negative sum.natAbs place

def Context.add (c : Context) (a b : Decimal) : Except Signal Decimal :=
  match c.nanResult? a b with
  | some result => result
  | none =>
    match a, b with
    | .infinite n₁, .infinite n₂ =>
        if n₁ == n₂ then .ok (.infinite n₁) else .error .invalidOperation
    | .infinite n₁, _ => .ok (.infinite n₁)
    | _, .infinite n₂ => .ok (.infinite n₂)
    | .finite n₁ c₁ e₁, .finite n₂ c₂ e₂ =>
        if e₁ < e₂ then c.addAligned n₂ c₂ e₂ n₁ c₁ e₁ else c.addAligned n₁ c₁ e₁ n₂ c₂ e₂
    | _, _ => .error .invalidOperation

/-- A NaN keeps its sign when it is subtracted. -/
def Context.subtract (c : Context) (a b : Decimal) : Except Signal Decimal :=
  match c.nanResult? a b with
  | some result => result
  | none => c.add a b.flip

def Context.multiply (c : Context) (a b : Decimal) : Except Signal Decimal :=
  match c.nanResult? a b with
  | some result => result
  | none =>
    match a, b with
    | .finite n₁ c₁ e₁, .finite n₂ c₂ e₂ => c.finish (n₁ ^^ n₂) (c₁ * c₂) (e₁ + e₂)
    | .infinite n₁, .infinite n₂ => .ok (.infinite (n₁ ^^ n₂))
    | .infinite n₁, .finite n₂ c₂ _ =>
        if c₂ = 0 then .error .invalidOperation else .ok (.infinite (n₁ ^^ n₂))
    | .finite n₁ c₁ _, .infinite n₂ =>
        if c₁ = 0 then .error .invalidOperation else .ok (.infinite (n₁ ^^ n₂))
    | _, _ => .error .invalidOperation

/-- The quotient of two nonzero numbers. One digit more than the precision is computed; if the
division does not come out even, a last digit 0 or 5 is raised by one, so that the final rounding
sees no false tie. If it does, trailing zeros are removed down to the exponent difference. -/
def Context.divideFinite (c : Context) (negative : Bool) (c₁ : Nat) (e₁ : Int) (c₂ : Nat)
    (e₂ : Int) : Except Signal Decimal :=
  let shift : Int := (digitCount c₂ : Int) - digitCount c₁ + c.precision + 1
  let numerator := c₁ * power 10 shift.toNat
  let denominator := c₂ * power 10 (-shift).toNat
  let quotient := numerator / denominator
  let exponent := e₁ - e₂ - shift
  if numerator % denominator = 0 then
    let strip := trailingZeros shift.toNat quotient
    c.finish negative (quotient / power 10 strip) (exponent + strip)
  else
    c.finish negative (if quotient % 5 = 0 then quotient + 1 else quotient) exponent

def Context.divide (c : Context) (a b : Decimal) : Except Signal Decimal :=
  match c.nanResult? a b with
  | some result => result
  | none =>
    match a, b with
    | .finite n₁ c₁ e₁, .finite n₂ c₂ e₂ =>
        if c₂ = 0 then .error (if c₁ = 0 then .divisionUndefined else .divisionByZero)
        else if c₁ = 0 then c.finish (n₁ ^^ n₂) 0 (e₁ - e₂)
        else c.divideFinite (n₁ ^^ n₂) c₁ e₁ c₂ e₂
    | .infinite n₁, .finite n₂ _ _ => .ok (.infinite (n₁ ^^ n₂))
    | .finite n₁ _ _, .infinite n₂ => .ok (.finite (n₁ ^^ n₂) 0 c.leastExponent)
    | _, _ => .error .invalidOperation

/-- The number nearest to `a` with the given exponent, a tie going to the even coefficient. It
has an answer only if the coefficient fits the precision. -/
def Context.quantize (c : Context) (a : Decimal) (exponent : Int) : Except Signal Decimal :=
  match a with
  | .nan _ true _ => .error .invalidOperation
  | .nan negative false payload => .ok (c.quiet negative payload)
  | .infinite _ => .error .invalidOperation
  | .finite negative coefficient place =>
      if coefficient = 0 then .ok (.finite negative 0 exponent)
      else
        let shift := place - exponent
        if (c.precision : Int) < digitCount coefficient + shift then .error .invalidOperation
        else
          let scaled :=
            if 0 ≤ shift then coefficient * power 10 shift.toNat
            else if (digitCount coefficient : Int) + shift < 0 then 0
            else roundHalfEven coefficient (power 10 (-shift).toNat)
          if c.precision < digitCount scaled then .error .invalidOperation
          else .ok (.finite negative scaled exponent)

/-- The number with the other sign, rounded. A zero loses its sign. -/
def Context.negate (c : Context) (a : Decimal) : Except Signal Decimal :=
  match a with
  | .nan _ true _ => .error .invalidOperation
  | .nan negative false payload => .ok (c.quiet negative payload)
  | .infinite negative => .ok (.infinite (! negative))
  | .finite negative coefficient exponent =>
      c.finish (! negative && coefficient != 0) coefficient exponent

end SpreadWatch.Decimal
