import SpreadWatch.Decimal.Context
import SpreadWatch.Decimal.Order
import SpreadWatch.Market

/-!
The spread between two exchanges: the fractional difference `(short − long) / long` of the price
on the short side and the price on the long side. Entry and exit spreads first turn quoted prices
into effective ones, with fees added to what is paid and taken from what is received. All spreads
have eight places, rounded half to even; intermediate results carry sixty digits, so that for
prices of ordinary size no other rounding shows.
-/

namespace SpreadWatch.Spread

/-- The precision of intermediate results. -/
def working : Decimal.Context := { precision := 60 }

/-- The exponent of every spread and of every scaled price. -/
def scale : Int := -8

def toFixed (value : Decimal) : Except Decimal.Signal Decimal := working.quantize value scale

/-- An operand of the calculation; an absent one is of the wrong type. -/
def operand : Option Decimal → Except Failure Decimal
  | some value => .ok value
  | none => .error (.wrongType "an absent number takes part in a calculation")

/-- The price paid for one unit: the fee comes on top. -/
def paid (price fee : Option Decimal) : Except Failure Decimal := do
  let factor ← liftDecimal (working.add Decimal.one (← operand fee))
  liftDecimal (working.multiply (← operand price) factor)

/-- The price received for one unit: the fee is taken off. -/
def received (price fee : Option Decimal) : Except Failure Decimal := do
  let factor ← liftDecimal (working.subtract Decimal.one (← operand fee))
  liftDecimal (working.multiply (← operand price) factor)

/-- Opening a position buys on the long side and sells on the short side, closing it the reverse. -/
inductive Side where
  | entry
  | exit
deriving DecidableEq, Repr

def effective (side : Side) (longPrice longFee shortPrice shortFee : Option Decimal) :
    Except Failure (Decimal × Decimal) :=
  match side with
  | .entry => do return (← paid longPrice longFee, ← received shortPrice shortFee)
  | .exit => do return (← received longPrice longFee, ← paid shortPrice shortFee)

/-- The spread between two prices, both scaled to eight places before they are subtracted. -/
def base (long short : Decimal) : Except Failure Decimal := do
  let scaledLong ← liftDecimal (toFixed long)
  let scaledShort ← liftDecimal (toFixed short)
  if scaledLong.isZero then
    throw (.ofCause (.zeroPrice (.text "long_price") (.decimal long))
      ("Long price " ++ long.toText ++ " scales to zero"))
  let difference ← liftDecimal (working.subtract scaledShort scaledLong)
  let quotient ← liftDecimal (working.divide difference scaledLong)
  liftDecimal (toFixed quotient)

/-- The spread between two prices either of which may be absent. The long price is scaled before
the short one is looked at. -/
def baseOf (long short : Option Decimal) : Except Failure Decimal := do
  let long ← operand long
  let _ ← liftDecimal (toFixed long)
  base long (← operand short)

def checkPrice (name : String) (price : Option Decimal) : Except Failure Unit := do
  let positive ← match price with
    | none => pure false
    | some price => liftDecimal (Decimal.less Decimal.zero price)
  if ! positive then
    throw (.ofCause (.nonPositivePrice (.text name) (Value.ofOption .decimal price))
      (name ++ " must be positive, got " ++ decimalText price))

def checkFee (name : String) (fee : Option Decimal) : Except Failure Unit := do
  let inRange ← match fee with
    | none => pure false
    | some fee => do
        if ← liftDecimal (Decimal.less fee Decimal.zero) then pure false
        else liftDecimal (Decimal.less fee Decimal.one)
  if ! inRange then
    throw (.ofCause (.feeOutOfRange (.text name) (Value.ofOption .decimal fee))
      (name ++ " must be in [0, 1), got " ++ decimalText fee))

def Side.priceNames : Side → String × String
  | .entry => ("long_ask", "short_bid")
  | .exit => ("long_bid", "short_ask")

/-- The spread for opening or closing a position. Prices are checked before fees. -/
def spread (side : Side) (longPrice longFee shortPrice shortFee : Option Decimal) :
    Except Failure Decimal := do
  checkPrice side.priceNames.1 longPrice
  checkPrice side.priceNames.2 shortPrice
  checkFee "long_fee" longFee
  checkFee "short_fee" shortFee
  let (long, short) ← effective side longPrice longFee shortPrice shortFee
  base long short

end SpreadWatch.Spread
