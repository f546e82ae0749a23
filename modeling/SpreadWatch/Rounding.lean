/-!
Powers and decimal digits of natural numbers, and rounding of their quotients.
Every rounding of the library, decimal or binary, goes through `roundHalfEven`.
-/

namespace SpreadWatch

def power (base count : Nat) : Nat := Nat.pow base count

/-- The integer nearest to `numerator / denominator`; a tie goes to the even neighbour. -/
def roundHalfEven (numerator denominator : Nat) : Nat :=
  let quotient := numerator / denominator
  let twice := 2 * (numerator % denominator)
  if twice < denominator then quotient
  else if denominator < twice then quotient + 1
  else if quotient % 2 = 0 then quotient else quotient + 1

/-- How many decimal digits a number is written with; zero has one. -/
def digitCount (n : Nat) : Nat := if n < 10 then 1 else digitCount (n / 10) + 1

/-- How often ten divides a number, up to a bound. Zero is divided as often as the bound allows. -/
def trailingZeros : Nat → Nat → Nat
  | 0, _ => 0
  | bound + 1, n => if n % 10 = 0 then trailingZeros bound (n / 10) + 1 else 0

end SpreadWatch
