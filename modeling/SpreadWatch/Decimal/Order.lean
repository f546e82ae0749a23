import SpreadWatch.Decimal.Basic

/-!
The numerical order of decimals. A NaN has no place in it: every comparison with one is an
invalid operation. Magnitudes are compared by the place of their leading digit first, so the
alignment of two coefficients never needs more zeros than the longer one has digits.
-/

namespace SpreadWatch.Decimal

def compareMagnitude (c₁ : Nat) (e₁ : Int) (c₂ : Nat) (e₂ : Int) : Ordering :=
  if c₁ = 0 then (if c₂ = 0 then .eq else .lt)
  else if c₂ = 0 then .gt
  else
    let top₁ := e₁ + digitCount c₁
    let top₂ := e₂ + digitCount c₂
    if top₁ < top₂ then .lt
    else if top₂ < top₁ then .gt
    else compare (c₁ * power 10 (e₁ - e₂).toNat) (c₂ * power 10 (e₂ - e₁).toNat)

/-- The order of two decimals, or none if one is a NaN. Both zeros are equal. -/
def compare? : Decimal → Decimal → Option Ordering
  | .nan .., _ => none
  | _, .nan .. => none
  | .infinite n₁, .infinite n₂ =>
      some (if n₁ == n₂ then .eq else if n₁ then .lt else .gt)
  | .infinite n₁, .finite .. => some (if n₁ then .lt else .gt)
  | .finite .., .infinite n₂ => some (if n₂ then .gt else .lt)
  | .finite n₁ c₁ e₁, .finite n₂ c₂ e₂ =>
      if c₁ = 0 ∧ c₂ = 0 then some .eq
      else if n₁ && ! n₂ then some .lt
      else if ! n₁ && n₂ then some .gt
      else if n₁ then some (compareMagnitude c₂ e₂ c₁ e₁)
      else some (compareMagnitude c₁ e₁ c₂ e₂)

/-- The order of two decimals, where a NaN is an invalid operation. -/
def order (a b : Decimal) : Except Signal Ordering :=
  match compare? a b with
  | some ordering => .ok ordering
  | none => .error .invalidOperation

def less (a b : Decimal) : Except Signal Bool := (order a b).map (· == .lt)

/-- The lesser of two decimals; of two equal ones the first. -/
def least (a b : Decimal) : Except Signal Decimal := do
  return if ← less b a then b else a

/-- The greater of two decimals; of two equal ones the first. -/
def greatest (a b : Decimal) : Except Signal Decimal := do
  return if ← less a b then b else a

end SpreadWatch.Decimal
