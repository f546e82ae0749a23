import SpreadWatch.Proofs.Spread.Exact

/-!
The spread of any two prices, of either sign. Prices below half of `10 ^ 43` have at most
`5 · 10 ^ 50` units each, so their difference has fewer than `10 ^ 51` unless they are opposite. A
quotient of so few units is rounded as if it were rounded once, and the quotient of a difference of
opposite prices is whole.
-/

namespace SpreadWatch.Spread

open Decimal (Context)

variable {long short : Decimal}

/-- The sign of the denominator can be moved to the numerator. -/
theorem units_round_quotient_of_ne {difference long : ℤ} (present : long ≠ 0)
    (longBounded : |long| ≤ 10 ^ 51) (bounded : |difference| < 10 ^ 51) :
    units (working.round ((difference : ℚ) / long)) = units ((difference : ℚ) / long) := by
  rw [abs_le] at longBounded
  rcases lt_or_gt_of_ne present with negative | positive
  · have turned : (difference : ℚ) / long = ((-difference : ℤ) : ℚ) / (-long : ℤ) := by
      push_cast
      rw [neg_div_neg_eq]
    rw [turned]
    apply units_round_quotient
    · omega
    · omega
    · rwa [abs_neg]
  · exact units_round_quotient positive longBounded.2 bounded

theorem units_round_difference {long short : ℤ} (present : long ≠ 0)
    (longBounded : |long| ≤ 5 * 10 ^ 50) (shortBounded : |short| ≤ 5 * 10 ^ 50) :
    units (working.round (((short - long : ℤ) : ℚ) / long)) =
      units (((short - long : ℤ) : ℚ) / long) := by
  by_cases opposite : short = -long
  · have presentRat : (long : ℚ) ≠ 0 := by exact_mod_cast present
    have whole : ((short - long : ℤ) : ℚ) / long = ((-2 : ℤ) : ℚ) * 10 ^ (0 : ℤ) := by
      rw [opposite]
      push_cast
      field_simp
      norm_num
    rw [whole, Context.round_of_fits (by decide) (by decide)]
  · rw [abs_le] at longBounded shortBounded
    apply units_round_quotient_of_ne present
    · rw [abs_le]
      omega
    · rw [abs_lt]
      omega

/-- A price below half of `10 ^ 43` has at most `5 · 10 ^ 50` units. -/
theorem units_of_half_bound {price : ℚ} (bounded : |price| < 10 ^ 43 / 2) :
    |units price| ≤ 5 * 10 ^ 50 := by
  apply abs_units_le
  refine bounded.le.trans ?_
  norm_num [scale]

/-- The spread of two finite prices of any sign and any number of digits, each less than half of
`10 ^ 43` in size: the fractional difference of the prices at eight places, rounded once to eight
places. There is none exactly if the long price is nothing at eight places, and that is reported as
a zero price. A price has no spread to itself. -/
theorem base_correctly_rounded (longFinite : long.isFinite = true)
    (shortFinite : short.isFinite = true) (longBounded : |long.toRat| < 10 ^ 43 / 2)
    (shortBounded : |short.toRat| < 10 ^ 43 / 2) :
    (|long.toRat| ≤ 5 / 10 ^ 9 →
      base long short = .error (.ofCause (.zeroPrice (.text "long_price") (.decimal long))
        ("Long price " ++ long.toText ++ " scales to zero"))) ∧
    (5 / 10 ^ 9 < |long.toRat| →
      (∃ negative coefficient, base long short = .ok (.finite negative coefficient (-8)) ∧
        (Decimal.finite negative coefficient (-8)).toRat =
          atScale ((atScale short.toRat - atScale long.toRat) / atScale long.toRat)) ∧
      ∃ negative, base long long = .ok (.finite negative 0 (-8))) := by
  have longUnits := units_of_half_bound longBounded
  have shortUnits := units_of_half_bound shortBounded
  constructor
  · intro nothing
    apply zero_price_of_base longFinite shortFinite ((units_eq_zero_iff _).mpr nothing)
    exact shortUnits.trans_lt (by norm_num)
  · intro something
    have present : units long.toRat ≠ 0 := by
      rw [Ne, units_eq_zero_iff, not_le]
      exact something
    have against : ∀ {other : Decimal}, other.isFinite = true →
        |units other.toRat| ≤ 5 * 10 ^ 50 →
        ∃ negative coefficient, base long other = .ok (.finite negative coefficient scale) ∧
          (Decimal.finite negative coefficient scale).toRat =
            atScale ((atScale other.toRat - atScale long.toRat) / atScale long.toRat) := by
      intro other otherFinite otherUnits
      exact base_once longFinite otherFinite present (longUnits.trans (by norm_num))
        (otherUnits.trans (by norm_num)) (units_round_difference present longUnits otherUnits)
    refine ⟨against shortFinite shortUnits, ?_⟩
    obtain ⟨negative, coefficient, answered, value⟩ := against longFinite longUnits
    rw [sub_self, zero_div, at_scale_zero, ← Decimal.is_zero_iff rfl] at value
    have none : coefficient = 0 := by simpa [Decimal.isZero] using value
    exact ⟨negative, none ▸ answered⟩

/-- A negative long price, and a short price that lies halfway between two of eight places. -/
theorem negative_base_correctly_rounded :
    (base (.finite true 3 0) (.finite false 2000000005 (-9))).toOption =
        some (.finite true 166666667 (-8)) ∧
      (base (.finite true 3 0) (.finite true 3 0)).toOption = some (.finite true 0 (-8)) ∧
      ∃ negative coefficient, base (.finite true 3 0) (.finite false 2000000005 (-9)) =
          .ok (.finite negative coefficient (-8)) ∧
        (Decimal.finite negative coefficient (-8)).toRat =
          atScale ((atScale (Decimal.finite false 2000000005 (-9)).toRat -
              atScale (Decimal.finite true 3 0).toRat) /
            atScale (Decimal.finite true 3 0).toRat) := by
  have longBounded : |(Decimal.finite true 3 0).toRat| < 10 ^ 43 / 2 := by
    norm_num [Decimal.to_rat_finite]
  have shortBounded : |(Decimal.finite false 2000000005 (-9)).toRat| < 10 ^ 43 / 2 := by
    norm_num [Decimal.to_rat_finite]
  have something : 5 / 10 ^ 9 < |(Decimal.finite true 3 0).toRat| := by
    norm_num [Decimal.to_rat_finite]
  exact ⟨by decide +kernel, by decide +kernel,
    ((base_correctly_rounded rfl rfl longBounded shortBounded).2 something).1⟩

end SpreadWatch.Spread
