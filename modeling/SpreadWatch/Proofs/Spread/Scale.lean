import SpreadWatch.Proofs.Decimal.Arithmetic
import SpreadWatch.Spread

/-!
Eight places. A spread and every scaled price is a whole number of units of `10 ^ scale`, and
`toFixed` finds the nearest one. Two roundings in a row can differ from one; here they do not, for
a number short enough to be written in the working precision, and for a quotient of two scaled
prices: a quotient of integers that is no tie stays away from every tie by more than the error of
the first rounding, and a quotient that is a tie is not rounded at first.
-/

namespace SpreadWatch.Spread

open Decimal (Context)

theorem working_sane : working.Sane where
  digits := by decide
  range := by decide

def units (q : ℚ) : ℤ := nearest (q / 10 ^ scale)

def atScale (q : ℚ) : ℚ := units q * 10 ^ scale

theorem units_neg (q : ℚ) : units (-q) = -units q := by
  rw [units, units, neg_div, nearest_neg]

theorem units_mono {p q : ℚ} (ordered : p ≤ q) : units p ≤ units q :=
  nearest_mono (div_le_div_of_nonneg_right ordered (by positivity))

@[simp] theorem units_zero : units 0 = 0 := by
  simp [units]

theorem units_nonneg {q : ℚ} (nonneg : 0 ≤ q) : 0 ≤ units q := by
  simpa using units_mono nonneg

@[simp] theorem units_at_scale (n : ℤ) : units (n * 10 ^ scale) = n := by
  rw [units, mul_div_cancel_right₀ _ (by positivity), nearest_int_cast]

@[simp] theorem at_scale_zero : atScale 0 = 0 := by
  simp [atScale]

theorem at_scale_mono {p q : ℚ} (ordered : p ≤ q) : atScale p ≤ atScale q := by
  have whole : (units p : ℚ) ≤ units q := by exact_mod_cast units_mono ordered
  exact mul_le_mul_of_nonneg_right whole (by positivity)

/-- The error of a scaled number, from that of its units. -/
theorem abs_at_scale_sub (q : ℚ) :
    |atScale q - q| = |q / 10 ^ scale - units q| * 10 ^ scale := by
  have unit : (0 : ℚ) < 10 ^ scale := by positivity
  have scaled : atScale q - q = (units q - q / 10 ^ scale) * 10 ^ scale := by
    rw [atScale, sub_mul, div_mul_cancel₀ _ unit.ne']
  rw [scaled, abs_mul, abs_of_pos unit, abs_sub_comm]

theorem at_scale_error (q : ℚ) : |atScale q - q| ≤ 5 / 10 ^ 9 := by
  have close := nearest_error (q / 10 ^ scale)
  rw [abs_at_scale_sub]
  calc
    |q / 10 ^ scale - units q| * 10 ^ scale ≤ 1 / 2 * 10 ^ scale := by
      gcongr
      exact close
    _ = 5 / 10 ^ 9 := by norm_num [scale]

/-- Of two numbers of eight places that are equally near, the one with the even last digit is
taken. -/
theorem units_even_of_tie {q : ℚ} (tie : |atScale q - q| = 5 / 10 ^ 9) : Even (units q) := by
  have unit : (0 : ℚ) < 10 ^ scale := by positivity
  apply nearest_even_of_tie
  rw [abs_at_scale_sub, ← eq_div_iff unit.ne'] at tie
  exact tie.trans (by norm_num [scale])

theorem units_eq_zero_iff (q : ℚ) : units q = 0 ↔ |q| ≤ 5 / 10 ^ 9 := by
  rw [units, nearest_eq_zero_iff, abs_div, scale, abs_of_pos (show (0 : ℚ) < 10 ^ (-8 : ℤ) by
    positivity), div_le_iff₀ (by positivity)]
  norm_num

theorem units_eq_nearest (q : ℚ) : units q = nearest (q * 10 ^ 8) := by
  have unit : (10 : ℚ) ^ scale = (10 ^ 8)⁻¹ := rfl
  rw [units, unit, div_inv_eq_mul]

/-- The number of units has the sign of the number, unless it is zero. -/
theorem units_finite (negative : Bool) (coefficient : ℕ) (place : ℤ) :
    units (Decimal.finite negative coefficient place).toRat =
      Decimal.signed negative (units ((coefficient : ℚ) * 10 ^ place)).natAbs := by
  have nonneg : 0 ≤ units ((coefficient : ℚ) * 10 ^ place) := units_nonneg (by positivity)
  have magnitude := Int.natAbs_of_nonneg nonneg
  rw [Decimal.to_rat_finite]
  cases negative
  · simpa [Decimal.signed] using magnitude.symm
  · simp only [if_true, neg_mul, units_neg, Decimal.signed, magnitude]

/-- A finite number at eight places keeps its sign and has the nearest number of units, if that has
at most sixty digits. -/
theorem to_fixed_finite (negative : Bool) (coefficient : ℕ) (place : ℤ) :
    toFixed (.finite negative coefficient place) =
      if |units (Decimal.finite negative coefficient place).toRat| < 10 ^ 60 then
        .ok (.finite negative (units (Decimal.finite negative coefficient place).toRat).natAbs scale)
      else .error .invalidOperation := by
  obtain ⟨count, counted, answer⟩ := Context.quantize_finite working_sane.digits negative
    coefficient place scale
  have magnitude : units ((coefficient : ℚ) * 10 ^ place) = count := counted.symm
  rw [units_finite, magnitude, Int.natAbs_natCast, Int.abs_eq_natAbs, Decimal.signed_nat_abs]
  rw [toFixed, answer]
  exact if_congr (by norm_cast) rfl rfl

/-- The number that has these units and this sign. -/
theorem fixed_to_rat (negative : Bool) (coefficient : ℕ) (place : ℤ) :
    (Decimal.finite negative (units (Decimal.finite negative coefficient place).toRat).natAbs
      scale).toRat = atScale (Decimal.finite negative coefficient place).toRat := by
  rw [atScale, units_finite, Decimal.toRat]
  cases negative <;> simp [Decimal.signed]

/-- A finite number at eight places is the nearest whole number of units, if that has at most sixty
digits, and has no answer otherwise. -/
theorem to_fixed_rounds {value : Decimal} (finite : value.isFinite = true) :
    (|units value.toRat| < 10 ^ 60 → ∃ negative coefficient,
      toFixed value = .ok (.finite negative coefficient scale) ∧
        (Decimal.finite negative coefficient scale).toRat = atScale value.toRat) ∧
    (10 ^ 60 ≤ |units value.toRat| → toFixed value = .error .invalidOperation) := by
  cases value <;> simp only [Decimal.isFinite, Bool.false_eq_true] at finite
  rename_i negative coefficient place
  rw [to_fixed_finite]
  constructor
  · intro few
    exact ⟨negative, _, if_pos few, fixed_to_rat negative coefficient place⟩
  · intro many
    exact if_neg many.not_gt

/-! ### Numbers of at most sixty digits -/

/-- A rational that can be written with the digits of the working precision. -/
def Short (q : ℚ) : Prop := ∃ m k : ℤ, |m| < 10 ^ working.precision ∧ q = m * 10 ^ k

/-- The first rounding of a short number does not show at eight places. -/
theorem units_round_short {q : ℚ} (short : Short q) : units (working.round q) = units q := by
  obtain ⟨m, k, few, rfl⟩ := short
  by_cases least : working.leastExponent ≤ k
  · rw [Context.round_of_fits few least]
  -- Below the range of exponents the number is far smaller than half a unit, and so is twice it.
  have tiny : 2 * |(m : ℚ) * 10 ^ k| ≤ 5 / 10 ^ 9 := by
    have exponent : k ≤ -70 := by
      have value : working.leastExponent = -1000058 := by decide
      omega
    have digits : |(m : ℚ)| ≤ 10 ^ 60 := by
      exact_mod_cast few.le
    rw [abs_mul, abs_of_pos (show (0 : ℚ) < 10 ^ k by positivity)]
    calc
      2 * (|(m : ℚ)| * 10 ^ k) ≤ 2 * (10 ^ 60 * 10 ^ (-70 : ℤ)) := by
        gcongr
        norm_num
      _ ≤ 5 / 10 ^ 9 := by norm_num
  have original : units (m * 10 ^ k) = 0 := by
    rw [units_eq_zero_iff]
    linarith [abs_nonneg ((m : ℚ) * 10 ^ k)]
  rw [original, units_eq_zero_iff]
  exact (Context.abs_round_le_double _).trans tiny

/-! ### Quotients of whole numbers of units -/

/-- The error of the first rounding of a quotient, in its denominator's parts of a unit. -/
theorem quotient_place_small {difference long : ℤ} (positive : 0 < long)
    (longBounded : long ≤ 10 ^ 51) (nonzero : difference ≠ 0) (bounded : |difference| < 10 ^ 51) :
    (10 : ℚ) ^ working.place ((difference : ℚ) / long) * long < 10 ^ scale := by
  have positiveRat : (0 : ℚ) < long := by exact_mod_cast positive
  set quotient := (difference : ℚ) / long with named
  have product : |quotient| * long = |(difference : ℚ)| := by
    rw [named, abs_div, abs_of_pos positiveRat, div_mul_cancel₀ _ positiveRat.ne']
  have nonzeroQuotient : 0 < |quotient| := by
    have nonzeroRat : (difference : ℚ) ≠ 0 := by exact_mod_cast nonzero
    rw [abs_pos, named]
    positivity
  have boundedRat : |(difference : ℚ)| < 10 ^ 51 := by exact_mod_cast bounded
  have longRat : (long : ℚ) ≤ 10 ^ 51 := by exact_mod_cast longBounded
  rcases max_choice (Int.log 10 |quotient| + 1 - working.precision) working.leastExponent with
    leading | least
  · have decade : (10 : ℚ) ^ Int.log 10 |quotient| ≤ |quotient| := by
      exact_mod_cast Int.zpow_log_le_self (b := 10) (by norm_num) nonzeroQuotient
    have split : (10 : ℚ) ^ (Int.log 10 |quotient| + 1 - working.precision) =
        10 ^ Int.log 10 |quotient| * 10 ^ (-59 : ℤ) := by
      have exponent : Int.log 10 |quotient| + 1 - (working.precision : ℤ) =
          Int.log 10 |quotient| + -59 := by
        have digits : working.precision = 60 := rfl
        omega
      rw [exponent, zpow_add₀ (by norm_num)]
    rw [Context.place, leading, split]
    calc
      (10 : ℚ) ^ Int.log 10 |quotient| * 10 ^ (-59 : ℤ) * long ≤
          |quotient| * 10 ^ (-59 : ℤ) * long := by gcongr
      _ = |(difference : ℚ)| * 10 ^ (-59 : ℤ) := by rw [mul_right_comm, product]
      _ < 10 ^ 51 * 10 ^ (-59 : ℤ) := mul_lt_mul_of_pos_right boundedRat (by positivity)
      _ = 10 ^ scale := by norm_num [scale]
  · have bound : (10 : ℚ) ^ working.leastExponent ≤ 10 ^ (-60 : ℤ) :=
      zpow_le_zpow_right₀ (by norm_num) (by decide)
    rw [Context.place, least]
    calc
      (10 : ℚ) ^ working.leastExponent * long ≤ 10 ^ (-60 : ℤ) * 10 ^ 51 := by gcongr
      _ < 10 ^ scale := by norm_num [scale]

/-- A tie between two whole numbers of units has one more place than they have. -/
theorem round_of_tie {q : ℚ} (small : |q| < 10 ^ 51)
    (tie : |q / 10 ^ scale - units q| = 1 / 2) : working.round q = q := by
  obtain ⟨odd, named⟩ : ∃ odd : ℤ, q = odd * 10 ^ (scale - 1) := by
    have unit : (10 : ℚ) ^ (scale - 1) = 10 ^ scale / 10 := by
      rw [zpow_sub₀ (by norm_num), zpow_one]
    have positive : (0 : ℚ) < 10 ^ scale := by positivity
    rcases abs_eq (by norm_num) |>.mp tie with above | below
    · refine ⟨10 * units q + 5, ?_⟩
      have value : q = (units q + 1 / 2) * 10 ^ scale := by
        rw [← div_eq_iff positive.ne']
        linarith
      rw [unit]
      push_cast
      linarith
    · refine ⟨10 * units q - 5, ?_⟩
      have value : q = (units q - 1 / 2) * 10 ^ scale := by
        rw [← div_eq_iff positive.ne']
        linarith
      rw [unit]
      push_cast
      linarith
  rw [named]
  apply Context.round_of_fits _ (by decide)
  rw [named, abs_mul, abs_of_pos (show (0 : ℚ) < 10 ^ (scale - 1) by positivity)] at small
  have bounded : |(odd : ℚ)| < 10 ^ 60 := by
    have product := (lt_div_iff₀ (show (0 : ℚ) < 10 ^ (scale - 1) by positivity)).mpr small
    refine product.trans_eq ?_
    norm_num [scale]
  exact_mod_cast bounded

theorem units_round_quotient {difference long : ℤ} (positive : 0 < long)
    (longBounded : long ≤ 10 ^ 51) (bounded : |difference| < 10 ^ 51) :
    units (working.round ((difference : ℚ) / long)) = units ((difference : ℚ) / long) := by
  have positiveRat : (0 : ℚ) < long := by exact_mod_cast positive
  have boundedRat : |(difference : ℚ)| < 10 ^ 51 := by exact_mod_cast bounded
  by_cases zero : difference = 0
  · simp [zero]
  by_cases tie : |(difference : ℚ) / long / 10 ^ scale - units ((difference : ℚ) / long)| = 1 / 2
  · rw [round_of_tie _ tie]
    have atLeastOne : (1 : ℚ) ≤ long := by exact_mod_cast positive
    rw [abs_div, abs_of_pos positiveRat, div_lt_iff₀ positiveRat]
    nlinarith
  · have fraction : (difference : ℚ) / long / 10 ^ scale =
        ((difference * 10 ^ 8 : ℤ) : ℚ) / long := by
      have unit : (10 : ℚ) ^ scale = (10 ^ 8)⁻¹ := rfl
      rw [unit, div_inv_eq_mul]
      push_cast
      exact div_mul_eq_mul_div _ _ _
    have unit : (0 : ℚ) < 10 ^ scale := by positivity
    unfold units at tie ⊢
    rw [fraction] at tie ⊢
    apply nearest_eq_of_close positive _ tie
    rw [← fraction, ← sub_div, abs_div, abs_of_pos unit]
    have error := Context.round_error (c := working) ((difference : ℚ) / long)
    have small := quotient_place_small positive longBounded zero bounded
    calc
      |working.round ((difference : ℚ) / long) - (difference : ℚ) / long| / 10 ^ scale *
          (2 * long) ≤
          1 / 2 * 10 ^ working.place ((difference : ℚ) / long) / 10 ^ scale * (2 * long) := by
        gcongr
      _ = 10 ^ working.place ((difference : ℚ) / long) * long / 10 ^ scale := by ring
      _ < 1 := (div_lt_one unit).mpr small

end SpreadWatch.Spread
