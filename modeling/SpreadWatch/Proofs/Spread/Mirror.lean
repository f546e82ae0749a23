import SpreadWatch.Proofs.Spread.Answer

/-!
A pair and its reverse. Closing a position is opening the one with the sides exchanged: the same
purchases and sales are made, and so the two spreads are of the very same effective prices. One
compares the short price with the long one, the other the long price with the short one. They are
never both gains or both losses, and one plus either is the reciprocal of one plus the other, but
for the rounding of each to eight places.
-/

namespace SpreadWatch.Spread

open Decimal (Context)

variable {value value' : Decimal} {p q : ℚ} {legs : Legs} {side : Side}

/-! ### Two prices, either way -/

/-- A price of few units, brought to eight places. -/
theorem scaled_price {price : Decimal} (finite : price.isFinite = true)
    (few : |units price.toRat| < 10 ^ 60) :
    ∃ scaled, toFixed price = .ok scaled ∧ scaled.toRat = atScale price.toRat := by
  obtain ⟨negative, coefficient, answered, exactly⟩ := (to_fixed_rounds finite).1 few
  exact ⟨_, answered, exactly⟩

theorem units_le_of_scaled (below : atScale q < 10 ^ 43) : units q ≤ 10 ^ 51 := by
  have unit : (0 : ℚ) < 10 ^ scale := by positivity
  rw [atScale, ← lt_div_iff₀ unit] at below
  have bound : (units q : ℚ) < (10 ^ 51 : ℤ) := below.trans_eq (by norm_num [scale])
  exact_mod_cast bound.le

theorem spread_of_nonpos (nonneg : 0 ≤ p) (dear : units q ≤ units p) : spreadOf p q ≤ 0 := by
  have longUnits : (0 : ℚ) ≤ units p := by exact_mod_cast units_nonneg nonneg
  have lost : ((units q - units p : ℤ) : ℚ) ≤ 0 := by exact_mod_cast sub_nonpos.mpr dear
  have rounded := Context.round_mono working_sane (div_nonpos_of_nonpos_of_nonneg lost longUnits)
  rw [Context.round_zero] at rounded
  exact (at_scale_mono rounded).trans_eq at_scale_zero

theorem spread_of_nonneg (nonneg : 0 ≤ p) (cheap : units p ≤ units q) : 0 ≤ spreadOf p q := by
  have longUnits : (0 : ℚ) ≤ units p := by exact_mod_cast units_nonneg nonneg
  have gained : (0 : ℚ) ≤ ((units q - units p : ℤ) : ℚ) := by
    exact_mod_cast sub_nonneg.mpr cheap
  have rounded : 0 ≤ unitQuotient p q := Context.round_nonneg (div_nonneg gained longUnits)
  exact at_scale_zero.symm.trans_le (at_scale_mono rounded)

/-- A gain one way is no gain the other way. -/
theorem spread_of_signs (longNonneg : 0 ≤ p) (shortNonneg : 0 ≤ q) :
    (0 < spreadOf p q → spreadOf q p ≤ 0) ∧ (spreadOf p q < 0 → 0 ≤ spreadOf q p) := by
  rcases le_total (units p) (units q) with cheap | dear
  · exact ⟨fun _ => spread_of_nonpos shortNonneg cheap,
      fun loss => absurd loss (spread_of_nonneg longNonneg cheap).not_gt⟩
  · exact ⟨fun gain => absurd gain (spread_of_nonpos longNonneg dear).not_gt,
      fun _ => spread_of_nonneg shortNonneg dear⟩

/-- One plus the spread of two prices of ordinary size is their quotient, but for one rounding. -/
theorem spread_of_error (positive : 0 < units p) (longBounded : units p ≤ 10 ^ 51)
    (nonneg : 0 ≤ units q) (shortBounded : units q ≤ 10 ^ 51) :
    |1 + spreadOf p q - atScale q / atScale p| ≤ 5 / 10 ^ 9 := by
  have unit : (10 : ℚ) ^ scale ≠ 0 := by positivity
  have nonzero : (units p : ℚ) ≠ 0 := by exact_mod_cast positive.ne'
  have once : spreadOf p q = atScale (((units q - units p : ℤ) : ℚ) / units p) := by
    rw [spreadOf, unitQuotient, atScale,
      units_round_spread positive longBounded nonneg shortBounded, atScale]
  have quotient : atScale q / atScale p - 1 = ((units q - units p : ℤ) : ℚ) / units p := by
    rw [atScale, atScale, mul_div_mul_right _ _ unit, Int.cast_sub, sub_div, div_self nonzero]
  have close := at_scale_error (((units q - units p : ℤ) : ℚ) / units p)
  rwa [← once, ← quotient, sub_sub_eq_add_sub, add_comm] at close

/-- The error of a product of two factors near to reciprocal numbers. -/
theorem reciprocal_product_error {r s a b error : ℚ} (positive : 0 < r) (reciprocal : r * s = 1)
    (first : |a - r| ≤ error) (second : |b - s| ≤ error) :
    |a * b - 1| ≤ error * (r + s) + error ^ 2 := by
  have small : 0 ≤ error := (abs_nonneg _).trans first
  have positive' : 0 < s := pos_of_mul_pos_right (reciprocal ▸ one_pos) positive.le
  have split : a * b - 1 = r * (b - s) + s * (a - r) + (a - r) * (b - s) := by
    linear_combination reciprocal
  calc
    |a * b - 1| ≤ |r * (b - s)| + |s * (a - r)| + |(a - r) * (b - s)| := by
      rw [split]
      exact abs_add_three _ _ _
    _ = r * |b - s| + s * |a - r| + |a - r| * |b - s| := by
      rw [abs_mul, abs_mul, abs_mul, abs_of_pos positive, abs_of_pos positive']
    _ ≤ r * error + s * error + error * error := by gcongr
    _ = error * (r + s) + error ^ 2 := by ring

theorem spread_of_reciprocal (longWorth : 0 < units p) (shortWorth : 0 < units q)
    (longBounded : units p ≤ 10 ^ 51) (shortBounded : units q ≤ 10 ^ 51) :
    |(1 + spreadOf p q) * (1 + spreadOf q p) - 1| ≤
      5 / 10 ^ 9 * (atScale q / atScale p + atScale p / atScale q) + 25 / 10 ^ 18 := by
  have unit : (0 : ℚ) < 10 ^ scale := by positivity
  have longPositive : 0 < atScale p := mul_pos (by exact_mod_cast longWorth) unit
  have shortPositive : 0 < atScale q := mul_pos (by exact_mod_cast shortWorth) unit
  have reciprocal : atScale q / atScale p * (atScale p / atScale q) = 1 := by
    rw [div_mul_div_cancel₀ longPositive.ne', div_self shortPositive.ne']
  have product := reciprocal_product_error (div_pos shortPositive longPositive) reciprocal
    (spread_of_error longWorth longBounded shortWorth.le shortBounded)
    (spread_of_error shortWorth shortBounded longWorth.le longBounded)
  exact product.trans_eq (by norm_num)

/-! ### The reverse of a pair -/

def Side.opposite : Side → Side
  | .entry => .exit
  | .exit => .entry

namespace Legs

def reversed (legs : Legs) : Legs where
  longPrice := legs.shortPrice
  longFee := legs.shortFee
  shortPrice := legs.longPrice
  shortFee := legs.longFee

theorem rounded_reversed (legs : Legs) (side : Side) :
    legs.reversed.roundedLong side.opposite = legs.roundedShort side ∧
      legs.reversed.roundedShort side.opposite = legs.roundedLong side := by
  cases side <;> exact ⟨rfl, rfl⟩

/-- The spread of closing a position and that of opening its reverse are not both gains or both
losses, and one plus either is the reciprocal of one plus the other, up to the two roundings to
eight places: half a unit each, relative to the quotient of the scaled effective prices. -/
theorem reversed_spread_mirrors (answered : legs.spread side = .ok value)
    (mirrored : legs.reversed.spread side.opposite = .ok value') :
    (0 < value.toRat → value'.toRat ≤ 0) ∧ (value.toRat < 0 → 0 ≤ value'.toRat) ∧
      ∃ long short scaledLong scaledShort,
        effective side (some legs.longPrice) (some legs.longFee) (some legs.shortPrice)
          (some legs.shortFee) = .ok (long, short) ∧
        toFixed long = .ok scaledLong ∧ toFixed short = .ok scaledShort ∧
        0 < scaledLong.toRat ∧ 0 < scaledShort.toRat ∧
        (scaledLong.toRat < 10 ^ 43 → scaledShort.toRat < 10 ^ 43 →
          |(1 + value.toRat) * (1 + value'.toRat) - 1| ≤
            5 / 10 ^ 9 * (scaledShort.toRat / scaledLong.toRat +
              scaledLong.toRat / scaledShort.toRat) + 25 / 10 ^ 18) := by
  obtain ⟨valid, long, short, priced, -, longFinite, longRound, shortFinite, shortRound⟩ :=
    prices_of_answer answered
  obtain ⟨longNonneg, shortNonneg⟩ := rounded_nonneg valid side
  obtain ⟨longReversed, shortReversed⟩ := legs.rounded_reversed side
  have answers := spread_answers answered
  have answers' := spread_answers mirrored
  rw [longReversed, shortReversed] at answers'
  rw [← longRound] at answers answers' longNonneg
  rw [← shortRound] at answers answers' shortNonneg
  obtain ⟨gain, loss⟩ := spread_of_signs longNonneg shortNonneg
  obtain ⟨scaledLong, longScales, longScaled⟩ :=
    scaled_price longFinite answers.scalable.longFew
  obtain ⟨scaledShort, shortScales, shortScaled⟩ :=
    scaled_price shortFinite answers.scalable.shortFew
  have unit : (0 : ℚ) < 10 ^ scale := by positivity
  rw [answers.number, answers'.number]
  refine ⟨gain, loss, long, short, scaledLong, scaledShort, priced, longScales, shortScales, ?_⟩
  rw [longScaled, shortScaled]
  refine ⟨mul_pos (by exact_mod_cast answers.worth) unit,
    mul_pos (by exact_mod_cast answers'.worth) unit, ?_⟩
  intro longBelow shortBelow
  exact spread_of_reciprocal answers.worth answers'.worth (units_le_of_scaled longBelow)
    (units_le_of_scaled shortBelow)

/-- Sold at 200.00 and bought back at 200.50, the effective prices are 199.80 and 200.7005. -/
theorem quoted_mirrored :
    (Decimal.finite true 448679 scale).toRat ≤ 0 ∧
      |(1 + (Decimal.finite false 450701 scale).toRat) *
          (1 + (Decimal.finite true 448679 scale).toRat) - 1| ≤
        5 / 10 ^ 9 * ((Decimal.finite false 20070050000 scale).toRat /
            (Decimal.finite false 19980000000 scale).toRat +
          (Decimal.finite false 19980000000 scale).toRat /
            (Decimal.finite false 20070050000 scale).toRat) + 25 / 10 ^ 18 := by
  have closing : quoted.spread .exit = .ok (.finite false 450701 scale) :=
    ok_of_to_option (by decide +kernel)
  have opening : quoted.reversed.spread .entry = .ok (.finite true 448679 scale) :=
    ok_of_to_option (by decide +kernel)
  have prices : effective .exit (some quoted.longPrice) (some quoted.longFee)
      (some quoted.shortPrice) (some quoted.shortFee) =
        .ok (.finite false 19980000 (-5), .finite false 20070050 (-5)) :=
    ok_of_to_option (by decide +kernel)
  have longScale : toFixed (.finite false 19980000 (-5)) = .ok (.finite false 19980000000 scale) :=
    ok_of_to_option (by decide +kernel)
  have shortScale : toFixed (.finite false 20070050 (-5)) =
      .ok (.finite false 20070050000 scale) := ok_of_to_option (by decide +kernel)
  obtain ⟨gain, -, long, short, scaledLong, scaledShort, priced, longScaled, shortScaled, -, -,
    near⟩ := reversed_spread_mirrors closing opening
  cases prices.symm.trans priced
  cases longScale.symm.trans longScaled
  cases shortScale.symm.trans shortScaled
  refine ⟨gain ?_, near ?_ ?_⟩ <;> norm_num [Decimal.to_rat_finite, scale]

end Legs

end SpreadWatch.Spread
