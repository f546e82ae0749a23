import SpreadWatch.Proofs.Spread.Deal

/-!
Entry and exit spreads against exact rational arithmetic. Prices are effective prices at eight
places, a spread is their fractional difference at eight places, and of the roundings to the working
precision in between none shows, as long as fees and effective prices are short and the effective
prices are of a size that eight places and the working precision leave room for.
-/

namespace SpreadWatch.Spread

open Decimal (Context)

/-! ### The spread of two prices -/

theorem abs_units_le {q : ℚ} {n : ℤ} (bounded : |q| ≤ n * 10 ^ scale) : |units q| ≤ n := by
  obtain ⟨lower, upper⟩ := abs_le.mp bounded
  have high := units_mono upper
  have low := units_mono lower
  rw [units_at_scale] at high
  rw [units_neg, units_at_scale] at low
  exact abs_le.mpr ⟨low, high⟩

theorem units_round_spread {long short : ℤ} (positive : 0 < long) (longBounded : long ≤ 10 ^ 51)
    (nonneg : 0 ≤ short) (shortBounded : short ≤ 10 ^ 51) :
    units (working.round (((short - long : ℤ) : ℚ) / long)) =
      units (((short - long : ℤ) : ℚ) / long) := by
  by_cases worthless : short = 0
  · have positiveRat : (0 : ℚ) < long := by exact_mod_cast positive
    have whole : ((short - long : ℤ) : ℚ) / long = ((-1 : ℤ) : ℚ) * 10 ^ (0 : ℤ) := by
      rw [worthless]
      push_cast
      field_simp
      norm_num
    rw [whole, Context.round_of_fits (by decide) (by decide)]
  · apply units_round_quotient positive longBounded
    rw [abs_lt]
    omega

theorem quotient_size {long difference n : ℤ} (present : long ≠ 0) (bounded : |difference| ≤ n) :
    |(difference : ℚ) / long| ≤ n := by
  have atLeastOne : (1 : ℚ) ≤ |(long : ℚ)| := by exact_mod_cast Int.one_le_abs present
  rw [abs_div]
  calc
    |(difference : ℚ)| / |(long : ℚ)| ≤ |(difference : ℚ)| := div_le_self (abs_nonneg _) atLeastOne
    _ ≤ n := by exact_mod_cast bounded

theorem zero_price_of_base {long short : Decimal} (longFinite : long.isFinite = true)
    (shortFinite : short.isFinite = true) (nothing : units long.toRat = 0)
    (shortBounded : |units short.toRat| < 10 ^ 60) :
    base long short = .error (.ofCause (.zeroPrice (.text "long_price") (.decimal long))
      ("Long price " ++ long.toText ++ " scales to zero")) := by
  obtain ⟨negative, coefficient, scaledLong, longValue⟩ :=
    (to_fixed_rounds longFinite).1 (by rw [nothing]; norm_num)
  obtain ⟨_, _, scaledShort, -⟩ := (to_fixed_rounds shortFinite).1 shortBounded
  have zero : (Decimal.finite negative coefficient scale).isZero = true := by
    rw [Decimal.is_zero_iff rfl, longValue, atScale, nothing]
    simp
  simp only [base, scaledLong, scaledShort, liftDecimal, Except.mapError, bind, Except.bind, zero]
  rfl

/-- The spread of two prices that have few units each is their quotient at eight places. -/
theorem base_of_units {long short : Decimal} (longFinite : long.isFinite = true)
    (shortFinite : short.isFinite = true) (present : units long.toRat ≠ 0)
    (longFew : |units long.toRat| < 10 ^ 60) (shortFew : |units short.toRat| < 10 ^ 60)
    (differenceFew : |units short.toRat - units long.toRat| < 10 ^ 60) :
    ∃ quotient, base long short = liftDecimal (toFixed quotient) ∧ quotient.isFinite = true ∧
      quotient.toRat = working.round
        (((units short.toRat - units long.toRat : ℤ) : ℚ) / units long.toRat) := by
  obtain ⟨longSign, longUnits, scaledLong, longValue⟩ := (to_fixed_rounds longFinite).1 longFew
  obtain ⟨shortSign, shortUnits, scaledShort, shortValue⟩ :=
    (to_fixed_rounds shortFinite).1 shortFew
  set long' := Decimal.finite longSign longUnits scale with longNamed
  set short' := Decimal.finite shortSign shortUnits scale with shortNamed
  set l := units long.toRat with lNamed
  set s := units short.toRat with sNamed
  have unit : (0 : ℚ) < 10 ^ scale := by positivity
  have presentRat : (l : ℚ) ≠ 0 := by exact_mod_cast present
  have longScaled : long'.toRat = l * 10 ^ scale := longValue
  have shortScaled : short'.toRat = s * 10 ^ scale := shortValue
  have nonzero : long'.isZero = false := by
    rw [← Bool.not_eq_true, Decimal.is_zero_iff rfl, longScaled]
    exact mul_ne_zero presentRat unit.ne'
  have differenceValue : short'.toRat - long'.toRat = ((s - l : ℤ) : ℚ) * 10 ^ scale := by
    rw [shortScaled, longScaled]
    push_cast
    ring
  have differenceRat : |((s - l : ℤ) : ℚ)| ≤ 10 ^ 60 := by exact_mod_cast differenceFew.le
  have differenceSmall : |((s - l : ℤ) : ℚ) * 10 ^ scale| ≤ 10 ^ 99 := by
    rw [abs_mul, abs_of_pos unit]
    calc
      |((s - l : ℤ) : ℚ)| * 10 ^ scale ≤ 10 ^ 60 * 10 ^ scale := by gcongr
      _ ≤ 10 ^ 99 := by norm_num [scale]
  obtain ⟨difference, subtracted, differenceFinite, differenceRound⟩ := answer_of_rounds
    (differenceValue ▸ Context.subtract_rounds working_sane (a := short') (b := long') rfl rfl)
    differenceSmall
  rw [Context.round_of_fits differenceFew (by decide)] at differenceRound
  have quotientValue : difference.toRat / long'.toRat = ((s - l : ℤ) : ℚ) / l := by
    rw [differenceRound, longScaled, mul_div_mul_right _ _ unit.ne']
  have quotientSmall : |((s - l : ℤ) : ℚ) / l| ≤ 10 ^ 99 :=
    (quotient_size present differenceFew.le).trans (by norm_num)
  obtain ⟨quotient, divided, quotientFinite, quotientRound⟩ := answer_of_rounds
    (quotientValue ▸ Context.divide_rounds working_sane (a := difference) (b := long')
      differenceFinite rfl nonzero) quotientSmall
  refine ⟨quotient, ?_, quotientFinite, quotientRound⟩
  simp only [base, scaledLong, scaledShort, liftDecimal, Except.mapError, bind, Except.bind,
    nonzero, subtracted, divided]
  rfl

/-- Where the rounding of the quotient to the working precision does not show, the spread of two
prices is the fractional difference of the prices at eight places, at eight places itself. -/
theorem base_once {long short : Decimal} (longFinite : long.isFinite = true)
    (shortFinite : short.isFinite = true) (present : units long.toRat ≠ 0)
    (longBounded : |units long.toRat| ≤ 10 ^ 51) (shortBounded : |units short.toRat| ≤ 10 ^ 51)
    (once : units (working.round
        (((units short.toRat - units long.toRat : ℤ) : ℚ) / units long.toRat)) =
      units (((units short.toRat - units long.toRat : ℤ) : ℚ) / units long.toRat)) :
    ∃ negative coefficient, base long short = .ok (.finite negative coefficient scale) ∧
      (Decimal.finite negative coefficient scale).toRat =
        atScale ((atScale short.toRat - atScale long.toRat) / atScale long.toRat) := by
  have difference : |units short.toRat - units long.toRat| ≤ 2 * 10 ^ 51 := by
    rw [abs_le] at longBounded shortBounded ⊢
    omega
  obtain ⟨quotient, computed, finite, rounded⟩ := base_of_units longFinite shortFinite present
    (longBounded.trans_lt (by norm_num)) (shortBounded.trans_lt (by norm_num))
    (difference.trans_lt (by norm_num))
  have size := quotient_size present difference
  rw [← rounded] at once
  obtain ⟨negative, coefficient, scaled, value⟩ := (to_fixed_rounds finite).1 (by
    rw [once]
    refine (abs_units_le (n := 2 * 10 ^ 59) (size.trans ?_)).trans_lt (by norm_num)
    norm_num [scale])
  refine ⟨negative, coefficient, ?_, ?_⟩
  · rw [computed, scaled]
    rfl
  · have unit : (0 : ℚ) < 10 ^ scale := by positivity
    rw [value, atScale, once, atScale, atScale, atScale, ← sub_mul,
      mul_div_mul_right _ _ unit.ne', Int.cast_sub]

/-- The spread of two prices is the fractional difference of the prices at eight places, at eight
places itself. -/
theorem base_exact {long short : Decimal} (longFinite : long.isFinite = true)
    (shortFinite : short.isFinite = true) (positive : 0 < units long.toRat)
    (longBounded : units long.toRat ≤ 10 ^ 51) (nonneg : 0 ≤ units short.toRat)
    (shortBounded : units short.toRat ≤ 10 ^ 51) :
    ∃ negative coefficient, base long short = .ok (.finite negative coefficient scale) ∧
      (Decimal.finite negative coefficient scale).toRat =
        atScale ((atScale short.toRat - atScale long.toRat) / atScale long.toRat) :=
  base_once longFinite shortFinite positive.ne' (by rwa [abs_of_pos positive])
    (by rwa [abs_of_nonneg nonneg]) (units_round_spread positive longBounded nonneg shortBounded)

/-! ### Effective prices -/

theorem check_price_passes {price : Decimal} (priced : Priced price) (name : String) :
    checkPrice name (some price) = .ok () := by
  have less : Decimal.less Decimal.zero price = .ok true := by
    rw [Decimal.less_finite rfl priced.finite, Decimal.to_rat_zero, decide_eq_true priced.positive]
  simp only [checkPrice, less, liftDecimal, Except.mapError, bind, Except.bind]
  rfl

theorem check_fee_passes {fee : Decimal} (charged : Charged fee) (name : String) :
    checkFee name (some fee) = .ok () := by
  have nonneg : Decimal.less fee Decimal.zero = .ok false := by
    rw [Decimal.less_finite charged.finite rfl, Decimal.to_rat_zero,
      decide_eq_false (not_lt.mpr charged.nonneg)]
  have below : Decimal.less fee Decimal.one = .ok true := by
    rw [Decimal.less_finite charged.finite rfl, Decimal.to_rat_one, decide_eq_true charged.below]
  simp only [checkFee, nonneg, below, liftDecimal, Except.mapError, bind, Except.bind]
  rfl

/-- A fee whose sum with one is short has at most fifty-nine places. -/
theorem fee_places {fee : ℚ} (nonneg : 0 ≤ fee) (below : fee < 1) (short : Short (1 + fee)) :
    ∃ n : ℤ, 0 ≤ n ∧ n < 10 ^ 59 ∧ fee = n * 10 ^ (-59 : ℤ) := by
  obtain ⟨m, k, few, written⟩ := short
  have fewRat : (m : ℚ) < 10 ^ 60 := by exact_mod_cast (le_abs_self m).trans_lt few
  have deep : -59 ≤ k := by
    by_contra deeper
    have tiny : (m : ℚ) * 10 ^ k < 1 := by
      calc
        (m : ℚ) * 10 ^ k < 10 ^ 60 * 10 ^ k := mul_lt_mul_of_pos_right fewRat (by positivity)
        _ ≤ 10 ^ 60 * 10 ^ (-60 : ℤ) := by
          gcongr
          · norm_num
          · omega
        _ = 1 := by norm_num
    linarith
  have value : fee = ((m * 10 ^ (k + 59).toNat - 10 ^ 59 : ℤ) : ℚ) * 10 ^ (-59 : ℤ) := by
    have power : (10 : ℚ) ^ (k + 59).toNat = 10 ^ k * 10 ^ (59 : ℤ) := by
      rw [← zpow_natCast, Int.toNat_of_nonneg (by omega), zpow_add₀ (by norm_num)]
    push_cast
    rw [power, ← mul_assoc, ← written]
    norm_num
    ring
  refine ⟨_, ?_, ?_, value⟩
  · rw [value] at nonneg
    have scaled := (mul_nonneg_iff_of_pos_right (by positivity)).mp nonneg
    exact_mod_cast scaled
  · rw [value, ← lt_div_iff₀ (by positivity)] at below
    have scaled := below.trans_eq (show (1 : ℚ) / 10 ^ (-59 : ℤ) = (10 ^ 59 : ℤ) by norm_num)
    exact_mod_cast scaled

/-- A fee of so many places makes a factor of as many. -/
theorem Deal.exact_factor_places (deal : Deal) (places : ℕ) {n : ℤ} (nonneg : 0 ≤ n)
    (below : n < 10 ^ places) :
    ∃ m : ℤ, |m| ≤ 2 * 10 ^ places ∧
      deal.exactFactor (n * 10 ^ (-(places : ℤ))) = m * 10 ^ (-(places : ℤ)) := by
  have one : (10 : ℚ) ^ places * 10 ^ (-(places : ℤ)) = 1 := by
    rw [← zpow_natCast, ← zpow_add₀ (by norm_num), add_neg_cancel, zpow_zero]
  cases deal with
  | purchase =>
      refine ⟨10 ^ places + n, ?_, ?_⟩
      · rw [abs_le]
        omega
      · push_cast
        rw [add_mul, one]
        rfl
  | sale =>
      refine ⟨10 ^ places - n, ?_, ?_⟩
      · rw [abs_le]
        omega
      · push_cast
        rw [sub_mul, one]
        rfl

/-- One and a short fee are added and subtracted without rounding. -/
theorem Deal.round_exact_factor (deal : Deal) {fee : ℚ} (nonneg : 0 ≤ fee) (below : fee < 1)
    (short : Short (1 + fee)) : working.round (deal.exactFactor fee) = deal.exactFactor fee := by
  obtain ⟨n, low, high, rfl⟩ := fee_places nonneg below short
  obtain ⟨m, few, written⟩ := deal.exact_factor_places 59 low high
  have exactly : deal.exactFactor (n * 10 ^ (-59 : ℤ)) = m * 10 ^ (-59 : ℤ) := written
  rw [exactly]
  exact Context.round_of_fits (few.trans_lt (by decide)) (by decide)

theorem Deal.price_answers (deal : Deal) {quoted fee : Decimal} (priced : Priced quoted)
    (charged : Charged fee) (short : Short (1 + fee.toRat))
    (bounded : deal.exactPrice quoted fee < 10 ^ 43) :
    ∃ value, deal.price (some quoted) (some fee) = .ok value ∧ value.isFinite = true ∧
      value.toRat = working.round (deal.exactPrice quoted fee) := by
  obtain ⟨factor, factored, finite, rounded⟩ := deal.factor_answers charged
  rw [deal.round_exact_factor charged.nonneg charged.below short] at rounded
  have rounds := Context.multiply_rounds working_sane priced.finite finite
  rw [rounded] at rounds
  have small : |deal.exactPrice quoted fee| ≤ 10 ^ 99 := by
    rw [abs_of_nonneg (Deal.exact_price_nonneg priced charged)]
    exact bounded.le.trans (by norm_num)
  obtain ⟨value, multiplied, valueFinite, valueRound⟩ := answer_of_rounds rounds small
  refine ⟨value, ?_, valueFinite, valueRound⟩
  rw [Deal.price_eq factored, multiplied]
  rfl

/-! ### Numbers of eight places -/

theorem unit_eq : (10 : ℚ) ^ scale = (10 ^ 8)⁻¹ := rfl

theorem few_units (bound : ℤ) {q : ℚ} {n : ℤ} (written : q = n * 10 ^ scale) (nonneg : 0 ≤ q)
    (below : q < bound) : 0 ≤ n ∧ n < bound * 10 ^ 8 := by
  rw [written] at nonneg
  rw [written, unit_eq, ← div_eq_mul_inv, div_lt_iff₀ (by positivity)] at below
  have numerator : (0 : ℚ) ≤ n := (mul_nonneg_iff_of_pos_right (by positivity)).mp nonneg
  exact ⟨by exact_mod_cast numerator, by exact_mod_cast below⟩

theorem Deal.factor_of_eight_places (deal : Deal) {fee : Decimal} (charged : Charged fee)
    (whole : ∃ n : ℤ, fee.toRat = n * 10 ^ scale) :
    ∃ m : ℤ, |m| ≤ 2 * 10 ^ 8 ∧ deal.exactFactor fee.toRat = m * 10 ^ scale := by
  obtain ⟨n, written⟩ := whole
  have few := few_units 1 written charged.nonneg (by exact_mod_cast charged.below)
  rw [written]
  exact deal.exact_factor_places 8 few.1 (by omega)

theorem short_factor {q : ℚ} (factor : ∃ m : ℤ, |m| ≤ 2 * 10 ^ 8 ∧ q = m * 10 ^ scale) :
    Short q := by
  obtain ⟨m, few, written⟩ := factor
  exact ⟨m, scale, few.trans_lt (by decide), written⟩

theorem short_product {price : Decimal} {q : ℚ} (priced : Priced price)
    (whole : ∃ p : ℤ, price.toRat = p * 10 ^ scale) (below : price.toRat < 10 ^ 42)
    (factor : ∃ m : ℤ, |m| ≤ 2 * 10 ^ 8 ∧ q = m * 10 ^ scale) : Short (price.toRat * q) := by
  obtain ⟨p, priceWritten⟩ := whole
  obtain ⟨m, few, written⟩ := factor
  have priceFew := few_units (10 ^ 42) priceWritten priced.positive.le
    (by exact_mod_cast below)
  refine ⟨p * m, scale + scale, ?_, ?_⟩
  · rw [abs_mul, abs_of_nonneg priceFew.1]
    calc
      p * |m| ≤ (10 ^ 42 * 10 ^ 8) * (2 * 10 ^ 8) := by
        gcongr
        exact priceFew.2.le
      _ < 10 ^ working.precision := by decide
  · rw [priceWritten, written, zpow_add₀ (by norm_num)]
    push_cast
    ring

/-! ### Entry and exit spreads -/

def exactPaid (price fee : Decimal) : ℚ := price.toRat * (1 + fee.toRat)

def exactReceived (price fee : Decimal) : ℚ := price.toRat * (1 - fee.toRat)

structure Legs where
  longPrice : Decimal
  longFee : Decimal
  shortPrice : Decimal
  shortFee : Decimal

def Legs.spread (legs : Legs) (side : Side) : Except Failure Decimal :=
  Spread.spread side (some legs.longPrice) (some legs.longFee) (some legs.shortPrice)
    (some legs.shortFee)

def Legs.exactLong (legs : Legs) : Side → ℚ
  | .entry => exactPaid legs.longPrice legs.longFee
  | .exit => exactReceived legs.longPrice legs.longFee

def Legs.exactShort (legs : Legs) : Side → ℚ
  | .entry => exactReceived legs.shortPrice legs.shortFee
  | .exit => exactPaid legs.shortPrice legs.shortFee

structure Legs.Valid (legs : Legs) : Prop where
  longPriced : Priced legs.longPrice
  longCharged : Charged legs.longFee
  shortPriced : Priced legs.shortPrice
  shortCharged : Charged legs.shortFee

/-- The exact fee factors and effective prices are short, and the effective prices bounded. -/
structure Legs.Fits (legs : Legs) (side : Side) : Prop where
  longFactors : Short (1 + legs.longFee.toRat) ∧ Short (1 - legs.longFee.toRat)
  shortFactors : Short (1 + legs.shortFee.toRat) ∧ Short (1 - legs.shortFee.toRat)
  products : Short (legs.exactLong side) ∧ Short (legs.exactShort side)
  bounded : legs.exactLong side < 10 ^ 43 ∧ legs.exactShort side < 10 ^ 43

/-- All numbers have eight places, and the prices are below 10 ^ 42. -/
structure Legs.EightPlaces (legs : Legs) : Prop where
  whole : ∀ value ∈ [legs.longPrice, legs.longFee, legs.shortPrice, legs.shortFee],
    ∃ n : ℤ, value.toRat = n * 10 ^ scale
  longBounded : legs.longPrice.toRat < 10 ^ 42
  shortBounded : legs.shortPrice.toRat < 10 ^ 42

namespace Legs

variable {legs : Legs} {side : Side}

theorem exact_long_eq (legs : Legs) (side : Side) :
    legs.exactLong side = side.longDeal.exactPrice legs.longPrice legs.longFee := by
  cases side <;> rfl

theorem exact_short_eq (legs : Legs) (side : Side) :
    legs.exactShort side = side.shortDeal.exactPrice legs.shortPrice legs.shortFee := by
  cases side <;> rfl

theorem exact_nonneg (valid : legs.Valid) (side : Side) :
    0 ≤ legs.exactLong side ∧ 0 ≤ legs.exactShort side := by
  rw [exact_long_eq, exact_short_eq]
  exact ⟨Deal.exact_price_nonneg valid.longPriced valid.longCharged,
    Deal.exact_price_nonneg valid.shortPriced valid.shortCharged⟩

theorem effective_answers (valid : legs.Valid) (fits : legs.Fits side) :
    ∃ long short, effective side (some legs.longPrice) (some legs.longFee) (some legs.shortPrice)
        (some legs.shortFee) = .ok (long, short) ∧
      long.isFinite = true ∧ long.toRat = working.round (legs.exactLong side) ∧
      short.isFinite = true ∧ short.toRat = working.round (legs.exactShort side) := by
  have bounded := fits.bounded
  rw [exact_long_eq, exact_short_eq] at bounded ⊢
  obtain ⟨long, longAnswer, longFinite, longRound⟩ := side.longDeal.price_answers
    valid.longPriced valid.longCharged fits.longFactors.1 bounded.1
  obtain ⟨short, shortAnswer, shortFinite, shortRound⟩ := side.shortDeal.price_answers
    valid.shortPriced valid.shortCharged fits.shortFactors.1 bounded.2
  refine ⟨long, short, ?_, longFinite, longRound, shortFinite, shortRound⟩
  rw [effective_eq, longAnswer, shortAnswer]
  rfl

/-- Numbers of eight places and ordinary size are short, and so are their effective prices. -/
theorem fits_of_eight_places (valid : legs.Valid) (eight : legs.EightPlaces) (side : Side) :
    legs.Fits side := by
  have longFactor := fun deal : Deal =>
    deal.factor_of_eight_places valid.longCharged (eight.whole legs.longFee (by simp))
  have shortFactor := fun deal : Deal =>
    deal.factor_of_eight_places valid.shortCharged (eight.whole legs.shortFee (by simp))
  have bounded : ∀ {deal : Deal} {price fee : Decimal}, Priced price → Charged fee →
      price.toRat < 10 ^ 42 → deal.exactPrice price fee < 10 ^ 43 := by
    intro deal price fee priced charged below
    have atMostTwo : deal.exactFactor fee.toRat ≤ 2 := Deal.exact_factor_le_two charged
    calc
      price.toRat * deal.exactFactor fee.toRat ≤ price.toRat * 2 :=
        mul_le_mul_of_nonneg_left atMostTwo priced.positive.le
      _ < 10 ^ 43 := by linarith
  refine ⟨⟨short_factor (longFactor .purchase), short_factor (longFactor .sale)⟩,
    ⟨short_factor (shortFactor .purchase), short_factor (shortFactor .sale)⟩, ?_, ?_⟩
  · rw [exact_long_eq, exact_short_eq]
    exact ⟨short_product valid.longPriced (eight.whole legs.longPrice (by simp))
        eight.longBounded (longFactor side.longDeal),
      short_product valid.shortPriced (eight.whole legs.shortPrice (by simp))
        eight.shortBounded (shortFactor side.shortDeal)⟩
  · rw [exact_long_eq, exact_short_eq]
    exact ⟨bounded valid.longPriced valid.longCharged eight.longBounded,
      bounded valid.shortPriced valid.shortCharged eight.shortBounded⟩

/-- Entry and exit spreads of short numbers are exact: the effective prices at eight places, and
their fractional difference at eight places, with no other rounding to be seen. There is none
exactly if nothing is left of the effective price on the long side, and that is reported as a zero
price. Numbers of eight places below `10 ^ 42` are short. -/
theorem spread_exact (side : Side) (valid : legs.Valid) :
    (legs.Fits side →
      (legs.exactLong side ≤ 5 / 10 ^ 9 → ∃ long : Decimal,
        long.toRat = working.round (legs.exactLong side) ∧
        legs.spread side = .error (.ofCause (.zeroPrice (.text "long_price") (.decimal long))
          ("Long price " ++ long.toText ++ " scales to zero"))) ∧
      (5 / 10 ^ 9 < legs.exactLong side → ∃ negative coefficient,
        legs.spread side = .ok (.finite negative coefficient (-8)) ∧
        (Decimal.finite negative coefficient (-8)).toRat =
          atScale ((atScale (legs.exactShort side) - atScale (legs.exactLong side)) /
            atScale (legs.exactLong side)))) ∧
    (legs.EightPlaces → legs.Fits side) := by
  refine ⟨?_, fun eight => fits_of_eight_places valid eight side⟩
  intro fits
  obtain ⟨long, short, effectively, longFinite, longRound, shortFinite, shortRound⟩ :=
    effective_answers valid fits
  have computed : legs.spread side = base long short := by
    simp only [Legs.spread, Spread.spread, check_price_passes valid.longPriced,
      check_price_passes valid.shortPriced, check_fee_passes valid.longCharged,
      check_fee_passes valid.shortCharged, effectively, bind, Except.bind]
  have longUnits : units long.toRat = units (legs.exactLong side) := by
    rw [longRound, units_round_short fits.products.1]
  have shortUnits : units short.toRat = units (legs.exactShort side) := by
    rw [shortRound, units_round_short fits.products.2]
  obtain ⟨longNonneg, shortNonneg⟩ := exact_nonneg valid side
  have bounded : ∀ {q : ℚ}, 0 ≤ q → q < 10 ^ 43 → |units q| ≤ 10 ^ 51 := by
    intro q nonneg below
    apply abs_units_le
    rw [abs_of_nonneg nonneg]
    exact below.le.trans (by norm_num [scale])
  have longBounded := abs_le.mp (bounded longNonneg fits.bounded.1)
  have shortBounded := bounded shortNonneg fits.bounded.2
  have vanishes : units (legs.exactLong side) = 0 ↔ legs.exactLong side ≤ 5 / 10 ^ 9 := by
    rw [units_eq_zero_iff, abs_of_nonneg longNonneg]
  rw [computed]
  constructor
  · intro nothing
    refine ⟨long, longRound, zero_price_of_base longFinite shortFinite ?_ ?_⟩
    · rw [longUnits, vanishes]
      exact nothing
    · rw [shortUnits]
      omega
  · intro something
    have positive : 0 < units (legs.exactLong side) := by
      have nonneg := units_nonneg longNonneg
      have nonzero : units (legs.exactLong side) ≠ 0 := by
        rw [Ne, vanishes, not_le]
        exact something
      omega
    obtain ⟨negative, coefficient, answered, value⟩ := base_exact longFinite shortFinite
      (longUnits ▸ positive) (longUnits ▸ longBounded.2)
      (shortUnits ▸ units_nonneg shortNonneg) (shortUnits ▸ (abs_le.mp shortBounded).2)
    refine ⟨negative, coefficient, answered, ?_⟩
    rw [atScale, atScale, atScale, longUnits, shortUnits] at value
    exact value

/-- Bought at 200.00 and sold at 200.50, with fees of 0.1 % on both sides. -/
def quoted : Legs where
  longPrice := .finite false 20000 (-2)
  longFee := .finite false 1 (-3)
  shortPrice := .finite false 20050 (-2)
  shortFee := .finite false 1 (-3)

theorem quoted_valid : quoted.Valid where
  longPriced := ⟨rfl, by norm_num [quoted, Decimal.to_rat_finite]⟩
  longCharged := ⟨rfl, by norm_num [quoted, Decimal.to_rat_finite],
    by norm_num [quoted, Decimal.to_rat_finite]⟩
  shortPriced := ⟨rfl, by norm_num [quoted, Decimal.to_rat_finite]⟩
  shortCharged := ⟨rfl, by norm_num [quoted, Decimal.to_rat_finite],
    by norm_num [quoted, Decimal.to_rat_finite]⟩

theorem quoted_eight_places : quoted.EightPlaces where
  whole := by
    have grid : ∀ (coefficient : ℕ) (exponent : ℤ), scale ≤ exponent →
        ∃ n : ℤ, (Decimal.finite false coefficient exponent).toRat = n * 10 ^ scale := by
      intro coefficient exponent above
      refine ⟨(coefficient * 10 ^ (exponent - scale).toNat : ℕ), ?_⟩
      rw [Int.cast_natCast, Context.scale_up coefficient above, Decimal.to_rat_finite]
      simp
    intro value member
    simp only [quoted, List.mem_cons, List.not_mem_nil, or_false] at member
    rcases member with rfl | rfl | rfl | rfl <;> exact grid _ _ (by decide)
  longBounded := by norm_num [quoted, Decimal.to_rat_finite]
  shortBounded := by norm_num [quoted, Decimal.to_rat_finite]

theorem quoted_spread :
    (quoted.spread .entry).toOption = some (.finite false 49700 (-8)) ∧
      ∃ negative coefficient, quoted.spread .entry = .ok (.finite negative coefficient (-8)) ∧
        (Decimal.finite negative coefficient (-8)).toRat =
          atScale ((atScale (quoted.exactShort .entry) - atScale (quoted.exactLong .entry)) /
            atScale (quoted.exactLong .entry)) := by
  have fits := (spread_exact .entry quoted_valid).2 quoted_eight_places
  have worth : 5 / 10 ^ 9 < quoted.exactLong .entry := by
    norm_num [quoted, exactLong, exactPaid, Decimal.to_rat_finite]
  exact ⟨by decide +kernel, ((spread_exact .entry quoted_valid).1 fits).2 worth⟩

end Legs

end SpreadWatch.Spread
