import SpreadWatch.Proofs.Decimal.Value

/-!
Rounding to a working precision, as a function on rationals, and the proof that decimal arithmetic
is correctly rounded: each operation on finite decimals answers with the exact rational result,
rounded once, and overflows only if that lies above the exponent range. Where an operation forms a
stand-in for its exact result, both lie between the same two multiples of five units of a place
below the last one kept, so no rounding tells them apart.
-/

namespace SpreadWatch.Decimal.Context

/-- A context with at least one digit, whose exponent range reaches from its least exponent up to a
nonnegative one. -/
structure Sane (c : Context) : Prop where
  digits : 0 < c.precision
  range : c.leastExponent ≤ c.maxExponent

def place (c : Context) (v : ℚ) : ℤ := max (Int.log 10 |v| + 1 - c.precision) c.leastExponent

/-- A number rounded to the precision and the least exponent of a context. -/
def round (c : Context) (v : ℚ) : ℚ := nearest (v / 10 ^ c.place v) * 10 ^ c.place v

def ceiling (c : Context) : ℚ := 10 ^ (c.maxExponent + 1)

/-- A result is a number, correctly rounded, or the overflow that it is in for. -/
def Rounds (c : Context) (v : ℚ) (result : Except Signal Decimal) : Prop :=
  (|c.round v| < c.ceiling → ∃ negative coefficient exponent,
    result = .ok (.finite negative coefficient exponent) ∧
      (finite negative coefficient exponent).toRat = c.round v) ∧
  (c.ceiling ≤ |c.round v| → result = .error .overflow)

variable {c : Context}

@[simp] theorem place_neg (v : ℚ) : c.place (-v) = c.place v := by
  simp [place]

theorem round_neg (v : ℚ) : c.round (-v) = -c.round v := by
  rw [round, round, place_neg, neg_div, nearest_neg]
  push_cast
  ring

@[simp] theorem round_zero : c.round 0 = 0 := by
  simp [round]

theorem round_nonneg {v : ℚ} (nonneg : 0 ≤ v) : 0 ≤ c.round v := by
  have quotient : 0 ≤ v / 10 ^ c.place v := by positivity
  have rounded : (0 : ℚ) ≤ nearest (v / 10 ^ c.place v) := by
    exact_mod_cast nearest_nonneg quotient
  rw [round]
  positivity

theorem round_error (v : ℚ) : |c.round v - v| ≤ 1 / 2 * 10 ^ c.place v := by
  have unit : (0 : ℚ) < 10 ^ c.place v := by positivity
  have close := nearest_error (v / 10 ^ c.place v)
  have scaled : c.round v - v =
      (nearest (v / 10 ^ c.place v) - v / 10 ^ c.place v) * 10 ^ c.place v := by
    rw [round, sub_mul, div_mul_cancel₀ _ unit.ne']
  rw [scaled, abs_mul, abs_of_pos unit, abs_sub_comm]
  exact mul_le_mul_of_nonneg_right close unit.le

theorem multiple_at_place {m k p : ℤ} (above : p ≤ k) :
    (m : ℚ) * 10 ^ k / 10 ^ p = ((m * 10 ^ (k - p).toNat : ℤ) : ℚ) := by
  push_cast
  rw [mul_div_assoc, ← zpow_sub₀ (by norm_num), ← zpow_natCast, Int.toNat_of_nonneg (by omega)]

/-- A whole number of units at or above the last place kept is not rounded. -/
theorem round_of_place_le {m k : ℤ} (above : c.place (m * 10 ^ k) ≤ k) :
    c.round (m * 10 ^ k) = m * 10 ^ k := by
  set p := c.place (m * 10 ^ k) with named
  have whole := multiple_at_place (m := m) above
  rw [round, ← named, whole, nearest_int_cast, ← whole, div_mul_cancel₀ _ (by positivity)]

/-- Rounding does not take a number below a whole number of units at or above its last place. -/
theorem multiple_le_round {v : ℚ} {m k : ℤ} (above : c.place v ≤ k) (bound : m * 10 ^ k ≤ v) :
    m * 10 ^ k ≤ c.round v := by
  have unit : (0 : ℚ) < 10 ^ c.place v := by positivity
  have whole := multiple_at_place (m := m) above
  have scaled : (m : ℚ) * 10 ^ k / 10 ^ c.place v ≤ v / 10 ^ c.place v := by gcongr
  have rounded := nearest_mono scaled
  rw [whole, nearest_int_cast] at rounded
  rw [round, ← div_le_iff₀ unit, whole]
  exact_mod_cast rounded

/-- Nor does it take a number above one. -/
theorem round_le_multiple {v : ℚ} {m k : ℤ} (above : c.place v ≤ k) (bound : v ≤ m * 10 ^ k) :
    c.round v ≤ m * 10 ^ k := by
  have opposite : ((-m : ℤ) : ℚ) * 10 ^ k ≤ -v := by
    push_cast
    linarith
  have rounded := multiple_le_round (c := c) (by rwa [place_neg]) opposite
  rw [round_neg] at rounded
  push_cast at rounded
  linarith

theorem place_mono {v w : ℚ} (positive : 0 < v) (ordered : v ≤ w) : c.place v ≤ c.place w := by
  have decades : Int.log 10 |v| ≤ Int.log 10 |w| := by
    rw [abs_of_pos positive, abs_of_pos (positive.trans_le ordered)]
    exact Int.log_mono_right positive ordered
  rw [place, place]
  omega

theorem round_mono_of_pos (sane : c.Sane) {v w : ℚ} (positive : 0 < v) (ordered : v ≤ w) :
    c.round v ≤ c.round w := by
  have digits := sane.digits
  have positiveHigh := positive.trans_le ordered
  rcases (place_mono (c := c) positive ordered).eq_or_lt with same | apart
  · have scaled : v / 10 ^ c.place w ≤ w / 10 ^ c.place w := by gcongr
    have whole : (nearest (v / 10 ^ c.place w) : ℚ) ≤ nearest (w / 10 ^ c.place w) := by
      exact_mod_cast nearest_mono scaled
    rw [round, round, same]
    gcongr
  · -- The greater number keeps fewer places, so its leading digit's power of ten lies between.
    have leading : c.place w = Int.log 10 |w| + 1 - c.precision := by
      rw [place, place] at apart
      rw [place]
      omega
    have decades : Int.log 10 |v| + 1 ≤ Int.log 10 |w| := by
      rw [place] at apart
      omega
    rw [abs_of_pos positive, abs_of_pos positiveHigh] at decades
    rw [abs_of_pos positiveHigh] at leading
    set decade := Int.log 10 w with named
    have above : ((1 : ℤ) : ℚ) * 10 ^ decade ≤ w := by
      rw [Int.cast_one, one_mul]
      exact_mod_cast Int.zpow_log_le_self (b := 10) (by norm_num) positiveHigh
    have below : v ≤ ((1 : ℤ) : ℚ) * 10 ^ decade := by
      rw [Int.cast_one, one_mul]
      have next : v < (10 : ℚ) ^ (Int.log 10 v + 1) := by
        exact_mod_cast Int.lt_zpow_succ_log_self (b := 10) (by norm_num) v
      exact next.le.trans (zpow_le_zpow_right₀ (by norm_num) decades)
    exact (round_le_multiple (by omega) below).trans (multiple_le_round (by omega) above)

/-- Rounding keeps the order of numbers, also where they keep different places. -/
theorem round_mono (sane : c.Sane) {v w : ℚ} (ordered : v ≤ w) : c.round v ≤ c.round w := by
  rcases lt_trichotomy v 0 with negative | rfl | positive
  · rcases lt_or_ge w 0 with negativeHigh | nonneg
    · have opposite := round_mono_of_pos sane (neg_pos.mpr negativeHigh) (neg_le_neg ordered)
      rw [round_neg, round_neg] at opposite
      exact neg_le_neg_iff.mp opposite
    · have opposite := round_nonneg (c := c) (neg_nonneg.mpr negative.le)
      rw [round_neg] at opposite
      exact (neg_nonneg.mp opposite).trans (round_nonneg nonneg)
  · rw [round_zero]
    exact round_nonneg ordered
  · exact round_mono_of_pos sane positive ordered

/-- A number that can be written with the digits of the precision is not rounded. -/
theorem round_of_fits {m k : ℤ} (few : |m| < 10 ^ c.precision) (least : c.leastExponent ≤ k) :
    c.round (m * 10 ^ k) = m * 10 ^ k := by
  by_cases zero : m = 0
  · simp [zero]
  apply round_of_place_le
  have positive : (0 : ℚ) < |(m : ℚ) * 10 ^ k| := by positivity
  have below : |(m : ℚ) * 10 ^ k| < ((10 : ℕ) : ℚ) ^ (c.precision + k) := by
    rw [abs_mul, abs_of_pos (show (0 : ℚ) < 10 ^ k by positivity), Nat.cast_ofNat,
      zpow_add₀ (by norm_num), zpow_natCast]
    apply mul_lt_mul_of_pos_right _ (by positivity)
    exact_mod_cast few
  have decade := (Int.lt_zpow_iff_log_lt (by norm_num) positive).mp below
  rw [place]
  omega

theorem abs_round_le_double (v : ℚ) : |c.round v| ≤ 2 * |v| := by
  have forward : ∀ w : ℚ, 0 ≤ w → |c.round w| ≤ 2 * |w| := by
    intro w nonneg
    have unit : (0 : ℚ) < 10 ^ c.place w := by positivity
    have doubled := nearest_le_double (show 0 ≤ w / 10 ^ c.place w by positivity)
    rw [abs_of_nonneg (round_nonneg nonneg), abs_of_nonneg nonneg]
    calc
      c.round w ≤ 2 * (w / 10 ^ c.place w) * 10 ^ c.place w :=
        mul_le_mul_of_nonneg_right doubled unit.le
      _ = 2 * w := by rw [mul_assoc, div_mul_cancel₀ _ unit.ne']
  rcases le_total 0 v with nonneg | nonpos
  · exact forward v nonneg
  · have opposite := forward (-v) (by linarith)
    rwa [round_neg, abs_neg, abs_neg] at opposite

/-! ### Rounding one coefficient -/

theorem log_magnitude {coefficient : ℕ} (nonzero : coefficient ≠ 0) (exponent : ℤ) :
    Int.log 10 |(coefficient : ℚ) * 10 ^ exponent| = exponent + digitCount coefficient - 1 := by
  have positive : (0 : ℚ) < coefficient * 10 ^ exponent := by positivity
  rw [abs_of_pos positive]
  apply le_antisymm
  · have below := (Int.lt_zpow_iff_log_lt (b := 10) (by norm_num) positive).mp
      (by exact_mod_cast magnitude_lt coefficient exponent)
    omega
  · exact (Int.zpow_le_iff_le_log (b := 10) (by norm_num) positive).mp
      (by exact_mod_cast magnitude_ge nonzero exponent)

/-- The place kept of a nonzero coefficient, as `finish` computes it. -/
theorem place_magnitude {coefficient : ℕ} (nonzero : coefficient ≠ 0) (exponent : ℤ) :
    c.place (coefficient * 10 ^ exponent) =
      exponent + max ((digitCount coefficient : ℤ) - c.precision) (c.leastExponent - exponent) := by
  rw [place, log_magnitude nonzero]
  omega

def kept (c : Context) (coefficient : ℕ) (exponent : ℤ) : ℕ × ℤ :=
  let drop := max ((digitCount coefficient : Int) - c.precision) (c.leastExponent - exponent)
  if drop ≤ 0 then (coefficient, exponent)
  else if digitCount coefficient < drop then (0, exponent + drop)
  else
    let rounded := roundHalfEven coefficient (power 10 drop.toNat)
    if c.precision < digitCount rounded then (rounded / 10, exponent + drop + 1)
    else (rounded, exponent + drop)

theorem finish_of_ne_zero {coefficient : ℕ} (nonzero : coefficient ≠ 0) (negative : Bool)
    (exponent : ℤ) :
    c.finish negative coefficient exponent =
      if c.maxExponent < (c.kept coefficient exponent).2 +
          digitCount (c.kept coefficient exponent).1 - 1 then .error .overflow
      else .ok (.finite negative (c.kept coefficient exponent).1
        (c.kept coefficient exponent).2) := by
  rw [finish, if_neg nonzero]
  rfl

theorem kept_value (sane : c.Sane) {coefficient : ℕ} (nonzero : coefficient ≠ 0) (exponent : ℤ) :
    ((c.kept coefficient exponent).1 : ℚ) * 10 ^ (c.kept coefficient exponent).2 =
      c.round (coefficient * 10 ^ exponent) := by
  have positive := sane.digits
  have placed := place_magnitude (c := c) nonzero exponent
  simp only [kept]
  set drop := max ((digitCount coefficient : Int) - c.precision) (c.leastExponent - exponent)
    with named
  split_ifs with whole below carried
  · have exact := round_of_place_le (c := c) (m := coefficient) (k := exponent)
      (by push_cast; omega)
    push_cast at exact
    exact exact.symm
  · have tiny : |(coefficient : ℚ) * 10 ^ exponent / 10 ^ (exponent + drop)| ≤ 1 / 2 := by
      rw [abs_of_nonneg (by positivity), div_le_iff₀ (by positivity)]
      calc
        (coefficient : ℚ) * 10 ^ exponent ≤ 10 ^ (exponent + digitCount coefficient) :=
          (magnitude_lt coefficient exponent).le
        _ ≤ 10 ^ (exponent + drop - 1) := zpow_le_zpow_right₀ (by norm_num) (by omega)
        _ = 1 / 10 * 10 ^ (exponent + drop) := by
          rw [zpow_sub₀ (by norm_num)]
          ring
        _ ≤ 1 / 2 * 10 ^ (exponent + drop) :=
          mul_le_mul_of_nonneg_right (by norm_num) (by positivity)
    rw [round, placed, (nearest_eq_zero_iff _).mpr tiny]
    simp
  all_goals
    have divided : (coefficient : ℚ) * 10 ^ exponent / 10 ^ (exponent + drop) =
        (coefficient : ℚ) / ((10 ^ drop.toNat : ℕ) : ℚ) := by
      push_cast
      rw [zpow_add₀ (by norm_num), ← zpow_natCast, Int.toNat_of_nonneg (by omega)]
      field_simp
    have rounded := nearest_div coefficient (10 ^ drop.toNat) (by positivity)
    rw [round, placed, divided, rounded, Int.cast_natCast]
  · -- A carry out of the leading digit leaves a power of ten, whose last digit is zero.
    have upper : roundHalfEven coefficient (10 ^ drop.toNat) ≤ 10 ^ c.precision := by
      have quotient : (coefficient : ℚ) / ((10 ^ drop.toNat : ℕ) : ℚ) ≤
          ((10 ^ c.precision : ℕ) : ℤ) := by
        rw [div_le_iff₀ (by positivity)]
        push_cast
        rw [← pow_add]
        have fits : coefficient ≤ 10 ^ (c.precision + drop.toNat) :=
          (lt_pow_digit_count coefficient).le.trans
            (Nat.pow_le_pow_right (by omega) (by omega))
        exact_mod_cast fits
      have bounded := nearest_mono quotient
      rw [rounded, nearest_int_cast] at bounded
      exact_mod_cast bounded
    have lower : 10 ^ c.precision ≤ roundHalfEven coefficient (10 ^ drop.toNat) := by
      by_contra short
      have few := (digit_count_le_iff positive).mpr (not_le.mp short)
      simp only [power_eq] at carried
      omega
    have tens : 10 ∣ roundHalfEven coefficient (10 ^ drop.toNat) := by
      rw [le_antisymm upper lower]
      exact dvd_pow_self 10 positive.ne'
    obtain ⟨tenth, split⟩ := tens
    simp only [power_eq, split, Nat.mul_div_cancel_left tenth (show 0 < 10 by norm_num)]
    rw [zpow_add_one₀ (by norm_num)]
    push_cast
    ring
  · rfl

/-- Nothing is kept only where the least exponent cuts everything off. -/
theorem kept_place_of_zero (sane : c.Sane) {coefficient : ℕ} (nonzero : coefficient ≠ 0)
    (exponent : ℤ) (vanished : (c.kept coefficient exponent).1 = 0) :
    (c.kept coefficient exponent).2 ≤ c.leastExponent := by
  have positive := sane.digits
  have placed := place_magnitude (c := c) nonzero exponent
  have value := kept_value sane nonzero exponent
  rw [vanished, Nat.cast_zero, zero_mul] at value
  -- The number lies below the last place kept, so the precision cannot have set that place.
  have low : exponent + digitCount coefficient - 1 < c.place (coefficient * 10 ^ exponent) := by
    have close := round_error (c := c) (coefficient * 10 ^ exponent)
    rw [← value, zero_sub, abs_neg, abs_of_nonneg (by positivity)] at close
    have unit : (0 : ℚ) < 10 ^ c.place (coefficient * 10 ^ exponent) := by positivity
    have below := (magnitude_ge nonzero exponent).trans_lt
      (close.trans_lt (show _ < (10 : ℚ) ^ c.place (coefficient * 10 ^ exponent) by linarith))
    exact (zpow_lt_zpow_iff_right₀ (by norm_num)).mp below
  simp only [kept] at vanished ⊢
  set drop := max ((digitCount coefficient : Int) - c.precision) (c.leastExponent - exponent)
    with named
  split_ifs at vanished ⊢ with whole below carried
  · exact absurd vanished nonzero
  · simp only
    omega
  · have short : roundHalfEven coefficient (power 10 drop.toNat) < 10 ^ 1 := by
      simp only at vanished
      omega
    have few := (digit_count_le_iff one_pos).mpr short
    omega
  · simp only
    omega

/-- A nonzero coefficient overflows exactly if the rounded number reaches the ceiling. -/
theorem kept_overflows_iff (sane : c.Sane) {coefficient : ℕ} (nonzero : coefficient ≠ 0)
    (exponent : ℤ) :
    c.maxExponent < (c.kept coefficient exponent).2 +
        digitCount (c.kept coefficient exponent).1 - 1 ↔
      c.ceiling ≤ c.round (coefficient * 10 ^ exponent) := by
  rw [← kept_value sane nonzero exponent, ceiling]
  by_cases vanished : (c.kept coefficient exponent).1 = 0
  · have least := kept_place_of_zero sane nonzero exponent vanished
    have range := sane.range
    have one : digitCount 0 = 1 := by rw [digitCount, if_pos (by norm_num)]
    have positive : (0 : ℚ) < 10 ^ (c.maxExponent + 1) := by positivity
    rw [vanished, one, Nat.cast_zero, zero_mul]
    constructor
    · intro reached
      omega
    · intro reached
      exact absurd reached positive.not_ge
  · constructor
    · intro reached
      exact (zpow_le_zpow_right₀ (by norm_num) (by omega)).trans (magnitude_ge vanished _)
    · intro reached
      have between := reached.trans_lt (magnitude_lt _ _)
      have exponents := (zpow_lt_zpow_iff_right₀ (by norm_num)).mp between
      omega

theorem finish_rounds (sane : c.Sane) (negative : Bool) (coefficient : ℕ) (exponent : ℤ) :
    c.Rounds (finite negative coefficient exponent).toRat
      (c.finish negative coefficient exponent) := by
  have range := sane.range
  by_cases zero : coefficient = 0
  · subst zero
    have value : (finite negative 0 exponent).toRat = 0 := by
      rw [to_rat_finite]
      simp
    have ceiled : (0 : ℚ) < c.ceiling := by
      rw [ceiling]
      positivity
    rw [value]
    refine ⟨fun _ => ⟨negative, 0, _, by rw [finish, if_pos rfl], ?_⟩, fun reached => ?_⟩
    · rw [to_rat_finite]
      simp
    · rw [round_zero, abs_zero] at reached
      exact absurd reached ceiled.not_ge
  · have value := kept_value sane zero exponent
    have overflows := kept_overflows_iff sane zero exponent
    have signedValue : ∀ (k : ℕ) (p : ℤ), (finite negative k p).toRat =
        (if negative then -1 else 1) * ((k : ℚ) * 10 ^ p) := by
      intro k p
      rw [to_rat_finite]
      cases negative <;> simp
    have roundedSign : c.round (finite negative coefficient exponent).toRat =
        (if negative then -1 else 1) * c.round (coefficient * 10 ^ exponent) := by
      rw [signedValue]
      cases negative <;> simp [round_neg]
    have magnitude : |c.round (finite negative coefficient exponent).toRat| =
        c.round (coefficient * 10 ^ exponent) := by
      have nonneg : 0 ≤ c.round ((coefficient : ℚ) * 10 ^ exponent) := round_nonneg (by positivity)
      rw [roundedSign]
      cases negative <;> simp [abs_of_nonneg nonneg]
    rw [Rounds, magnitude, finish_of_ne_zero zero]
    refine ⟨fun inside => ⟨negative, _, _, if_neg ?_, ?_⟩, fun reached => if_pos ?_⟩
    · rw [overflows]
      exact inside.not_ge
    · rw [signedValue, value, roundedSign]
    · rw [overflows]
      exact reached

end SpreadWatch.Decimal.Context
