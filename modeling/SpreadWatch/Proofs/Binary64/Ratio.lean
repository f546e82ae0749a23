import Mathlib
import SpreadWatch.Binary64.Basic
import SpreadWatch.Proofs.Decimal.Value

/-!
The double nearest to a ratio. Unless the ratio is so small that its last place is bound to be the
least of all, it is scaled by a power of two to 53 binary digits and rounded there to the nearest
integer. So a ratio below a multiple of its last place does not become greater than it, and the
error is at most half of the last place.
-/

namespace SpreadWatch.Binary64

/-! ### What a double stands for -/

def toRat : Binary64 → ℚ
  | .finite negative mantissa exponent =>
      (if negative then -(mantissa : ℚ) else mantissa) * (2 : ℚ) ^ exponent
  | _ => 0

/-- A fraction with a power of two below becomes one with a power of ten. -/
theorem tenths_of_halves (mantissa count : ℕ) :
    ((mantissa / Nat.gcd mantissa (2 ^ count) *
        5 ^ (2 ^ count / Nat.gcd mantissa (2 ^ count)).log2 : ℕ) : ℚ) *
          (10 : ℚ) ^ (-((2 ^ count / Nat.gcd mantissa (2 ^ count)).log2 : ℤ)) =
      mantissa * (2 : ℚ) ^ (-(count : ℤ)) := by
  obtain ⟨shared, fewer, common⟩ :=
    (Nat.dvd_prime_pow Nat.prime_two).mp (Nat.gcd_dvd_right mantissa (2 ^ count))
  obtain ⟨rest, split⟩ : 2 ^ shared ∣ mantissa := common ▸ Nat.gcd_dvd_left mantissa (2 ^ count)
  have places : 2 ^ count / 2 ^ shared = 2 ^ (count - shared) := Nat.pow_div fewer (by decide)
  rw [common, places, Nat.log2_two_pow, split, Nat.mul_div_cancel_left rest (by positivity)]
  have whole : (2 : ℚ) ^ count = 2 ^ shared * 2 ^ (count - shared) := by
    rw [← pow_add, Nat.add_sub_cancel' fewer]
  have tens : (10 : ℚ) ^ (count - shared) = 2 ^ (count - shared) * 5 ^ (count - shared) := by
    rw [← mul_pow]
    norm_num
  rw [zpow_neg, zpow_neg, zpow_natCast, zpow_natCast, whole, tens]
  push_cast
  field_simp

theorem finite_to_decimal (negative : Bool) (mantissa : ℕ) (exponent : ℤ) :
    ∃ coefficient place,
      (finite negative mantissa exponent).toDecimal = .finite negative coefficient place ∧
        (coefficient : ℚ) * (10 : ℚ) ^ place = mantissa * (2 : ℚ) ^ exponent := by
  by_cases whole : 0 ≤ exponent
  · refine ⟨mantissa * power 2 exponent.toNat, 0, by rw [toDecimal, if_pos whole], ?_⟩
    have integer : ((exponent.toNat : ℕ) : ℤ) = exponent := Int.toNat_of_nonneg whole
    rw [zpow_zero, mul_one, power_eq, Nat.cast_mul, Nat.cast_pow, Nat.cast_ofNat]
    nth_rewrite 2 [← integer]
    rw [zpow_natCast]
  · refine ⟨_, _, by rw [toDecimal, if_neg whole], ?_⟩
    have integer : -(((-exponent).toNat : ℕ) : ℤ) = exponent := by omega
    simp only [power_eq]
    rw [tenths_of_halves, integer]

theorem quantity_finite (negative : Bool) (mantissa : ℕ) (exponent : ℤ) :
    (finite negative mantissa exponent).toDecimal.quantity? =
      some ((finite negative mantissa exponent).toRat : Quantity) := by
  obtain ⟨coefficient, place, same, value⟩ := finite_to_decimal negative mantissa exponent
  have rational : (Decimal.finite negative coefficient place).toRat =
      (finite negative mantissa exponent).toRat := by
    rw [Decimal.to_rat_finite, toRat]
    cases negative
    · simp only [Bool.false_eq_true, if_false, value]
    · simp only [if_true, neg_mul, value]
  rw [same, ← rational]
  rfl

/-! ### The scale of a ratio -/

/-- The place of the last of 53 digits of a ratio, as it is guessed from the lengths. -/
def guessedPlace (numerator denominator : ℕ) : ℤ :=
  (numerator.log2 : ℤ) - denominator.log2 - 53

variable {numerator denominator : ℕ}

theorem scaled_ratio (numerator denominator : ℕ) (place : ℤ) :
    ((numerator * power 2 (-place).toNat : ℕ) : ℚ) /
        ((denominator * power 2 place.toNat : ℕ) : ℚ) =
      (numerator : ℚ) / denominator / (2 : ℚ) ^ place := by
  simp only [power_eq]
  push_cast
  rcases le_total 0 place with whole | broken
  · have integer : (2 : ℚ) ^ place = 2 ^ place.toNat := by
      rw [← zpow_natCast, Int.toNat_of_nonneg whole]
    rw [integer, Int.toNat_of_nonpos (by omega : -place ≤ 0), pow_zero, mul_one, div_div]
  · have integer : (2 : ℚ) ^ place = (2 ^ (-place).toNat)⁻¹ := by
      rw [← zpow_natCast, Int.toNat_of_nonneg (by omega), zpow_neg, inv_inv]
    rw [integer, Int.toNat_of_nonpos broken, pow_zero, mul_one, div_inv_eq_mul]
    ring

theorem scaled_lt_iff (positive : 0 < denominator) (place : ℤ) :
    numerator * power 2 (-place).toNat < denominator * power 2 place.toNat * power 2 53 ↔
      (numerator : ℚ) / denominator / (2 : ℚ) ^ place < 2 ^ 53 := by
  have below : (0 : ℚ) < ((denominator * power 2 place.toNat : ℕ) : ℚ) := by
    simp only [power_eq]
    positivity
  rw [← scaled_ratio, div_lt_iff₀ below, mul_comm ((2 : ℚ) ^ 53)]
  simp only [power_eq]
  exact_mod_cast Iff.rfl

/-- The lengths of numerator and denominator give the size of a ratio up to a factor of two. -/
theorem guessed_bounds (nonzero : numerator ≠ 0) (positive : 0 < denominator) :
    (2 : ℚ) ^ (52 : ℤ) <
        (numerator : ℚ) / denominator / (2 : ℚ) ^ guessedPlace numerator denominator ∧
      (numerator : ℚ) / denominator / (2 : ℚ) ^ guessedPlace numerator denominator <
        (2 : ℚ) ^ (54 : ℤ) := by
  have positiveRat : (0 : ℚ) < denominator := by exact_mod_cast positive
  have highNum : (numerator : ℚ) < (2 : ℚ) ^ ((numerator.log2 : ℤ) + 1) := by
    exact_mod_cast Nat.lt_log2_self (n := numerator)
  have lowNum : (2 : ℚ) ^ (numerator.log2 : ℤ) ≤ numerator := by
    exact_mod_cast Nat.log2_self_le nonzero
  have highDen : (denominator : ℚ) < (2 : ℚ) ^ ((denominator.log2 : ℤ) + 1) := by
    exact_mod_cast Nat.lt_log2_self (n := denominator)
  have lowDen : (2 : ℚ) ^ (denominator.log2 : ℤ) ≤ denominator := by
    exact_mod_cast Nat.log2_self_le positive.ne'
  have two : (2 : ℚ) ≠ 0 := by norm_num
  rw [guessedPlace, div_div]
  constructor
  · rw [lt_div_iff₀ (by positivity)]
    calc
      (2 : ℚ) ^ (52 : ℤ) *
            (denominator * (2 : ℚ) ^ ((numerator.log2 : ℤ) - denominator.log2 - 53)) <
          (2 : ℚ) ^ (52 : ℤ) * ((2 : ℚ) ^ ((denominator.log2 : ℤ) + 1) *
            (2 : ℚ) ^ ((numerator.log2 : ℤ) - denominator.log2 - 53)) := by gcongr
      _ = (2 : ℚ) ^ (numerator.log2 : ℤ) := by
        rw [← zpow_add₀ two, ← zpow_add₀ two]
        congr 1
        ring
      _ ≤ numerator := lowNum
  · rw [div_lt_iff₀ (by positivity)]
    calc
      (numerator : ℚ) < (2 : ℚ) ^ ((numerator.log2 : ℤ) + 1) := highNum
      _ = (2 : ℚ) ^ (54 : ℤ) * ((2 : ℚ) ^ (denominator.log2 : ℤ) *
            (2 : ℚ) ^ ((numerator.log2 : ℤ) - denominator.log2 - 53)) := by
        rw [← zpow_add₀ two, ← zpow_add₀ two]
        congr 1
        ring
      _ ≤ (2 : ℚ) ^ (54 : ℤ) *
            (denominator * (2 : ℚ) ^ ((numerator.log2 : ℤ) - denominator.log2 - 53)) := by gcongr

/-- At the guessed place a ratio that is not too small has 53 digits, or else 54. -/
theorem place_bounds (nonzero : numerator ≠ 0) (positive : 0 < denominator)
    (large : (2 : ℚ) ^ (-1000 : ℤ) ≤ (numerator : ℚ) / denominator) {fits : Bool}
    (fitting : fits = true ↔ (numerator : ℚ) / denominator /
      (2 : ℚ) ^ guessedPlace numerator denominator < 2 ^ 53) {place : ℤ}
    (chosen : place = max (if fits then guessedPlace numerator denominator
      else guessedPlace numerator denominator + 1) (-1074)) :
    (2 : ℚ) ^ (52 : ℤ) ≤ (numerator : ℚ) / denominator / (2 : ℚ) ^ place ∧
      (numerator : ℚ) / denominator / (2 : ℚ) ^ place < (2 : ℚ) ^ (53 : ℤ) := by
  obtain ⟨low, high⟩ := guessed_bounds nonzero positive
  have notLeast : -1074 ≤ guessedPlace numerator denominator := by
    rw [div_lt_iff₀ (by positivity), ← zpow_add₀ (by norm_num)] at high
    have exponents := (zpow_lt_zpow_iff_right₀ (by norm_num : (1 : ℚ) < 2)).mp (large.trans_lt high)
    omega
  cases fits with
  | true =>
      rw [if_pos rfl, max_eq_left notLeast] at chosen
      rw [chosen]
      exact ⟨low.le, by exact_mod_cast fitting.mp rfl⟩
  | false =>
      rw [if_neg (by decide), max_eq_left (by omega)] at chosen
      have above := not_lt.mp (fitting.not.mp (by decide))
      rw [chosen, zpow_add_one₀ (by norm_num), ← div_div]
      constructor
      · rw [le_div_iff₀ (by norm_num)]
        norm_num at above ⊢
        exact above
      · rw [div_lt_iff₀ (by norm_num)]
        norm_num at high ⊢
        exact high

/-! ### Rounding at a place -/

def roundAt (place : ℤ) (q : ℚ) : ℚ := nearest (q / (2 : ℚ) ^ place) * (2 : ℚ) ^ place

variable {place : ℤ} {q : ℚ}

theorem round_at_error (place : ℤ) (q : ℚ) : |roundAt place q - q| ≤ (2 : ℚ) ^ place / 2 := by
  have unit : (0 : ℚ) < (2 : ℚ) ^ place := by positivity
  have close := nearest_error (q / (2 : ℚ) ^ place)
  have scaled : roundAt place q - q =
      (nearest (q / (2 : ℚ) ^ place) - q / (2 : ℚ) ^ place) * (2 : ℚ) ^ place := by
    rw [roundAt, sub_mul, div_mul_cancel₀ _ unit.ne']
  rw [scaled, abs_mul, abs_of_pos unit, abs_sub_comm]
  calc
    |q / (2 : ℚ) ^ place - nearest (q / (2 : ℚ) ^ place)| * (2 : ℚ) ^ place ≤
        1 / 2 * (2 : ℚ) ^ place := mul_le_mul_of_nonneg_right close unit.le
    _ = (2 : ℚ) ^ place / 2 := by ring

/-- Rounding does not take a number below a whole number of units. -/
theorem units_le_round_at {units : ℤ} (bound : units * (2 : ℚ) ^ place ≤ q) :
    units * (2 : ℚ) ^ place ≤ roundAt place q := by
  have unit : (0 : ℚ) < (2 : ℚ) ^ place := by positivity
  have rounded := nearest_mono ((le_div_iff₀ unit).mpr bound)
  rw [nearest_int_cast] at rounded
  rw [roundAt]
  gcongr

/-- Nor does it take a number above one. -/
theorem round_at_le_units {units : ℤ} (bound : q ≤ units * (2 : ℚ) ^ place) :
    roundAt place q ≤ units * (2 : ℚ) ^ place := by
  have unit : (0 : ℚ) < (2 : ℚ) ^ place := by positivity
  have rounded := nearest_mono ((div_le_iff₀ unit).mpr bound)
  rw [nearest_int_cast] at rounded
  rw [roundAt]
  gcongr

/-- An integer is a whole number of units of any place behind the point. -/
theorem units_of_int (behind : place ≤ 0) (n : ℤ) :
    ∃ units : ℤ, (n : ℚ) = units * (2 : ℚ) ^ place := by
  refine ⟨n * 2 ^ (-place).toNat, ?_⟩
  have opposite : (2 : ℚ) ^ (-place).toNat = ((2 : ℚ) ^ place)⁻¹ := by
    rw [← zpow_natCast, Int.toNat_of_nonneg (by omega), zpow_neg]
  push_cast
  rw [opposite, mul_assoc, inv_mul_cancel₀ (by positivity), mul_one]

/-! ### The nearest double -/

/-- A ratio and the double nearest to it: the ratio has 53 digits before a place, and the double is
the nearest number of units of this place, or infinite where the place lies too high. -/
inductive Nearest (negative : Bool) (ratio : ℚ) : Binary64 → Prop
  | finite {mantissa : ℕ} {exponent place : ℤ} (low : (2 : ℚ) ^ (52 : ℤ) ≤ ratio / (2 : ℚ) ^ place)
      (high : ratio / (2 : ℚ) ^ place < (2 : ℚ) ^ (53 : ℤ))
      (units : (mantissa : ℚ) * (2 : ℚ) ^ exponent = roundAt place ratio) :
      Nearest negative ratio (.finite negative mantissa exponent)
  | infinite {place : ℤ} (low : (2 : ℚ) ^ (52 : ℤ) ≤ ratio / (2 : ℚ) ^ place)
      (beyond : 970 ≤ place) : Nearest negative ratio (.infinite negative)

theorem of_ratio_nearest (negative : Bool) (nonzero : numerator ≠ 0) (positive : 0 < denominator)
    (large : (2 : ℚ) ^ (-1000 : ℤ) ≤ (numerator : ℚ) / denominator) :
    Nearest negative ((numerator : ℚ) / denominator) (ofRatio negative numerator denominator) := by
  rw [ofRatio, if_neg nonzero]
  extract_lets guess scaled fits place
  have fitting : fits guess = true ↔
      (numerator : ℚ) / denominator / (2 : ℚ) ^ guessedPlace numerator denominator < 2 ^ 53 := by
    simp only [fits, scaled, decide_eq_true_eq]
    exact scaled_lt_iff positive guess
  obtain ⟨least, below⟩ : (2 : ℚ) ^ (52 : ℤ) ≤ (numerator : ℚ) / denominator / (2 : ℚ) ^ place ∧
      (numerator : ℚ) / denominator / (2 : ℚ) ^ place < (2 : ℚ) ^ (53 : ℤ) :=
    place_bounds nonzero positive large fitting rfl
  -- the pairs are taken apart by `split`: simplifying them would compute with the bound `2 ^ 53`
  split
  rename_i high low scaledTo
  obtain ⟨rfl, rfl⟩ := Prod.mk.inj scaledTo
  have positiveScaled : 0 < denominator * power 2 place.toNat := by
    simp only [power_eq]
    positivity
  extract_lets units
  have rounded : (units : ℚ) = nearest ((numerator : ℚ) / denominator / (2 : ℚ) ^ place) := by
    rw [← scaled_ratio, nearest_div _ _ positiveScaled, Int.cast_natCast]
  split
  rename_i mantissa exponent carry
  have value : (mantissa : ℚ) * (2 : ℚ) ^ exponent =
      roundAt place ((numerator : ℚ) / denominator) ∧ exponent ≤ place + 1 := by
    rw [roundAt, ← rounded]
    by_cases carried : units = power 2 53
    · rw [if_pos carried] at carry
      obtain ⟨rfl, rfl⟩ := Prod.mk.inj carry
      rw [carried, zpow_add_one₀ (by norm_num)]
      simp only [power_eq]
      push_cast
      exact ⟨by ring, le_rfl⟩
    · rw [if_neg carried] at carry
      obtain ⟨rfl, rfl⟩ := Prod.mk.inj carry
      exact ⟨rfl, by omega⟩
  split_ifs with beyond
  · exact .infinite least (by omega)
  · exact .finite least below value.1

end SpreadWatch.Binary64
