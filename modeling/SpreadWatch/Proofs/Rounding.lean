import Mathlib
import SpreadWatch.Rounding

/-!
Decimal digits, and half-even rounding of rationals. `nearest` is the integer next to a rational,
and is pinned down by two facts: it is at most one half away, and it is even where it is exactly one
half away. The integer routine `roundHalfEven` computes it, and it cannot tell apart two rationals
between the same multiples of one half.
-/

namespace SpreadWatch

/-! ### Digits -/

@[simp] theorem power_eq (base count : ℕ) : power base count = base ^ count := rfl

theorem digit_count_pos (n : ℕ) : 0 < digitCount n := by
  rw [digitCount]
  split <;> omega

theorem lt_pow_digit_count (n : ℕ) : n < 10 ^ digitCount n := by
  induction n using digitCount.induct with
  | case1 n small =>
      rw [digitCount, if_pos small]
      simpa using small
  | case2 n large induction =>
      rw [digitCount, if_neg large, pow_succ]
      omega

theorem pow_digit_count_le {n : ℕ} (nonzero : n ≠ 0) : 10 ^ (digitCount n - 1) ≤ n := by
  induction n using digitCount.induct with
  | case1 n small =>
      rw [digitCount, if_pos small]
      simpa using Nat.one_le_iff_ne_zero.mpr nonzero
  | case2 n large induction =>
      have tail := induction (by omega)
      have digits := digit_count_pos (n / 10)
      rw [digitCount, if_neg large, Nat.add_sub_cancel]
      rw [show digitCount (n / 10) = digitCount (n / 10) - 1 + 1 by omega, pow_succ]
      omega

theorem digit_count_le_iff {n count : ℕ} (positive : 0 < count) :
    digitCount n ≤ count ↔ n < 10 ^ count := by
  constructor
  · intro few
    exact (lt_pow_digit_count n).trans_le (Nat.pow_le_pow_right (by omega) few)
  · intro small
    by_cases zero : n = 0
    · subst zero
      rw [digitCount, if_pos (by omega)]
      exact positive
    · have digits := digit_count_pos n
      have between := (pow_digit_count_le zero).trans_lt small
      have exponents := (Nat.pow_lt_pow_iff_right (by omega)).mp between
      omega

/-! ### The nearest integer -/

/-- The integer nearest to a rational; of two equally near ones the even one. -/
def nearest (q : ℚ) : ℤ :=
  if q - ⌊q⌋ < 1 / 2 then ⌊q⌋
  else if 1 / 2 < q - ⌊q⌋ then ⌊q⌋ + 1
  else ⌊q⌋ + ⌊q⌋ % 2

theorem nearest_error (q : ℚ) : |q - nearest q| ≤ 1 / 2 := by
  have lower := Int.floor_le q
  have upper := Int.lt_floor_add_one q
  have parity : (0 : ℚ) ≤ (⌊q⌋ % 2 : ℤ) ∧ ((⌊q⌋ % 2 : ℤ) : ℚ) ≤ 1 := by
    constructor <;> norm_cast <;> omega
  unfold nearest
  rw [abs_le]
  split_ifs <;> push_cast at parity ⊢ <;> constructor <;> linarith

theorem nearest_even_of_tie {q : ℚ} (tie : |q - nearest q| = 1 / 2) : Even (nearest q) := by
  have lower := Int.floor_le q
  have upper := Int.lt_floor_add_one q
  unfold nearest at tie ⊢
  split_ifs at tie ⊢ with below above
  · rw [abs_of_nonneg (by linarith)] at tie
    linarith
  · push_cast at tie
    rw [abs_of_nonpos (by linarith)] at tie
    linarith
  · rw [Int.even_iff]
    omega

/-- Being near, and even at a tie, leaves only one integer. -/
theorem nearest_eq {q : ℚ} {n : ℤ} (close : |q - n| ≤ 1 / 2) (even : |q - n| = 1 / 2 → Even n) :
    nearest q = n := by
  by_contra different
  have closeNearest := nearest_error q
  have apart : (1 : ℚ) ≤ |(nearest q : ℚ) - n| := by
    have integers : 1 ≤ |nearest q - n| := Int.one_le_abs (sub_ne_zero.mpr different)
    exact_mod_cast integers
  have through : |(nearest q : ℚ) - n| ≤ |q - nearest q| + |q - n| := by
    calc
      |(nearest q : ℚ) - n| = |(nearest q - q) + (q - n)| := by ring_nf
      _ ≤ |nearest q - q| + |q - n| := abs_add_le _ _
      _ = |q - nearest q| + |q - n| := by rw [abs_sub_comm]
  have bothEven : Even (nearest q) ∧ Even n :=
    ⟨nearest_even_of_tie (by linarith), even (by linarith)⟩
  have stepTwo : Even (nearest q - n) := bothEven.1.sub bothEven.2
  have atMostOne : |nearest q - n| ≤ 1 := by
    have rationals : |(nearest q : ℚ) - n| ≤ 1 := by linarith
    exact_mod_cast rationals
  have positive := Int.one_le_abs (sub_ne_zero.mpr different)
  obtain ⟨half, twice⟩ := stepTwo
  rw [abs_le] at atMostOne
  rcases abs_choice (nearest q - n) with same | same <;> omega

@[simp] theorem nearest_int_cast (n : ℤ) : nearest n = n :=
  nearest_eq (by norm_num) (by norm_num)

@[simp] theorem nearest_zero : nearest 0 = 0 := by
  simpa using nearest_int_cast 0

theorem nearest_neg (q : ℚ) : nearest (-q) = -nearest q := by
  apply nearest_eq
  · have close := nearest_error q
    rw [abs_sub_comm] at close
    convert close using 2
    push_cast
    ring
  · intro tie
    refine (nearest_even_of_tie ?_).neg
    rw [abs_sub_comm, ← tie]
    congr 1
    push_cast
    ring

theorem nearest_mono {p q : ℚ} (ordered : p ≤ q) : nearest p ≤ nearest q := by
  by_contra above
  have closeLow := abs_le.mp (nearest_error p)
  have closeHigh := abs_le.mp (nearest_error q)
  have step : (nearest q : ℚ) + 1 ≤ nearest p := by
    exact_mod_cast (not_le.mp above)
  -- Both errors are exactly one half, so both neighbours would be even.
  have same : p = q := by linarith
  exact above (by rw [same])

/-- Below one half lies only zero, and above it rounding at most doubles. -/
theorem nearest_le_double {q : ℚ} (nonneg : 0 ≤ q) : (nearest q : ℚ) ≤ 2 * q := by
  by_cases small : q ≤ 1 / 2
  · have zero : nearest q = 0 := by
      apply nearest_eq
      · rw [Int.cast_zero, sub_zero, abs_of_nonneg nonneg]
        exact small
      · intro _
        exact Even.zero
    rw [zero]
    push_cast
    linarith
  · have close := abs_le.mp (nearest_error q)
    linarith

theorem nearest_nonneg {q : ℚ} (nonneg : 0 ≤ q) : 0 ≤ nearest q := by
  simpa using nearest_mono nonneg

theorem nearest_eq_zero_iff (q : ℚ) : nearest q = 0 ↔ |q| ≤ 1 / 2 := by
  constructor
  · intro zero
    simpa [zero] using nearest_error q
  · intro small
    exact nearest_eq (by simpa using small) (fun _ => Even.zero)

theorem nearest_div (numerator denominator : ℕ) (positive : 0 < denominator) :
    nearest ((numerator : ℚ) / denominator) = roundHalfEven numerator denominator := by
  have split := Nat.div_add_mod numerator denominator
  have bound := Nat.mod_lt numerator positive
  have positiveRat : (0 : ℚ) < denominator := by exact_mod_cast positive
  have floorEq : ⌊(numerator : ℚ) / denominator⌋ = ((numerator / denominator : ℕ) : ℤ) := by
    exact_mod_cast Rat.floor_natCast_div_natCast numerator denominator
  have fraction : (numerator : ℚ) / denominator - ((numerator / denominator : ℕ) : ℤ) =
      ((numerator % denominator : ℕ) : ℚ) / denominator := by
    rw [Int.cast_natCast, sub_eq_iff_eq_add, div_add' _ _ _ positiveRat.ne']
    congr 1
    rw [mul_comm]
    exact_mod_cast (by rw [Nat.add_comm]; exact split.symm)
  have belowHalf : ((numerator % denominator : ℕ) : ℚ) / denominator < 1 / 2 ↔
      2 * (numerator % denominator) < denominator := by
    rw [div_lt_div_iff₀ positiveRat two_pos, one_mul, mul_comm]
    exact_mod_cast Iff.rfl
  have aboveHalf : 1 / 2 < ((numerator % denominator : ℕ) : ℚ) / denominator ↔
      denominator < 2 * (numerator % denominator) := by
    rw [div_lt_div_iff₀ two_pos positiveRat, one_mul, mul_comm]
    exact_mod_cast Iff.rfl
  unfold nearest roundHalfEven
  rw [floorEq, fraction]
  simp only [belowHalf, aboveHalf]
  split_ifs with below above even <;> push_cast <;> omega

/-- Two rationals strictly between the same multiples of one half have the same nearest integer. -/
theorem nearest_eq_of_cell {p q : ℚ} {k : ℤ} (lowP : (k : ℚ) / 2 < p) (highP : p < (k + 1) / 2)
    (lowQ : (k : ℚ) / 2 < q) (highQ : q < (k + 1) / 2) : nearest p = nearest q := by
  obtain ⟨n, even | odd⟩ := Int.even_or_odd' k
  · have bounds : ∀ r : ℚ, (k : ℚ) / 2 < r → r < (k + 1) / 2 → nearest r = n := by
      intro r low high
      rw [even] at low high
      push_cast at low high
      refine nearest_eq (abs_le.mpr ⟨by linarith, by linarith⟩) fun tie => ?_
      rw [abs_of_pos (by linarith)] at tie
      linarith
    rw [bounds p lowP highP, bounds q lowQ highQ]
  · have bounds : ∀ r : ℚ, (k : ℚ) / 2 < r → r < (k + 1) / 2 → nearest r = n + 1 := by
      intro r low high
      rw [odd] at low high
      push_cast at low high
      refine nearest_eq (abs_le.mpr ⟨by push_cast; linarith, by push_cast; linarith⟩) fun tie => ?_
      push_cast at tie
      rw [abs_of_neg (by linarith)] at tie
      linarith
    rw [bounds p lowP highP, bounds q lowQ highQ]

/-- A fraction with denominator `d` that is no tie keeps its nearest integer when it is moved by
less than half a unit of its denominator: no tie lies nearer to it than that. -/
theorem nearest_eq_of_close {n d : ℤ} (positive : 0 < d) {r : ℚ}
    (close : |r - n / d| * (2 * d) < 1) (untied : ¬ |(n : ℚ) / d - nearest (n / d)| = 1 / 2) :
    nearest r = nearest ((n : ℚ) / d) := by
  set m := nearest ((n : ℚ) / d) with named
  have positiveRat : (0 : ℚ) < d := by exact_mod_cast positive
  have strict : |(n : ℚ) / d - m| < 1 / 2 := lt_of_le_of_ne (nearest_error _) untied
  -- In units of `1 / (2 d)` both the distance and one half are integers.
  have units : |(n : ℚ) / d - m| * (2 * d) = (|2 * (n - m * d)| : ℤ) := by
    have doubled : (0 : ℚ) < 2 * d := by linarith
    calc
      |(n : ℚ) / d - m| * (2 * d) = |((n : ℚ) / d - m) * (2 * d)| := by
        rw [abs_mul, abs_of_pos doubled]
      _ = |2 * ((n : ℚ) - m * d)| := by
        congr 1
        field_simp
      _ = (|2 * (n - m * d)| : ℤ) := by push_cast; rfl
  have room : |(n : ℚ) / d - m| * (2 * d) ≤ d - 1 := by
    have below : |(n : ℚ) / d - m| * (2 * d) < 1 / 2 * (2 * d) :=
      mul_lt_mul_of_pos_right strict (by linarith)
    rw [units] at below ⊢
    have integers : |2 * (n - m * d)| < d := by
      have rational : ((|2 * (n - m * d)| : ℤ) : ℚ) < d := by linarith
      exact_mod_cast rational
    exact_mod_cast Int.le_sub_one_of_lt integers
  have through : |r - m| ≤ |r - n / d| + |(n : ℚ) / d - m| := abs_sub_le r (n / d) m
  have total : |r - m| * (2 * d) < d := by
    have product : |r - m| * (2 * d) ≤ (|r - n / d| + |(n : ℚ) / d - m|) * (2 * d) :=
      mul_le_mul_of_nonneg_right through (by linarith)
    linarith [add_mul |r - n / d| |(n : ℚ) / d - m| (2 * d : ℚ)]
  have half : |r - m| < 1 / 2 := by
    by_contra above
    have least : 1 / 2 * (2 * d) ≤ |r - m| * (2 * d) :=
      mul_le_mul_of_nonneg_right (not_lt.mp above) (by linarith)
    linarith
  exact nearest_eq half.le fun tie => absurd tie half.ne

end SpreadWatch
