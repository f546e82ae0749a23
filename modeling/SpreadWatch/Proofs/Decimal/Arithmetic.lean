import SpreadWatch.Proofs.Decimal.Rounded

/-!
Sums, differences, products, quotients and scalings of finite decimals. Each is the exact rational
result, rounded once. A sum whose smaller part lies below every digit that can show, and a quotient
that does not come out even, are formed from a stand-in that rounds like the exact result.
-/

namespace SpreadWatch.Decimal.Context

variable {c : Context}

theorem Rounds.congr {v w : ℚ} {result : Except Signal Decimal} (rounds : c.Rounds w result)
    (same : c.round v = c.round w) : c.Rounds v result := by
  rw [Rounds, same]
  exact rounds

/-! ### Stand-ins -/

/-- Two numbers between the same multiples of five units, all of whose units lie below the last
place kept, round alike. -/
theorem round_eq_of_cell (sane : c.Sane) {p q : ℚ} {j s : ℤ}
    (large : (10 : ℚ) ^ c.precision ≤ 5 * j) (lowP : 5 * (j : ℚ) < p) (highP : p < 5 * j + 5)
    (lowQ : 5 * (j : ℚ) < q) (highQ : q < 5 * j + 5) :
    c.round (p * 10 ^ s) = c.round (q * 10 ^ s) := by
  have digits := sane.digits
  have unit : (0 : ℚ) < 10 ^ s := by positivity
  have start : (0 : ℚ) < 5 * j := lt_of_lt_of_le (by positivity) large
  have positiveP : 0 < p * 10 ^ s := mul_pos (start.trans lowP) unit
  have positiveQ : 0 < q * 10 ^ s := mul_pos (start.trans lowQ) unit
  -- A power of ten is a multiple of five, so none lies strictly between the two bounds.
  have decade : ∀ (x y : ℚ) (i : ℤ), 5 * (j : ℚ) < y → x < 5 * j + 5 →
      (10 : ℚ) ^ i ≤ x * 10 ^ s → (10 : ℚ) ^ i ≤ y * 10 ^ s := by
    intro x y i low high reached
    have shifted : ∀ z : ℚ, (10 : ℚ) ^ i ≤ z * 10 ^ s ↔ (10 : ℚ) ^ (i - s) ≤ z := by
      intro z
      rw [zpow_sub₀ (by norm_num), div_le_iff₀ unit]
    rw [shifted] at reached ⊢
    by_cases small : i - s ≤ c.precision
    · calc
        (10 : ℚ) ^ (i - s) ≤ 10 ^ (c.precision : ℤ) := zpow_le_zpow_right₀ (by norm_num) small
        _ ≤ 5 * j := by simpa using large
        _ ≤ y := low.le
    · obtain ⟨t, named⟩ : ∃ t : ℕ, i - s = (t + 1 : ℕ) := ⟨(i - s - 1).toNat, by omega⟩
      rw [named, zpow_natCast] at reached ⊢
      have below : 10 ^ (t + 1) < 5 * j + 5 := by
        have rational : ((10 ^ (t + 1) : ℤ) : ℚ) < (5 * j + 5 : ℤ) := by
          push_cast
          linarith
        exact_mod_cast rational
      have multiple : (10 : ℤ) ^ (t + 1) = 5 * (2 * 10 ^ t) := by ring
      have within : (10 : ℤ) ^ (t + 1) ≤ 5 * j := by omega
      have cast : (10 : ℚ) ^ (t + 1) ≤ 5 * j := by exact_mod_cast within
      exact cast.trans low.le
  have logs : Int.log 10 (p * 10 ^ s) = Int.log 10 (q * 10 ^ s) := by
    apply le_antisymm
    · rw [← Int.zpow_le_iff_le_log (by norm_num) positiveQ]
      exact_mod_cast decade p q _ lowQ highP
        (by exact_mod_cast Int.zpow_log_le_self (b := 10) (by norm_num) positiveP)
    · rw [← Int.zpow_le_iff_le_log (by norm_num) positiveP]
      exact_mod_cast decade q p _ lowP highQ
        (by exact_mod_cast Int.zpow_log_le_self (b := 10) (by norm_num) positiveQ)
  have places : c.place (p * 10 ^ s) = c.place (q * 10 ^ s) := by
    rw [place, place, abs_of_pos positiveP, abs_of_pos positiveQ, logs]
  have high : s + 1 ≤ c.place (q * 10 ^ s) := by
    have reached : ((10 : ℕ) : ℚ) ^ (s + c.precision) ≤ q * 10 ^ s := by
      rw [Nat.cast_ofNat, zpow_add₀ (by norm_num), zpow_natCast, mul_comm]
      exact mul_le_mul_of_nonneg_right (large.trans lowQ.le) unit.le
    have decadeQ := (Int.zpow_le_iff_le_log (by norm_num) positiveQ).mp reached
    rw [place, abs_of_pos positiveQ]
    omega
  obtain ⟨d, named⟩ : ∃ d : ℕ, c.place (q * 10 ^ s) = s + (d + 1 : ℕ) :=
    ⟨(c.place (q * 10 ^ s) - s - 1).toNat, by omega⟩
  -- Half a unit of the last place kept is a multiple of five, so the cell holds no tie.
  set k := j / 10 ^ d with cell
  have scaled : ∀ z : ℚ, 5 * (j : ℚ) < z → z < 5 * j + 5 →
      (k : ℚ) / 2 < z * 10 ^ s / 10 ^ (s + (d + 1 : ℕ)) ∧
        z * 10 ^ s / 10 ^ (s + (d + 1 : ℕ)) < (k + 1) / 2 := by
    intro z low highZ
    have cancelled : z * 10 ^ s / (10 : ℚ) ^ (s + ((d + 1 : ℕ) : ℤ)) = z / (10 * 10 ^ d) := by
      rw [zpow_add₀ (by norm_num), zpow_natCast, pow_succ]
      field_simp
    have lower : k * 10 ^ d ≤ j := Int.ediv_mul_le j (by positivity)
    have upper : j + 1 ≤ (k + 1) * 10 ^ d := Int.lt_ediv_add_one_mul_self j (by positivity)
    have lowerRat : (k : ℚ) * 10 ^ d ≤ j := by exact_mod_cast lower
    have upperRat : (j : ℚ) + 1 ≤ (k + 1) * 10 ^ d := by exact_mod_cast upper
    have width : (0 : ℚ) < 10 * 10 ^ d := by positivity
    rw [cancelled, div_lt_div_iff₀ two_pos width, div_lt_div_iff₀ width two_pos]
    constructor <;> linarith
  obtain ⟨lowCellP, highCellP⟩ := scaled p lowP highP
  obtain ⟨lowCellQ, highCellQ⟩ := scaled q lowQ highQ
  rw [round, round, places, named, nearest_eq_of_cell lowCellP highCellP lowCellQ highCellQ]

/-- Next to a multiple of ten with more digits than the precision, the distance does not show. -/
theorem round_beside (sane : c.Sane) {base : ℕ} (tens : 10 ∣ base)
    (large : 10 ^ (c.precision + 1) ≤ base) {x y : ℚ} (positiveX : 0 < x) (smallX : x < 5)
    (positiveY : 0 < y) (smallY : y < 5) (s : ℤ) :
    c.round ((base + x) * 10 ^ s) = c.round ((base + y) * 10 ^ s) ∧
      c.round ((base - x) * 10 ^ s) = c.round ((base - y) * 10 ^ s) := by
  obtain ⟨tenth, split⟩ := tens
  have room : (10 : ℚ) ^ c.precision + 5 ≤ base := by
    have natural : 10 ^ c.precision + 5 ≤ base := by
      have power : 10 ^ (c.precision + 1) = 10 * 10 ^ c.precision := pow_succ' 10 c.precision
      have positive : 0 < 10 ^ c.precision := by positivity
      omega
    exact_mod_cast natural
  have above : (5 : ℚ) * ((2 * tenth : ℕ) : ℤ) = base := by
    rw [split]
    push_cast
    ring
  have below : (5 : ℚ) * ((2 * tenth - 1 : ℤ) : ℚ) = base - 5 := by
    rw [split]
    push_cast
    ring
  constructor
  · apply round_eq_of_cell sane (j := ((2 * tenth : ℕ) : ℤ)) <;> rw [above] <;> linarith
  · apply round_eq_of_cell sane (j := 2 * tenth - 1) <;> rw [below] <;> linarith

/-! ### Sums and differences -/

theorem to_rat_of_sum (sum place : ℤ) (negative : Bool)
    (sign : sum ≠ 0 → negative = decide (sum < 0)) :
    (finite negative sum.natAbs place).toRat = sum * 10 ^ place := by
  rw [to_rat_finite]
  by_cases zero : sum = 0
  · simp [zero]
  · rw [sign zero]
    have magnitude : ((sum.natAbs : ℕ) : ℚ) = |(sum : ℚ)| := by
      rw [Nat.cast_natAbs, Int.cast_abs]
    congr 1
    by_cases low : sum < 0
    · have lowRat : (sum : ℚ) < 0 := by exact_mod_cast low
      simp [low, magnitude, abs_of_neg lowRat]
    · have highRat : (0 : ℚ) ≤ sum := by exact_mod_cast not_lt.mp low
      simp [low, magnitude, abs_of_nonneg highRat]

def signFactor (negative : Bool) : ℚ := if negative then -1 else 1

theorem to_rat_finite_sign (negative : Bool) (coefficient : ℕ) (exponent : ℤ) :
    (finite negative coefficient exponent).toRat =
      signFactor negative * ((coefficient : ℚ) * 10 ^ exponent) := by
  rw [to_rat_finite, signFactor]
  cases negative <;> simp

theorem signed_cast (negative : Bool) (magnitude : ℕ) :
    ((signed negative magnitude : ℤ) : ℚ) = signFactor negative * magnitude := by
  cases negative <;> simp [signed, signFactor]

/-- The four choices of sign are the two of `round_beside` and their mirror images. -/
theorem round_beside_signed (sane : c.Sane) (n₁ n₂ : Bool) {base : ℕ} (tens : 10 ∣ base)
    (large : 10 ^ (c.precision + 1) ≤ base) {x y : ℚ} (positiveX : 0 < x) (smallX : x < 5)
    (positiveY : 0 < y) (smallY : y < 5) (s : ℤ) :
    c.round ((signFactor n₁ * base + signFactor n₂ * x) * 10 ^ s) =
      c.round ((signFactor n₁ * base + signFactor n₂ * y) * 10 ^ s) := by
  have beside := round_beside sane tens large positiveX smallX positiveY smallY s
  have mirror : ∀ z w : ℚ, c.round (z * 10 ^ s) = c.round (w * 10 ^ s) →
      c.round (-z * 10 ^ s) = c.round (-w * 10 ^ s) := by
    intro z w same
    rw [neg_mul, neg_mul, round_neg, round_neg, same]
  cases n₁ <;> cases n₂ <;> simp only [signFactor, Bool.false_eq_true, if_false, if_true]
  · simpa only [one_mul] using beside.1
  · simpa only [one_mul, neg_mul, ← sub_eq_add_neg] using beside.2
  · convert mirror _ _ beside.2 using 3 <;> ring
  · simpa only [neg_add, neg_mul, one_mul] using mirror _ _ beside.1

/-- A sum of units of one place, finished. A sum of zero is negative only if both parts are. -/
def finishSum (c : Context) (bothNegative : Bool) (sum place : ℤ) : Except Signal Decimal :=
  c.finish (if sum = 0 then bothNegative else decide (sum < 0)) sum.natAbs place

theorem finish_sum_rounds (sane : c.Sane) (bothNegative : Bool) (sum place : ℤ) :
    c.Rounds (sum * 10 ^ place) (c.finishSum bothNegative sum place) := by
  rw [← to_rat_of_sum sum place (if sum = 0 then bothNegative else decide (sum < 0))
    (fun nonzero => if_neg nonzero)]
  exact finish_rounds sane _ _ _

/-- The place below which the digits of a smaller part cannot show. -/
def floorPlace (c : Context) (c₁ : ℕ) (e₁ : ℤ) : ℤ :=
  e₁ - 1 + min 0 ((digitCount c₁ : ℤ) - c.precision - 1)

theorem add_aligned_far {c₁ c₂ : ℕ} {e₁ e₂ : ℤ} (n₁ n₂ : Bool)
    (far : c₁ ≠ 0 ∧ e₂ < e₁ ∧ e₂ + digitCount c₂ - 1 < c.floorPlace c₁ e₁) :
    c.addAligned n₁ c₁ e₁ n₂ c₂ e₂ = c.finishSum (n₁ && n₂)
      (signed n₁ (c₁ * 10 ^ (e₁ - c.floorPlace c₁ e₁).toNat) + signed n₂ (min c₂ 1))
      (c.floorPlace c₁ e₁) := by
  unfold floorPlace at far ⊢
  simp only [addAligned, if_pos far, if_neg far.1]
  rfl

theorem add_aligned_near {c₁ c₂ : ℕ} {e₁ e₂ : ℤ} (n₁ n₂ : Bool)
    (near : ¬ (c₁ ≠ 0 ∧ e₂ < e₁ ∧ e₂ + digitCount c₂ - 1 < c.floorPlace c₁ e₁)) :
    c.addAligned n₁ c₁ e₁ n₂ c₂ e₂ = c.finishSum (n₁ && n₂)
      (signed n₁ (if c₁ = 0 then 0 else c₁ * 10 ^ (e₁ - e₂).toNat) + signed n₂ c₂) e₂ := by
  unfold floorPlace at near
  simp only [addAligned, if_neg near]
  rfl

theorem scale_up (coefficient : ℕ) {exponent place : ℤ} (below : place ≤ exponent) :
    ((coefficient * 10 ^ (exponent - place).toNat : ℕ) : ℚ) * 10 ^ place =
      coefficient * 10 ^ exponent := by
  push_cast
  rw [mul_assoc, ← zpow_natCast, ← zpow_add₀ (by norm_num), Int.toNat_of_nonneg (by omega),
    Int.sub_add_cancel]

/-- The sum of a number and a smaller part far below it rounds like its stand-in, in which one unit
takes the place of that part. -/
theorem round_far_sum (sane : c.Sane) {c₁ c₂ : ℕ} {e₁ e₂ : ℤ} (n₁ n₂ : Bool) (nonzero : c₁ ≠ 0)
    (present : c₂ ≠ 0) (far : e₂ + digitCount c₂ - 1 < c.floorPlace c₁ e₁) :
    c.round ((finite n₁ c₁ e₁).toRat + (finite n₂ c₂ e₂).toRat) =
      c.round ((signed n₁ (c₁ * 10 ^ (e₁ - c.floorPlace c₁ e₁).toNat) + signed n₂ 1 : ℤ) *
        10 ^ c.floorPlace c₁ e₁) := by
  set floor := c.floorPlace c₁ e₁ with named
  have below : floor + 1 ≤ e₁ := by
    rw [named, floorPlace]
    omega
  set base := c₁ * 10 ^ (e₁ - floor).toNat with baseNamed
  have tens : 10 ∣ base := (dvd_pow_self 10 (by omega)).mul_left c₁
  have large : 10 ^ (c.precision + 1) ≤ base := by
    calc
      10 ^ (c.precision + 1) ≤ 10 ^ (digitCount c₁ - 1 + (e₁ - floor).toNat) := by
        apply Nat.pow_le_pow_right (by norm_num)
        have digits := digit_count_pos c₁
        rw [named, floorPlace]
        omega
      _ = 10 ^ (digitCount c₁ - 1) * 10 ^ (e₁ - floor).toNat := pow_add _ _ _
      _ ≤ base := Nat.mul_le_mul_right _ (pow_digit_count_le nonzero)
  have unit : (0 : ℚ) < 10 ^ floor := by positivity
  set part : ℚ := c₂ * 10 ^ e₂ / 10 ^ floor with partNamed
  have positive : 0 < part := by positivity
  have small : part < 1 := by
    rw [partNamed, div_lt_one unit]
    exact (magnitude_lt c₂ e₂).trans_le (zpow_le_zpow_right₀ (by norm_num) (by omega))
  have first : (c₁ : ℚ) * 10 ^ e₁ = base * 10 ^ floor :=
    (scale_up c₁ (by omega)).symm
  have second : (c₂ : ℚ) * 10 ^ e₂ = part * 10 ^ floor := by
    rw [partNamed, div_mul_cancel₀ _ unit.ne']
  have beside := round_beside_signed sane n₁ n₂ tens large positive (by linarith) one_pos
    (by norm_num) floor
  rw [to_rat_finite_sign, to_rat_finite_sign, first, second]
  push_cast [signed_cast]
  rw [← mul_assoc, ← mul_assoc, ← add_mul]
  simpa using beside

theorem add_aligned_rounds (sane : c.Sane) (n₁ : Bool) (c₁ : ℕ) {e₁ : ℤ} (n₂ : Bool) (c₂ : ℕ)
    {e₂ : ℤ} (aligned : e₂ ≤ e₁) :
    c.Rounds ((finite n₁ c₁ e₁).toRat + (finite n₂ c₂ e₂).toRat)
      (c.addAligned n₁ c₁ e₁ n₂ c₂ e₂) := by
  have exactSum : ∀ (h l : ℕ) (p : ℤ), (h : ℚ) * 10 ^ p = c₁ * 10 ^ e₁ →
      (l : ℚ) * 10 ^ p = c₂ * 10 ^ e₂ →
      (finite n₁ c₁ e₁).toRat + (finite n₂ c₂ e₂).toRat =
        ((signed n₁ h + signed n₂ l : ℤ) : ℚ) * 10 ^ p := by
    intro h l p first second
    rw [to_rat_finite_sign, to_rat_finite_sign, ← first, ← second]
    push_cast [signed_cast]
    ring
  by_cases far : c₁ ≠ 0 ∧ e₂ < e₁ ∧ e₂ + digitCount c₂ - 1 < c.floorPlace c₁ e₁
  · rw [add_aligned_far n₁ n₂ far]
    have below : c.floorPlace c₁ e₁ ≤ e₁ := by
      rw [floorPlace]
      omega
    by_cases absent : c₂ = 0
    · rw [exactSum _ 0 _ (scale_up c₁ below) (by simp [absent]), absent]
      exact finish_sum_rounds sane _ _ _
    · rw [show min c₂ 1 = 1 by omega]
      exact (finish_sum_rounds sane _ _ _).congr (round_far_sum sane n₁ n₂ far.1 absent far.2.2)
  · rw [add_aligned_near n₁ n₂ far]
    rw [exactSum (if c₁ = 0 then 0 else c₁ * 10 ^ (e₁ - e₂).toNat) c₂ e₂ ?_ rfl]
    · exact finish_sum_rounds sane _ _ _
    · split_ifs with zero
      · simp [zero]
      · exact scale_up c₁ aligned

theorem add_rounds (sane : c.Sane) {a b : Decimal} (finiteA : a.isFinite = true)
    (finiteB : b.isFinite = true) : c.Rounds (a.toRat + b.toRat) (c.add a b) := by
  cases a <;> cases b <;> simp only [isFinite, Bool.false_eq_true] at finiteA finiteB
  rename_i n₁ c₁ e₁ n₂ c₂ e₂
  simp only [add, nanResult?]
  split_ifs with below
  · rw [add_comm]
    exact add_aligned_rounds sane n₂ c₂ n₁ c₁ below.le
  · exact add_aligned_rounds sane n₁ c₁ n₂ c₂ (not_lt.mp below)

theorem is_finite_flip (d : Decimal) : d.flip.isFinite = d.isFinite := by
  cases d <;> rfl

theorem subtract_rounds (sane : c.Sane) {a b : Decimal} (finiteA : a.isFinite = true)
    (finiteB : b.isFinite = true) : c.Rounds (a.toRat - b.toRat) (c.subtract a b) := by
  have flipped := add_rounds sane finiteA ((is_finite_flip b).trans finiteB)
  rw [to_rat_flip, ← sub_eq_add_neg] at flipped
  cases a <;> cases b <;> simp only [isFinite, Bool.false_eq_true] at finiteA finiteB
  simpa only [subtract, nanResult?] using flipped

/-! ### Products -/

theorem multiply_rounds (sane : c.Sane) {a b : Decimal} (finiteA : a.isFinite = true)
    (finiteB : b.isFinite = true) : c.Rounds (a.toRat * b.toRat) (c.multiply a b) := by
  cases a <;> cases b <;> simp only [isFinite, Bool.false_eq_true] at finiteA finiteB
  rename_i n₁ c₁ e₁ n₂ c₂ e₂
  have value : (finite n₁ c₁ e₁).toRat * (finite n₂ c₂ e₂).toRat =
      (finite (n₁ ^^ n₂) (c₁ * c₂) (e₁ + e₂)).toRat := by
    have sign : signFactor (n₁ ^^ n₂) = signFactor n₁ * signFactor n₂ := by
      cases n₁ <;> cases n₂ <;> simp [signFactor]
    simp only [to_rat_finite_sign, sign, zpow_add₀ (show (10 : ℚ) ≠ 0 by norm_num)]
    push_cast
    ring
  rw [value]
  simp only [multiply, nanResult?]
  exact finish_rounds sane _ _ _

/-! ### Quotients -/

/-- As many zeros are stripped as the number ends with, at most. -/
theorem pow_trailing_zeros_dvd (bound n : ℕ) : 10 ^ trailingZeros bound n ∣ n := by
  induction bound generalizing n with
  | zero => simp [trailingZeros]
  | succ bound induction =>
      rw [trailingZeros]
      split_ifs with tens
      · have divided := Nat.mul_dvd_mul_left 10 (induction (n / 10))
        rwa [← pow_succ', Nat.mul_div_cancel' (Nat.dvd_of_mod_eq_zero tens)] at divided
      · simp

/-- A quotient that does not come out even has a stand-in between the same multiples of five. -/
theorem round_quotient (sane : c.Sane) {numerator denominator : ℕ} (positive : 0 < denominator)
    (large : 10 ^ c.precision * denominator ≤ numerator) (uneven : numerator % denominator ≠ 0)
    (s : ℤ) :
    c.round ((numerator : ℚ) / denominator * 10 ^ s) =
      c.round (((if numerator / denominator % 5 = 0 then numerator / denominator + 1
        else numerator / denominator : ℕ) : ℚ) * 10 ^ s) := by
  have digits := sane.digits
  have split := Nat.div_add_mod numerator denominator
  have bound := Nat.mod_lt numerator positive
  set quotient := numerator / denominator with named
  have positiveRat : (0 : ℚ) < denominator := by exact_mod_cast positive
  have above : (quotient : ℚ) < (numerator : ℚ) / denominator := by
    rw [lt_div_iff₀ positiveRat]
    have natural : quotient * denominator < numerator := by
      rw [mul_comm]
      omega
    exact_mod_cast natural
  have below : (numerator : ℚ) / denominator < quotient + 1 := by
    rw [div_lt_iff₀ positiveRat]
    have natural : numerator < (quotient + 1) * denominator := by
      rw [add_mul, mul_comm quotient]
      omega
    exact_mod_cast natural
  have reached : 10 ^ c.precision ≤ 5 * (quotient / 5) := by
    obtain ⟨count, succ⟩ : ∃ count, c.precision = count + 1 := ⟨c.precision - 1, by omega⟩
    have whole : 10 ^ c.precision ≤ quotient := (Nat.le_div_iff_mul_le positive).mpr large
    have fives : 10 ^ c.precision = 5 * (2 * 10 ^ count) := by
      rw [succ]
      ring
    omega
  have fifth := Nat.div_add_mod quotient 5
  have remainder := Nat.mod_lt quotient (show 0 < 5 by norm_num)
  have start : (5 : ℚ) * ((quotient / 5 : ℕ) : ℤ) ≤ quotient := by
    rw [Int.cast_natCast]
    exact_mod_cast (by omega : 5 * (quotient / 5) ≤ quotient)
  have stop : (quotient : ℚ) + 1 ≤ 5 * ((quotient / 5 : ℕ) : ℤ) + 5 := by
    rw [Int.cast_natCast]
    exact_mod_cast (by omega : quotient + 1 ≤ 5 * (quotient / 5) + 5)
  apply round_eq_of_cell sane (j := ((quotient / 5 : ℕ) : ℤ))
  · rw [Int.cast_natCast]
    exact_mod_cast reached
  · linarith
  · linarith
  · rw [Int.cast_natCast]
    split_ifs with even
    · exact_mod_cast (by omega : 5 * (quotient / 5) < quotient + 1)
    · exact_mod_cast (by omega : 5 * (quotient / 5) < quotient)
  · rw [Int.cast_natCast]
    split_ifs with even
    · exact_mod_cast (by omega : quotient + 1 < 5 * (quotient / 5) + 5)
    · exact_mod_cast (by omega : quotient < 5 * (quotient / 5) + 5)

/-- How many zeros the numerator of a quotient gains over its denominator. -/
def shiftOf (c : Context) (c₁ c₂ : ℕ) : ℤ :=
  (digitCount c₂ : ℤ) - digitCount c₁ + c.precision + 1

theorem divide_finite_even (negative : Bool) {c₁ c₂ numerator denominator : ℕ} {shift : ℤ}
    (e₁ e₂ : ℤ) (shiftNamed : shift = c.shiftOf c₁ c₂)
    (numeratorNamed : numerator = c₁ * 10 ^ shift.toNat)
    (denominatorNamed : denominator = c₂ * 10 ^ (-shift).toNat)
    (even : numerator % denominator = 0) :
    c.divideFinite negative c₁ e₁ c₂ e₂ =
      c.finish negative
        (numerator / denominator / 10 ^ trailingZeros shift.toNat (numerator / denominator))
        (e₁ - e₂ - shift + trailingZeros shift.toNat (numerator / denominator)) := by
  subst shiftNamed numeratorNamed denominatorNamed
  simp only [divideFinite, power_eq]
  exact if_pos even

theorem divide_finite_uneven (negative : Bool) {c₁ c₂ numerator denominator : ℕ} {shift : ℤ}
    (e₁ e₂ : ℤ) (shiftNamed : shift = c.shiftOf c₁ c₂)
    (numeratorNamed : numerator = c₁ * 10 ^ shift.toNat)
    (denominatorNamed : denominator = c₂ * 10 ^ (-shift).toNat)
    (uneven : numerator % denominator ≠ 0) :
    c.divideFinite negative c₁ e₁ c₂ e₂ =
      c.finish negative (if numerator / denominator % 5 = 0 then numerator / denominator + 1
        else numerator / denominator) (e₁ - e₂ - shift) := by
  subst shiftNamed numeratorNamed denominatorNamed
  simp only [divideFinite, power_eq]
  exact if_neg uneven

theorem divide_finite_rounds (sane : c.Sane) (negative : Bool) {c₁ c₂ : ℕ} (nonzero₁ : c₁ ≠ 0)
    (nonzero₂ : c₂ ≠ 0) (e₁ e₂ : ℤ) :
    c.Rounds (signFactor negative * ((c₁ : ℚ) * 10 ^ e₁ / (c₂ * 10 ^ e₂)))
      (c.divideFinite negative c₁ e₁ c₂ e₂) := by
  obtain ⟨shift, shiftNamed⟩ : ∃ shift, shift = c.shiftOf c₁ c₂ := ⟨_, rfl⟩
  obtain ⟨numerator, numeratorNamed⟩ : ∃ numerator, numerator = c₁ * 10 ^ shift.toNat := ⟨_, rfl⟩
  obtain ⟨denominator, denominatorNamed⟩ :
      ∃ denominator, denominator = c₂ * 10 ^ (-shift).toNat := ⟨_, rfl⟩
  have positive : 0 < denominator := by
    rw [denominatorNamed]
    positivity
  have shifted : (10 : ℚ) ^ shift.toNat = 10 ^ shift * 10 ^ (-shift).toNat := by
    rw [← zpow_natCast, ← zpow_natCast, ← zpow_add₀ (by norm_num)]
    congr 1
    omega
  have value : (c₁ : ℚ) * 10 ^ e₁ / (c₂ * 10 ^ e₂) =
      (numerator : ℚ) / denominator * 10 ^ (e₁ - e₂ - shift) := by
    rw [numeratorNamed, denominatorNamed]
    push_cast
    rw [shifted, zpow_sub₀ (by norm_num), zpow_sub₀ (by norm_num)]
    field_simp
  have large : 10 ^ c.precision * denominator ≤ numerator := by
    have digits₁ := digit_count_pos c₁
    calc
      10 ^ c.precision * denominator ≤
          10 ^ c.precision * (10 ^ digitCount c₂ * 10 ^ (-shift).toNat) := by
        rw [denominatorNamed]
        exact Nat.mul_le_mul_left _ (Nat.mul_le_mul_right _ (lt_pow_digit_count c₂).le)
      _ = 10 ^ (digitCount c₁ - 1) * 10 ^ shift.toNat := by
        rw [← pow_add, ← pow_add, ← pow_add]
        congr 1
        rw [shiftNamed, shiftOf]
        omega
      _ ≤ numerator := by
        rw [numeratorNamed]
        exact Nat.mul_le_mul_right _ (pow_digit_count_le nonzero₁)
  rw [value]
  by_cases even : numerator % denominator = 0
  · rw [divide_finite_even negative e₁ e₂ shiftNamed numeratorNamed denominatorNamed even]
    obtain ⟨part, split⟩ := pow_trailing_zeros_dvd shift.toNat (numerator / denominator)
    set strip := trailingZeros shift.toNat (numerator / denominator) with stripNamed
    have whole : (numerator : ℚ) / denominator = (10 ^ strip * part : ℕ) := by
      rw [← split, Nat.cast_div (Nat.dvd_of_mod_eq_zero even) (by positivity)]
    have stripped : numerator / denominator / 10 ^ strip = part := by
      rw [split, Nat.mul_div_cancel_left part (by positivity)]
    have exactValue : signFactor negative *
        ((numerator : ℚ) / denominator * 10 ^ (e₁ - e₂ - shift)) =
          (finite negative part (e₁ - e₂ - shift + strip)).toRat := by
      rw [to_rat_finite_sign, whole, zpow_add₀ (by norm_num) (e₁ - e₂ - shift), zpow_natCast]
      push_cast
      ring
    rw [exactValue, stripped]
    exact finish_rounds sane _ _ _
  · rw [divide_finite_uneven negative e₁ e₂ shiftNamed numeratorNamed denominatorNamed even]
    refine (finish_rounds sane negative _ (e₁ - e₂ - shift)).congr ?_
    have same := round_quotient sane positive large even (e₁ - e₂ - shift)
    rw [to_rat_finite_sign]
    cases negative
    · simpa only [signFactor, Bool.false_eq_true, if_false, one_mul] using same
    · simpa only [signFactor, if_true, neg_one_mul, round_neg, neg_inj] using same

theorem divide_rounds (sane : c.Sane) {a b : Decimal} (finiteA : a.isFinite = true)
    (finiteB : b.isFinite = true) (nonzero : b.isZero = false) :
    c.Rounds (a.toRat / b.toRat) (c.divide a b) := by
  cases a <;> cases b <;> simp only [isFinite, Bool.false_eq_true] at finiteA finiteB
  rename_i n₁ c₁ e₁ n₂ c₂ e₂
  have nonzero₂ : c₂ ≠ 0 := by simpa [isZero] using nonzero
  have sign : signFactor (n₁ ^^ n₂) = signFactor n₁ / signFactor n₂ := by
    cases n₁ <;> cases n₂ <;> simp [signFactor]
  have value : (finite n₁ c₁ e₁).toRat / (finite n₂ c₂ e₂).toRat =
      signFactor (n₁ ^^ n₂) * ((c₁ : ℚ) * 10 ^ e₁ / (c₂ * 10 ^ e₂)) := by
    rw [to_rat_finite_sign, to_rat_finite_sign, sign, mul_div_mul_comm]
  simp only [divide, nanResult?, if_neg nonzero₂]
  rw [value]
  split_ifs with zero
  · have exactValue : signFactor (n₁ ^^ n₂) * ((c₁ : ℚ) * 10 ^ e₁ / (c₂ * 10 ^ e₂)) =
        (finite (n₁ ^^ n₂) 0 (e₁ - e₂)).toRat := by
      rw [to_rat_finite_sign, zero]
      simp
    rw [exactValue]
    exact finish_rounds sane _ _ _
  · exact divide_finite_rounds sane _ zero nonzero₂ e₁ e₂

/-! ### Scaling -/

def unitsAt (coefficient : ℕ) (shift : ℤ) : ℕ :=
  if 0 ≤ shift then coefficient * 10 ^ shift.toNat
  else if (digitCount coefficient : ℤ) + shift < 0 then 0
  else roundHalfEven coefficient (10 ^ (-shift).toNat)

theorem units_at_eq (coefficient : ℕ) (shift : ℤ) :
    (unitsAt coefficient shift : ℤ) = nearest ((coefficient : ℚ) * 10 ^ shift) := by
  rw [unitsAt]
  split_ifs with up faint
  · have whole : (coefficient : ℚ) * 10 ^ shift = ((coefficient * 10 ^ shift.toNat : ℕ) : ℤ) := by
      rw [Int.cast_natCast]
      push_cast
      rw [← zpow_natCast, Int.toNat_of_nonneg up]
    rw [whole, nearest_int_cast]
  · symm
    rw [Nat.cast_zero, nearest_eq_zero_iff, abs_of_nonneg (by positivity)]
    calc
      (coefficient : ℚ) * 10 ^ shift ≤ 10 ^ (shift + digitCount coefficient) :=
        (magnitude_lt coefficient shift).le
      _ ≤ 10 ^ (-1 : ℤ) := zpow_le_zpow_right₀ (by norm_num) (by omega)
      _ ≤ 1 / 2 := by norm_num
  · rw [← nearest_div coefficient _ (by positivity)]
    congr 1
    push_cast
    rw [← zpow_natCast, Int.toNat_of_nonneg (by omega), zpow_neg, div_inv_eq_mul]

/-- Scaling to an exponent answers with the nearest whole number of its units, if that has no more
digits than the precision, and with nothing else. -/
theorem quantize_finite (positive : 0 < c.precision) (negative : Bool) (coefficient : ℕ)
    (place exponent : ℤ) :
    ∃ units : ℕ, (units : ℤ) = nearest ((coefficient : ℚ) * 10 ^ place / 10 ^ exponent) ∧
      c.quantize (.finite negative coefficient place) exponent =
        if units < 10 ^ c.precision then .ok (.finite negative units exponent)
        else .error .invalidOperation := by
  have shifted : (coefficient : ℚ) * 10 ^ place / 10 ^ exponent =
      coefficient * 10 ^ (place - exponent) := by
    rw [mul_div_assoc, ← zpow_sub₀ (by norm_num)]
  by_cases zero : coefficient = 0
  · exact ⟨0, by simp [zero], by simp [quantize, zero]⟩
  refine ⟨unitsAt coefficient (place - exponent), by rw [units_at_eq, shifted], ?_⟩
  have counted : c.precision < digitCount (unitsAt coefficient (place - exponent)) ↔
      ¬ unitsAt coefficient (place - exponent) < 10 ^ c.precision := by
    rw [← not_le, digit_count_le_iff positive]
  -- A number that is refused for its size before it is scaled has too many units as well.
  have early : (c.precision : ℤ) < digitCount coefficient + (place - exponent) →
      ¬ unitsAt coefficient (place - exponent) < 10 ^ c.precision := by
    intro large
    have reached : (10 : ℚ) ^ c.precision ≤ coefficient * 10 ^ (place - exponent) := by
      refine le_trans ?_ (magnitude_ge zero (place - exponent))
      rw [← zpow_natCast]
      exact zpow_le_zpow_right₀ (by norm_num) (by omega)
    have rounded := nearest_mono (p := ((10 ^ c.precision : ℤ) : ℚ)) (by exact_mod_cast reached)
    rw [nearest_int_cast, ← units_at_eq] at rounded
    rw [not_lt]
    exact_mod_cast rounded
  simp only [quantize, if_neg zero]
  change (if _ then _ else if c.precision < digitCount (unitsAt coefficient (place - exponent)) then
    _ else Except.ok (finite negative (unitsAt coefficient (place - exponent)) exponent)) = _
  by_cases few : unitsAt coefficient (place - exponent) < 10 ^ c.precision
  · rw [if_neg (fun large => early large few), if_neg (fun many => counted.mp many few), if_pos few]
  · rw [if_neg few, if_pos (counted.mpr few), ite_self]

/-- Scaling works on the magnitude alone, so it answers a number and its opposite alike. -/
theorem quantize_flip (d : Decimal) (exponent : ℤ) :
    c.quantize d.flip exponent = (c.quantize d exponent).map Decimal.flip := by
  cases d with
  | infinite negative => rfl
  | nan negative signaling payload => cases signaling <;> rfl
  | finite negative coefficient place =>
      simp only [Decimal.flip, quantize]
      split_ifs <;> rfl

end SpreadWatch.Decimal.Context
