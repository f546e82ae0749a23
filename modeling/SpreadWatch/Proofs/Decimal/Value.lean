import SpreadWatch.Decimal.Context
import SpreadWatch.Decimal.Order
import SpreadWatch.Proofs.Rounding

/-!
What a decimal stands for: a rational, or a place on the line of rationals with both infinities.
The comparison of decimals, which looks at leading places first, is the order of these values.
-/

namespace SpreadWatch

abbrev Quantity := WithBotTop ℚ

namespace Decimal

def toRat : Decimal → ℚ
  | .finite negative coefficient exponent => signed negative coefficient * (10 : ℚ) ^ exponent
  | _ => 0

/-- The place of a decimal on the extended line; a NaN has none. -/
def quantity? : Decimal → Option Quantity
  | .finite negative coefficient exponent => some ((finite negative coefficient exponent).toRat : ℚ)
  | .infinite negative => some (if negative then ⊥ else ⊤)
  | .nan .. => none

theorem to_rat_finite (negative : Bool) (coefficient : ℕ) (exponent : ℤ) :
    (finite negative coefficient exponent).toRat =
      (if negative then -(coefficient : ℚ) else coefficient) * (10 : ℚ) ^ exponent := by
  cases negative <;> simp [toRat, signed]

@[simp] theorem signed_nat_abs (negative : Bool) (magnitude : ℕ) :
    (signed negative magnitude).natAbs = magnitude := by
  cases negative <;> simp [signed]

@[simp] theorem to_rat_zero : zero.toRat = 0 := by
  simp [zero, toRat, signed]

@[simp] theorem to_rat_one : one.toRat = 1 := by
  simp [one, toRat, signed]

theorem quantity_of_number {d : Decimal} (number : d.isNan = false) :
    ∃ q, d.quantity? = some q := by
  cases d with
  | finite negative coefficient exponent => exact ⟨_, rfl⟩
  | infinite negative => exact ⟨_, rfl⟩
  | nan negative signaling payload => cases number

theorem number_of_finite {d : Decimal} (finite : d.isFinite = true) : d.isNan = false := by
  cases d with
  | finite => rfl
  | infinite => rfl
  | nan => cases finite

theorem number_of_quantity {d : Decimal} {q : Quantity} (known : d.quantity? = some q) :
    d.isNan = false := by
  cases d with
  | finite => rfl
  | infinite => rfl
  | nan => cases known

theorem is_zero_iff {d : Decimal} (finite : d.isFinite = true) :
    d.isZero = true ↔ d.toRat = 0 := by
  cases d <;> simp only [isFinite, Bool.false_eq_true] at finite
  rename_i negative coefficient exponent
  have unit : (10 : ℚ) ^ exponent ≠ 0 := by positivity
  rw [to_rat_finite]
  cases negative <;> simp [isZero, unit]

theorem to_rat_flip (d : Decimal) : d.flip.toRat = -d.toRat := by
  cases d with
  | finite negative coefficient exponent =>
      rw [flip, to_rat_finite, to_rat_finite]
      cases negative <;> simp
  | infinite negative => simp [flip, toRat]
  | nan negative signaling payload => simp [flip, toRat]

/-- A magnitude lies in the decade that its leading digit names. -/
theorem magnitude_lt (coefficient : ℕ) (exponent : ℤ) :
    (coefficient : ℚ) * (10 : ℚ) ^ exponent < (10 : ℚ) ^ (exponent + digitCount coefficient) := by
  rw [zpow_add₀ (by norm_num), mul_comm]
  apply mul_lt_mul_of_pos_left _ (by positivity)
  rw [zpow_natCast]
  exact_mod_cast lt_pow_digit_count coefficient

theorem magnitude_ge {coefficient : ℕ} (nonzero : coefficient ≠ 0) (exponent : ℤ) :
    (10 : ℚ) ^ (exponent + digitCount coefficient - 1) ≤ coefficient * (10 : ℚ) ^ exponent := by
  have digits := digit_count_pos coefficient
  rw [show exponent + (digitCount coefficient : ℤ) - 1 =
    exponent + ((digitCount coefficient - 1 : ℕ) : ℤ) by omega,
    zpow_add₀ (by norm_num), mul_comm]
  apply mul_le_mul_of_nonneg_right _ (by positivity)
  rw [zpow_natCast]
  exact_mod_cast pow_digit_count_le nonzero

/-- Aligning both exponents to the smaller one keeps the order. -/
theorem aligned_lt_iff (c₁ : ℕ) (e₁ : ℤ) (c₂ : ℕ) (e₂ : ℤ) :
    c₁ * power 10 (e₁ - e₂).toNat < c₂ * power 10 (e₂ - e₁).toNat ↔
      (c₁ : ℚ) * (10 : ℚ) ^ e₁ < c₂ * (10 : ℚ) ^ e₂ := by
  have scale : ∀ (c : ℕ) (e other : ℤ),
      (c : ℚ) * (10 : ℚ) ^ e =
        ((c * 10 ^ (e - other).toNat : ℕ) : ℚ) * (10 : ℚ) ^ min e other := by
    intro c e other
    push_cast
    rw [mul_assoc, ← zpow_natCast, ← zpow_add₀ (by norm_num)]
    congr 2
    omega
  rw [scale c₁ e₁ e₂, scale c₂ e₂ e₁, min_comm e₂ e₁,
    mul_lt_mul_iff_left₀ (by positivity)]
  simp only [power_eq]
  exact_mod_cast Iff.rfl

theorem compare_magnitude_eq (c₁ : ℕ) (e₁ : ℤ) (c₂ : ℕ) (e₂ : ℤ) :
    compareMagnitude c₁ e₁ c₂ e₂ = cmp ((c₁ : ℚ) * (10 : ℚ) ^ e₁) (c₂ * (10 : ℚ) ^ e₂) := by
  symm
  unfold compareMagnitude
  dsimp only
  split_ifs with zeroLeft zeroRight zeroRight below above
  · simp [zeroLeft, zeroRight]
  · have positive : (0 : ℚ) < c₂ * (10 : ℚ) ^ e₂ := by positivity
    rw [cmp_eq_lt_iff, zeroLeft]
    simpa using positive
  · have positive : (0 : ℚ) < c₁ * (10 : ℚ) ^ e₁ := by positivity
    rw [cmp_eq_gt_iff, zeroRight]
    simpa using positive
  · rw [cmp_eq_lt_iff]
    calc
      (c₁ : ℚ) * (10 : ℚ) ^ e₁ < (10 : ℚ) ^ (e₁ + digitCount c₁) := magnitude_lt c₁ e₁
      _ ≤ (10 : ℚ) ^ (e₂ + digitCount c₂ - 1) := zpow_le_zpow_right₀ (by norm_num) (by omega)
      _ ≤ c₂ * (10 : ℚ) ^ e₂ := magnitude_ge zeroRight e₂
  · rw [cmp_eq_gt_iff]
    calc
      (c₂ : ℚ) * (10 : ℚ) ^ e₂ < (10 : ℚ) ^ (e₂ + digitCount c₂) := magnitude_lt c₂ e₂
      _ ≤ (10 : ℚ) ^ (e₁ + digitCount c₁ - 1) := zpow_le_zpow_right₀ (by norm_num) (by omega)
      _ ≤ c₁ * (10 : ℚ) ^ e₁ := magnitude_ge zeroLeft e₁
  · have less := aligned_lt_iff c₁ e₁ c₂ e₂
    have greater := aligned_lt_iff c₂ e₂ c₁ e₁
    rcases lt_trichotomy ((c₁ : ℚ) * (10 : ℚ) ^ e₁) (c₂ * (10 : ℚ) ^ e₂) with low | same | high
    · rw [low.cmp_eq_lt, Nat.compare_eq_lt.mpr (less.mpr low)]
    · have equal : c₁ * power 10 (e₁ - e₂).toNat = c₂ * power 10 (e₂ - e₁).toNat :=
        le_antisymm (not_lt.mp fun h => absurd (greater.mp h) same.not_gt)
          (not_lt.mp fun h => absurd (less.mp h) same.not_lt)
      rw [same.cmp_eq_eq, equal, Nat.compare_eq_eq.mpr rfl]
    · rw [high.cmp_eq_gt, Nat.compare_eq_gt.mpr (greater.mpr high)]

theorem cmp_neg_neg (x y : ℚ) : cmp (-x) (-y) = cmp y x := by
  rcases lt_trichotomy x y with low | same | high
  · rw [low.cmp_eq_gt, (neg_lt_neg low).cmp_eq_gt]
  · rw [same, cmp_self_eq_eq, cmp_self_eq_eq]
  · rw [high.cmp_eq_lt, (neg_lt_neg high).cmp_eq_lt]

theorem compare_finite_eq (n₁ : Bool) (c₁ : ℕ) (e₁ : ℤ) (n₂ : Bool) (c₂ : ℕ) (e₂ : ℤ) :
    compare? (finite n₁ c₁ e₁) (finite n₂ c₂ e₂) =
      some (cmp (finite n₁ c₁ e₁).toRat (finite n₂ c₂ e₂).toRat) := by
  have nonneg₁ : (0 : ℚ) ≤ c₁ * (10 : ℚ) ^ e₁ := by positivity
  have nonneg₂ : (0 : ℚ) ≤ c₂ * (10 : ℚ) ^ e₂ := by positivity
  simp only [compare?, to_rat_finite]
  by_cases zeros : c₁ = 0 ∧ c₂ = 0
  · simp [zeros.1, zeros.2]
  have positive : 0 < (c₁ : ℚ) * (10 : ℚ) ^ e₁ + c₂ * (10 : ℚ) ^ e₂ := by
    rcases not_and_or.mp zeros with left | right <;> positivity
  rw [if_neg zeros]
  cases n₁ <;> cases n₂
  · simp [compare_magnitude_eq]
  · have above : -((c₂ : ℚ) * (10 : ℚ) ^ e₂) < c₁ * (10 : ℚ) ^ e₁ := by linarith
    simp [above.cmp_eq_gt]
  · have below : -((c₁ : ℚ) * (10 : ℚ) ^ e₁) < c₂ * (10 : ℚ) ^ e₂ := by linarith
    simp [below.cmp_eq_lt]
  · simp [compare_magnitude_eq, cmp_neg_neg]

/-- Decimals with a place on the line are compared by their places. -/
theorem compare_quantity {a b : Decimal} {x y : Quantity} (left : a.quantity? = some x)
    (right : b.quantity? = some y) : compare? a b = some (cmp x y) := by
  have belowTop : ∀ r : ℚ, cmp (r : Quantity) ⊤ = .lt ∧ cmp (⊤ : Quantity) r = .gt := fun r =>
    ⟨(WithBotTop.coe_ne_top r).lt_top.cmp_eq_lt, (WithBotTop.coe_ne_top r).lt_top.cmp_eq_gt⟩
  have aboveBot : ∀ r : ℚ, cmp (r : Quantity) ⊥ = .gt ∧ cmp (⊥ : Quantity) r = .lt := fun r =>
    ⟨(WithBotTop.coe_ne_bot r).bot_lt.cmp_eq_gt, (WithBotTop.coe_ne_bot r).bot_lt.cmp_eq_lt⟩
  cases a with
  | nan => simp [quantity?] at left
  | infinite n₁ =>
      cases b with
      | nan => simp [quantity?] at right
      | infinite n₂ =>
          obtain rfl := Option.some.inj left
          obtain rfl := Option.some.inj right
          have apart : (⊥ : Quantity) < ⊤ := bot_lt_top
          cases n₁ <;> cases n₂ <;> simp [compare?, apart.cmp_eq_lt, apart.cmp_eq_gt]
      | finite n₂ c₂ e₂ =>
          obtain rfl := Option.some.inj left
          obtain rfl := Option.some.inj right
          cases n₁ <;> simp [compare?, belowTop, aboveBot]
  | finite n₁ c₁ e₁ =>
      cases b with
      | nan => simp [quantity?] at right
      | infinite n₂ =>
          obtain rfl := Option.some.inj left
          obtain rfl := Option.some.inj right
          cases n₂ <;> simp [compare?, belowTop, aboveBot]
      | finite n₂ c₂ e₂ =>
          obtain rfl := Option.some.inj left
          obtain rfl := Option.some.inj right
          rw [compare_finite_eq]
          simp [cmp, cmpUsing]

theorem less_quantity {a b : Decimal} {x y : Quantity} (left : a.quantity? = some x)
    (right : b.quantity? = some y) : less a b = .ok (decide (x < y)) := by
  simp only [less, order, compare_quantity left right, Except.map]
  rcases lt_trichotomy x y with low | same | high
  · simp [low.cmp_eq_lt, low]
  · simp [same]
  · simp [high.cmp_eq_gt, high.not_gt]

theorem less_finite {a b : Decimal} (left : a.isFinite = true) (right : b.isFinite = true) :
    less a b = .ok (decide (a.toRat < b.toRat)) := by
  cases a <;> cases b <;> simp only [isFinite, Bool.false_eq_true] at left right
  rw [less_quantity rfl rfl]
  simp

end Decimal

end SpreadWatch
