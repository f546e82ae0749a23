import SpreadWatch.Proofs.Spread.Scale

/-!
Deals. Either side of a spread is a purchase, whose fee comes on top of the price, or a sale, whose
fee is taken off. Everything about effective prices holds for both alike: they are the price times a
factor, which for a fee in [0, 1) is a nonnegative number, correctly rounded.
-/

namespace SpreadWatch.Spread

open Decimal (Context)

inductive Deal where
  | purchase
  | sale

def Side.longDeal : Side → Deal
  | .entry => .purchase
  | .exit => .sale

def Side.shortDeal : Side → Deal
  | .entry => .sale
  | .exit => .purchase

structure Priced (price : Decimal) : Prop where
  finite : price.isFinite = true
  positive : 0 < price.toRat

structure Charged (fee : Decimal) : Prop where
  finite : fee.isFinite = true
  nonneg : 0 ≤ fee.toRat
  below : fee.toRat < 1

/-! ### Operations of the working context on numbers of ordinary size -/

theorem ceiling_large : (10 : ℚ) ^ 100 ≤ working.ceiling := by
  rw [← zpow_natCast]
  exact zpow_le_zpow_right₀ (by norm_num) (by decide)

/-- A correctly rounded operation answers if its exact result is of ordinary size. -/
theorem answer_of_rounds {v : ℚ} {result : Except Decimal.Signal Decimal}
    (rounds : working.Rounds v result) (small : |v| ≤ 10 ^ 99) :
    ∃ value, result = .ok value ∧ value.isFinite = true ∧ value.toRat = working.round v := by
  have below : |working.round v| < working.ceiling := by
    calc
      |working.round v| ≤ 2 * |v| := Context.abs_round_le_double v
      _ ≤ 2 * 10 ^ 99 := by gcongr
      _ < 10 ^ 100 := by norm_num
      _ ≤ working.ceiling := ceiling_large
  obtain ⟨negative, coefficient, exponent, answered, exactly⟩ := rounds.1 below
  exact ⟨_, answered, rfl, exactly⟩

namespace Deal

def factor : Deal → Decimal → Except Decimal.Signal Decimal
  | .purchase, fee => working.add Decimal.one fee
  | .sale, fee => working.subtract Decimal.one fee

def price : Deal → Option Decimal → Option Decimal → Except Failure Decimal
  | .purchase, quoted, fee => paid quoted fee
  | .sale, quoted, fee => received quoted fee

def exactFactor : Deal → ℚ → ℚ
  | .purchase, fee => 1 + fee
  | .sale, fee => 1 - fee

def exactPrice (deal : Deal) (quoted fee : Decimal) : ℚ :=
  quoted.toRat * deal.exactFactor fee.toRat

variable {deal : Deal} {quoted fee factor : Decimal}

theorem price_eq_bind (deal : Deal) (quoted fee : Decimal) :
    deal.price (some quoted) (some fee) = (liftDecimal (deal.factor fee) >>= fun factor =>
      liftDecimal (working.multiply quoted factor)) := by
  cases deal <;> rfl

theorem price_eq (factored : deal.factor fee = .ok factor) :
    deal.price (some quoted) (some fee) = liftDecimal (working.multiply quoted factor) := by
  rw [price_eq_bind, factored]
  rfl

theorem exact_factor_nonneg (charged : Charged fee) : 0 ≤ deal.exactFactor fee.toRat := by
  have nonneg := charged.nonneg
  have below := charged.below
  cases deal with
  | purchase => exact (by linarith : 0 ≤ 1 + fee.toRat)
  | sale => exact (by linarith : 0 ≤ 1 - fee.toRat)

theorem exact_factor_le_two (charged : Charged fee) : deal.exactFactor fee.toRat ≤ 2 := by
  have nonneg := charged.nonneg
  have below := charged.below
  cases deal with
  | purchase => exact (by linarith : 1 + fee.toRat ≤ 2)
  | sale => exact (by linarith : 1 - fee.toRat ≤ 2)

theorem exact_price_nonneg (priced : Priced quoted) (charged : Charged fee) :
    0 ≤ deal.exactPrice quoted fee :=
  mul_nonneg priced.positive.le (exact_factor_nonneg charged)

/-- The factor of a fee in [0, 1) is computed, and is rounded once. -/
theorem factor_answers (deal : Deal) (charged : Charged fee) :
    ∃ factor, deal.factor fee = .ok factor ∧ factor.isFinite = true ∧
      factor.toRat = working.round (deal.exactFactor fee.toRat) := by
  have rounds : working.Rounds (deal.exactFactor fee.toRat) (deal.factor fee) := by
    cases deal with
    | purchase =>
        have sum := Context.add_rounds working_sane (a := Decimal.one) (b := fee) rfl charged.finite
        rwa [Decimal.to_rat_one] at sum
    | sale =>
        have difference :=
          Context.subtract_rounds working_sane (a := Decimal.one) (b := fee) rfl charged.finite
        rwa [Decimal.to_rat_one] at difference
  apply answer_of_rounds rounds
  rw [abs_of_nonneg (exact_factor_nonneg charged)]
  exact (exact_factor_le_two charged).trans (by norm_num)

end Deal

theorem effective_eq (side : Side) (longPrice longFee shortPrice shortFee : Option Decimal) :
    effective side longPrice longFee shortPrice shortFee =
      (side.longDeal.price longPrice longFee >>= fun long =>
        side.shortDeal.price shortPrice shortFee >>= fun short => .ok (long, short)) := by
  cases side <;> rfl

end SpreadWatch.Spread
