import SpreadWatch.Proofs.Spread.Answer

/-!
The least spread there can be. The effective price on the short side may come down to nothing, and
then all of the price on the long side is lost, which is a spread of minus one. No rounding goes
below that: minus one has few digits, and it is a whole number of units.
-/

namespace SpreadWatch.Spread

open Decimal (Context)

variable {value : Decimal} {side : Side}

structure Floored (value : Decimal) : Prop where
  places : ∃ negative coefficient, value = .finite negative coefficient scale
  floor : -1 ≤ value.toRat

theorem Floored.finite (floored : Floored value) : value.isFinite = true := by
  obtain ⟨negative, coefficient, rfl⟩ := floored.places
  rfl

theorem round_ge_neg_one {v : ℚ} (bound : -1 ≤ v) : -1 ≤ working.round v := by
  have whole : ((-1 : ℤ) : ℚ) * 10 ^ (0 : ℤ) = -1 := by norm_num
  rw [← whole, ← Context.round_of_fits (c := working) (m := -1) (by decide) (by decide), whole]
  exact Context.round_mono working_sane bound

theorem at_scale_ge_neg_one {q : ℚ} (bound : -1 ≤ q) : -1 ≤ atScale q := by
  have whole : ((-10 ^ 8 : ℤ) : ℚ) * 10 ^ scale = -1 := by norm_num [scale]
  have least := at_scale_mono bound
  rwa [← whole, atScale, units_at_scale, whole] at least

/-- What is lost is at most the whole price on the long side. -/
theorem spread_of_ge_neg_one {p q : ℚ} (worth : 0 < units p) (nonneg : 0 ≤ q) :
    -1 ≤ spreadOf p q := by
  have positive : (0 : ℚ) < units p := by exact_mod_cast worth
  have received : (0 : ℚ) ≤ units q := by exact_mod_cast units_nonneg nonneg
  apply at_scale_ge_neg_one
  apply round_ge_neg_one
  rw [le_div_iff₀ positive]
  push_cast
  linarith

theorem Answers.floored {p q : ℚ} (answers : Answers p q value) (nonneg : 0 ≤ q) :
    Floored value := by
  refine ⟨answers.places, ?_⟩
  rw [answers.number]
  exact spread_of_ge_neg_one answers.worth nonneg

theorem spread_floored {longPrice longFee shortPrice shortFee : Option Decimal}
    (answered : spread side longPrice longFee shortPrice shortFee = .ok value) :
    Floored value := by
  obtain ⟨legs, -, -, -, -, legsAnswered⟩ := legs_of_answer answered
  obtain ⟨valid, -⟩ := Legs.prices_of_answer legsAnswered
  exact (Legs.spread_answers legsAnswered).floored (Legs.rounded_nonneg valid side).2

end SpreadWatch.Spread
