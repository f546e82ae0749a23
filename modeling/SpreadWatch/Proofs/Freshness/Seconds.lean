import SpreadWatch.Proofs.Binary64.Ratio
import SpreadWatch.Proofs.Freshness

/-!
Durations in seconds. A double that tells a duration of less than `2 ^ 33` seconds has its last
place below a microsecond. So durations that differ by a microsecond are told apart, and the double
is less than, equal to or greater than a whole number of seconds as the duration itself is.
-/

namespace SpreadWatch

namespace Binary64

variable {negative : Bool} {ratio : ℚ} {double : Binary64}

/-- A ratio below `2 ^ 33` is rounded at a place of less than a millionth. -/
theorem Nearest.small (near : Nearest negative ratio double) (bound : ratio < 2 ^ 33) :
    ∃ mantissa exponent place, double = .finite negative mantissa exponent ∧ place ≤ -20 ∧
      (mantissa : ℚ) * (2 : ℚ) ^ exponent = roundAt place ratio := by
  have placed : ∀ place : ℤ, (2 : ℚ) ^ (52 : ℤ) ≤ ratio / (2 : ℚ) ^ place → place ≤ -20 := by
    intro place low
    rw [le_div_iff₀ (by positivity), ← zpow_add₀ (by norm_num)] at low
    have exponents : (2 : ℚ) ^ (52 + place) < (2 : ℚ) ^ (33 : ℤ) := by
      exact_mod_cast low.trans_lt bound
    have ordered := (zpow_lt_zpow_iff_right₀ (by norm_num : (1 : ℚ) < 2)).mp exponents
    omega
  cases near with
  | @finite mantissa exponent place low high units =>
      exact ⟨mantissa, exponent, place, rfl, placed place low, units⟩
  | @infinite place low beyond =>
      have behind := placed place low
      omega

/-- A ratio from `2 ^ 33` on does not get below this bound. -/
theorem Nearest.large (near : Nearest negative ratio double) (bound : 2 ^ 33 ≤ ratio) :
    double = .infinite negative ∨ ∃ mantissa exponent,
      double = .finite negative mantissa exponent ∧
        2 ^ 33 ≤ (mantissa : ℚ) * (2 : ℚ) ^ exponent := by
  cases near with
  | @infinite place low beyond => exact .inl rfl
  | @finite mantissa exponent place low high units =>
      refine .inr ⟨mantissa, exponent, rfl, ?_⟩
      rw [div_lt_iff₀ (by positivity), ← zpow_add₀ (by norm_num)] at high
      have exponents : (2 : ℚ) ^ (33 : ℤ) < (2 : ℚ) ^ (53 + place) := by
        exact_mod_cast bound.trans_lt high
      have ordered := (zpow_lt_zpow_iff_right₀ (by norm_num : (1 : ℚ) < 2)).mp exponents
      rw [le_div_iff₀ (by positivity)] at low
      have least : ((2 ^ 52 : ℤ) : ℚ) * (2 : ℚ) ^ place ≤ ratio := by exact_mod_cast low
      rw [units]
      calc
        (2 : ℚ) ^ 33 = (2 : ℚ) ^ (33 : ℤ) := by norm_num
        _ ≤ (2 : ℚ) ^ (52 + place) := zpow_le_zpow_right₀ (by norm_num) (by omega)
        _ = ((2 ^ 52 : ℤ) : ℚ) * (2 : ℚ) ^ place := by
          rw [zpow_add₀ (by norm_num)]
          norm_num
        _ ≤ roundAt place ratio := units_le_round_at least

end Binary64

namespace Freshness

open Binary64

/-- Half of a place from the twentieth binary one on is less than half a millionth. -/
theorem half_place_small {place : ℤ} (behind : place ≤ -20) :
    (2 : ℚ) ^ place / 2 < 1 / 2000000 := by
  have bounded : (2 : ℚ) ^ place ≤ (2 : ℚ) ^ (-20 : ℤ) := zpow_le_zpow_right₀ (by norm_num) behind
  norm_num at bounded
  linarith

section Magnitude

variable {micros : ℕ} {negative : Bool}

theorem seconds_nearest (negative : Bool) (nonzero : micros ≠ 0) :
    Nearest negative ((micros : ℚ) / 1000000) (ofRatio negative micros 1000000) := by
  have atLeast : (1 : ℚ) ≤ micros := by exact_mod_cast Nat.one_le_iff_ne_zero.mpr nonzero
  have large : (2 : ℚ) ^ (-1000 : ℤ) ≤ (micros : ℚ) / ((1000000 : ℕ) : ℚ) := by
    calc
      (2 : ℚ) ^ (-1000 : ℤ) ≤ (2 : ℚ) ^ (-20 : ℤ) := zpow_le_zpow_right₀ (by norm_num) (by norm_num)
      _ ≤ 1 / ((1000000 : ℕ) : ℚ) := by norm_num
      _ ≤ (micros : ℚ) / ((1000000 : ℕ) : ℚ) := by gcongr
  exact_mod_cast of_ratio_nearest negative nonzero (by decide : 0 < 1000000) large

/-- The double of a positive duration stands to whole seconds as the duration does, and tells it to
half a microsecond unless it is very long. -/
structure Measures (micros : ℕ) (value : ℚ) : Prop where
  close : micros < 2 ^ 33 * 1000000 → |value - (micros : ℚ) / 1000000| < 1 / 2000000
  below : ∀ limit : ℕ, limit < 2 ^ 33 → micros < limit * 1000000 → value < limit
  same : ∀ limit : ℕ, limit < 2 ^ 33 → micros = limit * 1000000 → value = limit
  above : ∀ limit : ℕ, limit < 2 ^ 33 → limit * 1000000 < micros → (limit : ℚ) < value

theorem measures_of_small {place : ℤ} (behind : place ≤ -20) (micros : ℕ) :
    Measures micros (roundAt place ((micros : ℚ) / 1000000)) := by
  have error := round_at_error place ((micros : ℚ) / 1000000)
  have close := abs_le.mp error
  have half := half_place_small behind
  constructor
  · intro _
    exact error.trans_lt half
  · intro limit _ less
    have apart : (micros : ℚ) + 1 ≤ limit * 1000000 := by exact_mod_cast less
    linarith
  · intro limit _ equal
    have whole : (micros : ℚ) / 1000000 = (limit : ℤ) := by
      rw [equal]
      push_cast
      norm_num
    obtain ⟨units, counted⟩ := units_of_int (by omega : place ≤ 0) (limit : ℤ)
    rw [whole, counted]
    have same : roundAt place (units * (2 : ℚ) ^ place) = units * (2 : ℚ) ^ place :=
      le_antisymm (round_at_le_units le_rfl) (units_le_round_at le_rfl)
    rw [same, ← counted, Int.cast_natCast]
  · intro limit _ greater
    have apart : (limit : ℚ) * 1000000 + 1 ≤ micros := by exact_mod_cast greater
    linarith

theorem measures_of_large {value : ℚ} (long : 2 ^ 33 * 1000000 ≤ micros) (large : 2 ^ 33 ≤ value) :
    Measures micros value := by
  constructor
  · intro short
    omega
  · intro limit moderate less
    omega
  · intro limit moderate equal
    omega
  · intro limit moderate _
    have bounded : (limit : ℚ) < 2 ^ 33 := by exact_mod_cast moderate
    exact bounded.trans_le large

/-- The double of a positive duration measures it, or the duration is beyond all doubles. -/
theorem seconds_measure (negative : Bool) (nonzero : micros ≠ 0) :
    (∃ value : ℚ, (ofRatio negative micros 1000000).toDecimal.quantity? =
        some ((if negative then -value else value : ℚ) : Quantity) ∧ Measures micros value) ∨
      ofRatio negative micros 1000000 = .infinite negative ∧ 2 ^ 33 * 1000000 ≤ micros := by
  have near := seconds_nearest negative nonzero
  have told : ∀ mantissa exponent, (finite negative mantissa exponent).toRat =
      if negative then -((mantissa : ℚ) * (2 : ℚ) ^ exponent)
      else (mantissa : ℚ) * (2 : ℚ) ^ exponent := by
    intro mantissa exponent
    cases negative <;> simp [Binary64.toRat]
  by_cases long : 2 ^ 33 * 1000000 ≤ micros
  · have bound : (2 : ℚ) ^ 33 ≤ (micros : ℚ) / 1000000 := by
      rw [le_div_iff₀ (by norm_num)]
      exact_mod_cast long
    rcases near.large bound with infinite | ⟨mantissa, exponent, finite, large⟩
    · exact .inr ⟨infinite, long⟩
    · refine .inl ⟨_, ?_, measures_of_large long large⟩
      rw [finite, quantity_finite, told]
  · have bound : (micros : ℚ) / 1000000 < 2 ^ 33 := by
      rw [div_lt_iff₀ (by norm_num)]
      exact_mod_cast not_le.mp long
    obtain ⟨mantissa, exponent, place, finite, behind, units⟩ := near.small bound
    refine .inl ⟨_, ?_, measures_of_small behind micros⟩
    rw [finite, quantity_finite, told, units]

structure Tells (micros : ℤ) (value : ℚ) : Prop where
  close : |micros| < 2 ^ 33 * 1000000 → |value - (micros : ℚ) / 1000000| < 1 / 2000000
  below : ∀ limit : ℤ, |limit| < 2 ^ 33 → micros < limit * 1000000 → value < limit
  same : ∀ limit : ℤ, |limit| < 2 ^ 33 → micros = limit * 1000000 → value = limit
  above : ∀ limit : ℤ, |limit| < 2 ^ 33 → limit * 1000000 < micros → (limit : ℚ) < value

variable {value : ℚ}

theorem Measures.positive (measures : Measures micros value) (nonzero : micros ≠ 0) :
    0 < value := by
  have above := measures.above 0 (by norm_num) (by omega)
  exact_mod_cast above

theorem Measures.tells (measures : Measures micros value) (nonzero : micros ≠ 0) :
    Tells micros value := by
  have positive := measures.positive nonzero
  constructor
  · intro short
    rw [Nat.abs_cast] at short
    rw [Int.cast_natCast]
    exact measures.close (by exact_mod_cast short)
  · intro limit moderate less
    obtain ⟨whole, rfl⟩ := Int.eq_ofNat_of_zero_le (by omega : 0 ≤ limit)
    rw [Nat.abs_cast] at moderate
    exact_mod_cast measures.below whole (by exact_mod_cast moderate) (by exact_mod_cast less)
  · intro limit moderate equal
    obtain ⟨whole, rfl⟩ := Int.eq_ofNat_of_zero_le (by omega : 0 ≤ limit)
    rw [Nat.abs_cast] at moderate
    exact_mod_cast measures.same whole (by exact_mod_cast moderate) (by exact_mod_cast equal)
  · intro limit moderate greater
    rcases lt_or_ge limit 0 with negative | nonneg
    · have below : (limit : ℚ) < 0 := by exact_mod_cast negative
      exact below.trans positive
    · obtain ⟨whole, rfl⟩ := Int.eq_ofNat_of_zero_le nonneg
      rw [Nat.abs_cast] at moderate
      exact_mod_cast measures.above whole (by exact_mod_cast moderate) (by exact_mod_cast greater)

theorem Tells.negated {micros : ℤ} (tells : Tells micros value) : Tells (-micros) (-value) := by
  constructor
  · intro short
    rw [abs_neg] at short
    have opposite : -value - ((-micros : ℤ) : ℚ) / 1000000 =
        -(value - (micros : ℚ) / 1000000) := by
      push_cast
      ring
    rw [opposite, abs_neg]
    exact tells.close short
  · intro limit moderate less
    have opposite := tells.above (-limit) (by rwa [abs_neg]) (by omega)
    push_cast at opposite
    linarith
  · intro limit moderate equal
    have opposite := tells.same (-limit) (by rwa [abs_neg]) (by omega)
    push_cast at opposite
    linarith
  · intro limit moderate greater
    have opposite := tells.below (-limit) (by rwa [abs_neg]) (by omega)
    push_cast at opposite
    linarith

end Magnitude

theorem tells_zero : Tells 0 0 := by
  constructor
  · intro _
    norm_num
  · intro limit _ less
    exact_mod_cast (by omega : 0 < limit)
  · intro limit _ equal
    exact_mod_cast (by omega : 0 = limit)
  · intro limit _ greater
    exact_mod_cast (by omega : limit < 0)

/-- The seconds of a duration tell it, or the duration is beyond all doubles. -/
theorem seconds_tell (micros : ℤ) :
    (∃ value : ℚ, (seconds micros).toDecimal.quantity? = some (value : Quantity) ∧
        Tells micros value) ∨
      seconds micros = .infinite (decide (micros < 0)) ∧ 2 ^ 33 * 1000000 ≤ |micros| := by
  by_cases zero : micros = 0
  · subst zero
    refine .inl ⟨0, ?_, tells_zero⟩
    have value : seconds 0 = .finite false 0 (-1074) := rfl
    rw [value, quantity_finite]
    simp [Binary64.toRat]
  have nonzero : micros.natAbs ≠ 0 := Int.natAbs_ne_zero.mpr zero
  rcases seconds_measure (decide (micros < 0)) nonzero with ⟨value, told, measures⟩ | beyond
  · have tells := measures.tells nonzero
    refine .inl ⟨_, told, ?_⟩
    rcases lt_or_gt_of_ne zero with negative | positive
    · rw [if_pos (decide_eq_true negative)]
      have sign : micros = -(micros.natAbs : ℤ) := by omega
      rw [sign]
      simpa using tells.negated
    · rw [if_neg (by simpa using positive.le)]
      have sign : micros = (micros.natAbs : ℤ) := by omega
      rw [sign]
      simpa using tells
  · refine .inr ⟨beyond.1, ?_⟩
    rw [Int.abs_eq_natAbs]
    exact_mod_cast beyond.2

/-- A positive duration of so many seconds at most is a positive number of seconds, and no more. -/
theorem seconds_between {micros limit : ℤ} (positive : 0 < micros)
    (bounded : micros ≤ limit * 1000000) (moderate : |limit| < 2 ^ 33) :
    ∃ value : ℚ, (seconds micros).toDecimal.quantity? = some (value : Quantity) ∧ 0 < value ∧
      value ≤ limit := by
  rcases seconds_tell micros with ⟨value, told, tells⟩ | ⟨-, long⟩
  · refine ⟨value, told, ?_, ?_⟩
    · exact_mod_cast tells.above 0 (by norm_num) (by omega)
    · rcases bounded.lt_or_eq with less | equal
      · exact (tells.below limit moderate less).le
      · exact (tells.same limit moderate equal).le
  · have limits := abs_lt.mp moderate
    rw [abs_of_pos positive] at long
    omega

/-- Durations of less than `2 ^ 33` seconds that differ have different doubles. -/
theorem seconds_injective {a b : ℤ} (small : |a| < 2 ^ 33 * 1000000)
    (smallToo : |b| < 2 ^ 33 * 1000000) (same : seconds a = seconds b) : a = b := by
  have told : ∀ {micros : ℤ}, |micros| < 2 ^ 33 * 1000000 → ∃ value : ℚ,
      (seconds micros).toDecimal.quantity? = some (value : Quantity) ∧ Tells micros value := by
    intro micros short
    rcases seconds_tell micros with told | ⟨-, long⟩
    · exact told
    · omega
  obtain ⟨x, xTold, xTells⟩ := told small
  obtain ⟨y, yTold, yTells⟩ := told smallToo
  rw [same, yTold] at xTold
  obtain rfl : y = x := WithBotTop.coe_injective (Option.some.inj xTold)
  have first := abs_lt.mp (xTells.close small)
  have second := abs_lt.mp (yTells.close smallToo)
  have above : (a : ℚ) < b + 1 := by linarith
  have below : (b : ℚ) < a + 1 := by linarith
  have one : a < b + 1 := by exact_mod_cast above
  have other : b < a + 1 := by exact_mod_cast below
  omega

theorem quantity_of_int (n : ℤ) : (Decimal.ofInt n).quantity? = some ((n : ℚ) : Quantity) := by
  have value : (Decimal.ofInt n).toRat = n := by
    rw [Decimal.ofInt, Decimal.to_rat_finite, zpow_zero, mul_one]
    rcases lt_or_ge n 0 with negative | nonneg
    · have sign : -(n.natAbs : ℤ) = n := by omega
      rw [if_pos (decide_eq_true negative)]
      exact_mod_cast sign
    · have sign : (n.natAbs : ℤ) = n := by omega
      rw [if_neg (by simpa using nonneg), ← Int.cast_natCast, sign]
  rw [← value]
  rfl

theorem cmp_coe (x y : ℚ) : cmp (x : Quantity) (y : Quantity) = cmp x y := by
  simp [cmp, cmpUsing]

/-- A duration in seconds stands to a whole number of seconds as its microseconds do. -/
theorem compare_seconds (micros : ℤ) {limit : ℤ} (moderate : |limit| < 2 ^ 33) :
    Decimal.compare? (seconds micros).toDecimal (Decimal.ofInt limit) =
      some (cmp micros (limit * 1000000)) := by
  have whole := quantity_of_int limit
  rcases seconds_tell micros with ⟨value, told, tells⟩ | ⟨infinite, long⟩
  · rw [Decimal.compare_quantity told whole, cmp_coe]
    rcases lt_trichotomy micros (limit * 1000000) with less | equal | greater
    · rw [less.cmp_eq_lt, (tells.below limit moderate less).cmp_eq_lt]
    · rw [equal, cmp_self_eq_eq, tells.same limit moderate equal, cmp_self_eq_eq]
    · rw [greater.cmp_eq_gt, (tells.above limit moderate greater).cmp_eq_gt]
  · have bounds := abs_lt.mp moderate
    rw [infinite, toDecimal, Decimal.ofInt, Decimal.compare?]
    rcases lt_or_ge micros 0 with negative | nonneg
    · rw [abs_of_neg negative] at long
      have less : micros < limit * 1000000 := by omega
      rw [less.cmp_eq_lt]
      simp [negative]
    · rw [abs_of_nonneg nonneg] at long
      have greater : limit * 1000000 < micros := by omega
      rw [greater.cmp_eq_gt]
      simp [nonneg]

end Freshness

end SpreadWatch
