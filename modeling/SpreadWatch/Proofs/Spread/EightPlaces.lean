import SpreadWatch.Proofs.Spread.Scale

/-!
Bringing a number to eight places, for every sign, number of digits and exponent. There is one
rounding and no second one: the answer is the nearest whole number of units, if that has at most
sixty digits, and it keeps the sign of the number even where nothing else is left of it. The laws of
scaling are those of the nearest integer: it keeps the order, turns with the sign, leaves whole
numbers alone, and is zero up to one half.
-/

namespace SpreadWatch.Spread

variable {value fixed : Decimal}

/-- An answer is a number, and worth what is left of the number at eight places. -/
theorem at_scale_of_fixed (finite : value.isFinite = true) (answered : toFixed value = .ok fixed) :
    fixed.isFinite = true ∧ fixed.toRat = atScale value.toRat := by
  obtain ⟨few, many⟩ := to_fixed_rounds finite
  by_cases size : |units value.toRat| < 10 ^ 60
  · obtain ⟨negative, coefficient, scaled, exactly⟩ := few size
    cases answered.symm.trans scaled
    exact ⟨rfl, exactly⟩
  · cases answered.symm.trans (many (not_lt.mp size))

theorem to_fixed_mono {other otherFixed : Decimal} (finite : value.isFinite = true)
    (otherFinite : other.isFinite = true) (answered : toFixed value = .ok fixed)
    (otherAnswered : toFixed other = .ok otherFixed) (ordered : value.toRat ≤ other.toRat) :
    fixed.toRat ≤ otherFixed.toRat := by
  obtain ⟨-, exactly⟩ := at_scale_of_fixed finite answered
  obtain ⟨-, otherExactly⟩ := at_scale_of_fixed otherFinite otherAnswered
  rw [exactly, otherExactly]
  exact at_scale_mono ordered

/-- A number of eight places and at most sixty digits is left as it is. -/
theorem to_fixed_at_scale (negative : Bool) {coefficient : ℕ} (few : coefficient < 10 ^ 60) :
    toFixed (.finite negative coefficient scale) = .ok (.finite negative coefficient scale) := by
  have whole : units (Decimal.finite negative coefficient scale).toRat =
      Decimal.signed negative coefficient := by
    rw [Decimal.toRat, units_at_scale]
  rw [to_fixed_finite, whole, Int.abs_eq_natAbs, Decimal.signed_nat_abs]
  exact if_pos (by exact_mod_cast few)

/-- What is left of a number is nothing exactly if the number is at most half a unit. -/
theorem to_fixed_zero_iff (finite : value.isFinite = true) :
    (∃ fixed, toFixed value = .ok fixed ∧ fixed.isZero = true) ↔ |value.toRat| ≤ 5 / 10 ^ 9 := by
  have unit : (10 : ℚ) ^ scale ≠ 0 := by positivity
  rw [← units_eq_zero_iff]
  constructor
  · rintro ⟨fixed, answered, zero⟩
    obtain ⟨fixedFinite, exactly⟩ := at_scale_of_fixed finite answered
    rw [Decimal.is_zero_iff fixedFinite, exactly, atScale, mul_eq_zero] at zero
    exact_mod_cast zero.resolve_right unit
  · intro nothing
    obtain ⟨negative, coefficient, answered, exactly⟩ := (to_fixed_rounds finite).1
      (by rw [nothing]; norm_num)
    refine ⟨_, answered, ?_⟩
    rw [Decimal.is_zero_iff rfl, exactly, atScale, nothing, Int.cast_zero, zero_mul]

/-- Every finite number, brought to eight places. Let `count` be the integer nearest to `10 ^ 8`
times the number, a tie going to the even one. If it has at most sixty digits, the answer has the
sign of the number, the magnitude of `count` as its coefficient and eight places, and otherwise the
operation is invalid. An answer is within half a unit of the number, at half a unit its last digit is
even, and it is its own answer. Answers keep the order of the numbers, and opposite numbers have
opposite answers. An answer is zero exactly for numbers of at most half a unit. -/
theorem to_fixed_correctly_rounded (negative : Bool) (coefficient : ℕ) (exponent : ℤ) :
    let value := Decimal.finite negative coefficient exponent
    let count := nearest (value.toRat * 10 ^ 8)
    let fixed := Decimal.finite negative count.natAbs (-8)
    (10 ^ 60 ≤ |count| → toFixed value = .error .invalidOperation) ∧
    (|count| < 10 ^ 60 →
      toFixed value = .ok fixed ∧
      |fixed.toRat - value.toRat| ≤ 5 / 10 ^ 9 ∧
      (|fixed.toRat - value.toRat| = 5 / 10 ^ 9 → Even count.natAbs) ∧
      toFixed fixed = .ok fixed ∧
      ∀ {other otherFixed : Decimal}, other.isFinite = true → toFixed other = .ok otherFixed →
        value.toRat ≤ other.toRat → fixed.toRat ≤ otherFixed.toRat) ∧
    toFixed value.flip = (toFixed value).map Decimal.flip ∧
    ((∃ zero, toFixed value = .ok zero ∧ zero.isZero = true) ↔ |value.toRat| ≤ 5 / 10 ^ 9) := by
  intro value count fixed
  have counted : units (Decimal.finite negative coefficient exponent).toRat = count :=
    units_eq_nearest _
  have worth := fixed_to_rat negative coefficient exponent
  have scaled := to_fixed_finite negative coefficient exponent
  rw [counted] at worth scaled
  refine ⟨?_, ?_, Decimal.Context.quantize_flip _ _, to_fixed_zero_iff rfl⟩
  · intro many
    exact scaled.trans (if_neg many.not_gt)
  · intro few
    have answered : toFixed value = .ok fixed := scaled.trans (if_pos few)
    refine ⟨answered, ?_, ?_, ?_, ?_⟩
    · exact worth ▸ at_scale_error value.toRat
    · intro tie
      rw [Int.natAbs_even, ← counted]
      exact units_even_of_tie (worth ▸ tie)
    · apply to_fixed_at_scale
      rw [Int.abs_eq_natAbs] at few
      exact_mod_cast few
    · intro other otherFixed otherFinite otherAnswered ordered
      exact to_fixed_mono rfl otherFinite answered otherAnswered ordered

/-- Two and a half units go to two, half a unit leaves a zero that keeps the sign, and half a unit on
top of sixty nines carries into a digit too many. -/
theorem halves_at_eight_places :
    toFixed (.finite true 25 (-9)) = .ok (.finite true 2 (-8)) ∧
      toFixed (.finite true 5 (-9)) = .ok (.finite true 0 (-8)) ∧
      toFixed (.finite false (10 ^ 61 - 5) (-9)) = .error .invalidOperation := by
  have two : nearest ((Decimal.finite true 25 (-9)).toRat * 10 ^ 8) = -2 :=
    nearest_eq (by norm_num [Decimal.to_rat_finite, abs_of_neg]) fun _ => by decide
  have nothing : nearest ((Decimal.finite true 5 (-9)).toRat * 10 ^ 8) = 0 :=
    nearest_eq (by norm_num [Decimal.to_rat_finite, abs_of_neg]) fun _ => Even.zero
  have carried : nearest ((Decimal.finite false (10 ^ 61 - 5) (-9)).toRat * 10 ^ 8) = 10 ^ 60 :=
    nearest_eq (by norm_num [Decimal.to_rat_finite, abs_of_neg]) fun _ => by decide
  obtain ⟨-, evenly, -⟩ := to_fixed_correctly_rounded true 25 (-9)
  obtain ⟨-, away, -⟩ := to_fixed_correctly_rounded true 5 (-9)
  obtain ⟨refused, -⟩ := to_fixed_correctly_rounded false (10 ^ 61 - 5) (-9)
  rw [two] at evenly
  rw [nothing] at away
  rw [carried] at refused
  exact ⟨(evenly (by norm_num)).1, (away (by norm_num)).1, refused (by norm_num)⟩

end SpreadWatch.Spread
