import SpreadWatch.Proofs.Spread.Signals

/-!
What a spread is when it has an answer: a function of two rationals, the effective prices as they
are rounded. It has eight places, and the price on the long side is worth at least one unit.
-/

namespace SpreadWatch.Spread

open Decimal (Context)

variable {long short value : Decimal} {side : Side}

def spreadOf (long short : ℚ) : ℚ := atScale (unitQuotient long short)

/-- An answered spread: its prices have few units, the long one has some, and it is the number that
the prices determine, at eight places. -/
structure Answers (long short : ℚ) (value : Decimal) : Prop where
  scalable : Scalable long short
  worth : 0 < units long
  places : ∃ negative coefficient, value = .finite negative coefficient scale
  number : value.toRat = spreadOf long short

theorem base_answers (longFinite : long.isFinite = true) (shortFinite : short.isFinite = true)
    (longNonneg : 0 ≤ long.toRat) (shortNonneg : 0 ≤ short.toRat)
    (answered : base long short = .ok value) : Answers long.toRat short.toRat value := by
  have ends := base_ends longFinite shortFinite longNonneg shortNonneg
  have scalable : Scalable long.toRat short.toRat := by
    by_contra unscalable
    obtain ⟨signal, failed⟩ := ends.signal unscalable
    cases answered.symm.trans failed
  have present : units long.toRat ≠ 0 := by
    intro nothing
    obtain ⟨error, failed⟩ := ends.zeroPrice scalable nothing
    cases answered.symm.trans failed
  have longUnits := units_nonneg longNonneg
  have shortUnits := units_nonneg shortNonneg
  have longFew := scalable.longFew
  have shortFew := scalable.shortFew
  obtain ⟨quotient, computed, finite, rounded⟩ := base_of_units longFinite shortFinite present
    longFew shortFew (by rw [abs_lt] at longFew shortFew ⊢; omega)
  have quotientIs : quotient.toRat = unitQuotient long.toRat short.toRat := rounded
  obtain ⟨negative, coefficient, scaled, exactly⟩ := (to_fixed_rounds finite).1
    (quotientIs ▸ scalable.quotientFew present)
  have same : value = .finite negative coefficient scale := by
    rw [computed, scaled] at answered
    exact (Except.ok.inj answered).symm
  refine ⟨scalable, longUnits.lt_of_ne' present, ⟨negative, coefficient, same⟩, ?_⟩
  rw [same, exactly, quotientIs, spreadOf]

/-- An effective price that has an answer is the price times the rounded factor, rounded. -/
theorem Deal.price_answered {deal : Deal} {quoted fee : Decimal} (priced : Priced quoted)
    (charged : Charged fee) (answered : deal.price (some quoted) (some fee) = .ok value) :
    value.isFinite = true ∧ value.toRat = working.round (deal.roundedPrice quoted fee) := by
  have carries := deal.price_carries priced charged
  by_cases below : |working.round (deal.roundedPrice quoted fee)| < working.ceiling
  · obtain ⟨price, found, finite, rounded⟩ := carries_answers carries below
    cases answered.symm.trans found
    exact ⟨finite, rounded⟩
  · obtain ⟨signal, failed⟩ := carries_overflows carries below
    cases answered.symm.trans failed

namespace Legs

variable {legs : Legs}

theorem rounded_nonneg (valid : legs.Valid) (side : Side) :
    0 ≤ legs.roundedLong side ∧ 0 ≤ legs.roundedShort side := by
  rw [rounded_long_eq, rounded_short_eq]
  exact ⟨Context.round_nonneg (Deal.rounded_price_nonneg valid.longPriced valid.longCharged),
    Context.round_nonneg (Deal.rounded_price_nonneg valid.shortPriced valid.shortCharged)⟩

/-- Behind an answered spread are two effective prices, which are its rounded ones. -/
theorem prices_of_answer (answered : legs.spread side = .ok value) :
    legs.Valid ∧ ∃ long short, effective side (some legs.longPrice) (some legs.longFee)
        (some legs.shortPrice) (some legs.shortFee) = .ok (long, short) ∧
      base long short = .ok value ∧
      long.isFinite = true ∧ long.toRat = legs.roundedLong side ∧
      short.isFinite = true ∧ short.toRat = legs.roundedShort side := by
  have valid := ((legs.spread_answers_iff side).mp ⟨value, answered⟩).valid
  rw [legs.spread_eq, check_price_passes valid.longPriced, check_price_passes valid.shortPriced,
    check_fee_passes valid.longCharged, check_fee_passes valid.shortCharged] at answered
  have computed : legs.computed side = .ok value := answered
  obtain ⟨long, longAnswer, afterLong⟩ := bind_eq_ok computed
  obtain ⟨short, shortAnswer, based⟩ := bind_eq_ok afterLong
  obtain ⟨longFinite, longRound⟩ :=
    Deal.price_answered valid.longPriced valid.longCharged longAnswer
  obtain ⟨shortFinite, shortRound⟩ :=
    Deal.price_answered valid.shortPriced valid.shortCharged shortAnswer
  rw [rounded_long_eq, rounded_short_eq]
  refine ⟨valid, long, short, ?_, based, longFinite, longRound, shortFinite, shortRound⟩
  rw [effective_eq, longAnswer, shortAnswer]
  rfl

theorem spread_answers (answered : legs.spread side = .ok value) :
    Answers (legs.roundedLong side) (legs.roundedShort side) value := by
  obtain ⟨valid, long, short, -, based, longFinite, longRound, shortFinite, shortRound⟩ :=
    prices_of_answer answered
  obtain ⟨longNonneg, shortNonneg⟩ := rounded_nonneg valid side
  have answers := base_answers longFinite shortFinite (longRound ▸ longNonneg)
    (shortRound ▸ shortNonneg) based
  rwa [longRound, shortRound] at answers

end Legs

/-- Absent numbers do not pass the checks, so an answer comes from four numbers that are there. -/
theorem legs_of_answer {longPrice longFee shortPrice shortFee : Option Decimal}
    (answered : spread side longPrice longFee shortPrice shortFee = .ok value) :
    ∃ legs : Legs, longPrice = some legs.longPrice ∧ longFee = some legs.longFee ∧
      shortPrice = some legs.shortPrice ∧ shortFee = some legs.shortFee ∧
      legs.spread side = .ok value := by
  obtain ⟨_, longPriced, afterLong⟩ := bind_eq_ok answered
  obtain ⟨_, shortPriced, afterShort⟩ := bind_eq_ok afterLong
  obtain ⟨_, longCharged, afterLongFee⟩ := bind_eq_ok afterShort
  obtain ⟨_, shortCharged, -⟩ := bind_eq_ok afterLongFee
  obtain ⟨lp, rfl, -⟩ := check_price_number longPriced
  obtain ⟨sp, rfl, -⟩ := check_price_number shortPriced
  obtain ⟨lf, rfl, -⟩ := check_fee_number longCharged
  obtain ⟨sf, rfl, -⟩ := check_fee_number shortCharged
  exact ⟨⟨lp, lf, sp, sf⟩, rfl, rfl, rfl, rfl, answered⟩

end SpreadWatch.Spread
