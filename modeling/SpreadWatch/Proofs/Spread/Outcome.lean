import SpreadWatch.Proofs.Failure
import SpreadWatch.Proofs.Spread.Deal

/-!
How the calculation of a spread can end, for any prices and fees: with a finite number, with an
engine error, or with a signal of the decimal arithmetic. A NaN never comes out, since one that goes
in is met by a comparison first, and an infinity never does, since it has no eight places.
-/

namespace SpreadWatch

inductive Failure.OfCalculation : Failure → Prop
  | engine (error : EngineError) : OfCalculation (.engine error)
  | decimal (signal : Decimal.Signal) : OfCalculation (.decimal signal)

abbrev Calculates {α : Type} (result : Except Failure α) : Prop :=
  FailsWith Failure.OfCalculation result

theorem calculates_lift {α : Type} (result : Except Decimal.Signal α) :
    Calculates (liftDecimal result) := FailsWith.lift fun signal => .decimal signal

theorem calculates_cause {α : Type} (cause : EngineCause) (message : String) :
    Calculates (.error (.ofCause cause message) : Except Failure α) :=
  FailsWith.error (.engine _)

namespace Decimal.Context

variable {c : Context} {a b d : Decimal}

theorem Rounds.number {v : ℚ} {result : Except Signal Decimal} (rounds : c.Rounds v result)
    (answered : result = .ok d) : d.isNan = false := by
  rcases lt_or_ge |c.round v| c.ceiling with below | above
  · obtain ⟨negative, coefficient, exponent, finite, -⟩ := rounds.1 below
    rw [answered] at finite
    cases finite
    rfl
  · rw [rounds.2 above] at answered
    cases answered

theorem add_number (sane : c.Sane) (numberA : a.isNan = false) (numberB : b.isNan = false)
    (added : c.add a b = .ok d) : d.isNan = false := by
  cases a with
  | nan => cases numberA
  | infinite n₁ =>
      cases b with
      | nan => cases numberB
      | infinite n₂ =>
          simp only [add, nanResult?] at added
          split_ifs at added
          cases added
          rfl
      | finite n₂ c₂ e₂ =>
          cases added
          rfl
  | finite n₁ c₁ e₁ =>
      cases b with
      | nan => cases numberB
      | infinite n₂ =>
          cases added
          rfl
      | finite n₂ c₂ e₂ => exact (add_rounds sane rfl rfl).number added

theorem subtract_number (sane : c.Sane) (numberA : a.isNan = false) (numberB : b.isNan = false)
    (subtracted : c.subtract a b = .ok d) : d.isNan = false := by
  have flipped : b.flip.isNan = false := by
    cases b with
    | nan => cases numberB
    | infinite => rfl
    | finite => rfl
  have added : c.add a b.flip = .ok d := by
    cases a <;> cases b <;> simp only [isNan, Bool.true_eq_false] at numberA numberB <;>
      exact subtracted
  exact add_number sane numberA flipped added

theorem multiply_number (sane : c.Sane) (numberA : a.isNan = false) (numberB : b.isNan = false)
    (multiplied : c.multiply a b = .ok d) : d.isNan = false := by
  cases a with
  | nan => cases numberA
  | infinite n₁ =>
      cases b with
      | nan => cases numberB
      | infinite n₂ =>
          cases multiplied
          rfl
      | finite n₂ c₂ e₂ =>
          simp only [multiply, nanResult?] at multiplied
          split_ifs at multiplied
          cases multiplied
          rfl
  | finite n₁ c₁ e₁ =>
      cases b with
      | nan => cases numberB
      | infinite n₂ =>
          simp only [multiply, nanResult?] at multiplied
          split_ifs at multiplied
          cases multiplied
          rfl
      | finite n₂ c₂ e₂ => exact (multiply_rounds sane rfl rfl).number multiplied

theorem divide_number (sane : c.Sane) (numberA : a.isNan = false) (numberB : b.isNan = false)
    (divided : c.divide a b = .ok d) : d.isNan = false := by
  cases a with
  | nan => cases numberA
  | infinite n₁ =>
      cases b with
      | nan => cases numberB
      | infinite n₂ => cases divided
      | finite n₂ c₂ e₂ =>
          cases divided
          rfl
  | finite n₁ c₁ e₁ =>
      cases b with
      | nan => cases numberB
      | infinite n₂ =>
          cases divided
          rfl
      | finite n₂ c₂ e₂ =>
          cases zero : (finite n₂ c₂ e₂).isZero with
          | false => exact (divide_rounds sane rfl rfl zero).number divided
          | true =>
              have nothing : c₂ = 0 := by simpa [isZero] using zero
              simp only [divide, nanResult?, if_pos nothing] at divided
              cases divided

/-- Only a finite number can be scaled, apart from a NaN. -/
theorem quantize_number (positive : 0 < c.precision) (number : a.isNan = false) {exponent : ℤ}
    (scaled : c.quantize a exponent = .ok d) : d.isFinite = true := by
  cases a with
  | nan => cases number
  | infinite => cases scaled
  | finite negative coefficient place =>
      obtain ⟨units, -, answer⟩ := quantize_finite positive negative coefficient place exponent
      rw [answer] at scaled
      split_ifs at scaled
      cases scaled
      rfl

end Decimal.Context

namespace Spread

open Decimal (Context)

theorem Deal.factor_number {deal : Deal} {fee factor : Decimal} (feeNumber : fee.isNan = false)
    (factored : deal.factor fee = .ok factor) : factor.isNan = false := by
  cases deal with
  | purchase => exact Context.add_number working_sane rfl feeNumber factored
  | sale => exact Context.subtract_number working_sane rfl feeNumber factored

theorem Deal.price_number {deal : Deal} {quoted fee value : Decimal}
    (quotedNumber : quoted.isNan = false) (feeNumber : fee.isNan = false)
    (answered : deal.price (some quoted) (some fee) = .ok value) : value.isNan = false := by
  rw [Deal.price_eq_bind] at answered
  obtain ⟨factor, factored, multiplied⟩ := bind_eq_ok answered
  exact Context.multiply_number working_sane quotedNumber
    (Deal.factor_number feeNumber (lift_decimal_eq_ok factored)) (lift_decimal_eq_ok multiplied)

theorem less_number {a b : Decimal} {answer : Bool} (compared : Decimal.less a b = .ok answer) :
    a.isNan = false ∧ b.isNan = false := by
  cases a <;> cases b <;> first
    | exact ⟨rfl, rfl⟩
    | cases compared

theorem check_price_number {name : String} {price : Option Decimal}
    (passed : checkPrice name price = .ok ()) :
    ∃ value, price = some value ∧ value.isNan = false := by
  cases price with
  | none => cases passed
  | some value =>
      unfold checkPrice at passed
      dsimp only at passed
      obtain ⟨positive, compared, -⟩ := bind_eq_ok passed
      exact ⟨value, rfl, (less_number (lift_decimal_eq_ok compared)).2⟩

theorem check_fee_number {name : String} {fee : Option Decimal}
    (passed : checkFee name fee = .ok ()) : ∃ value, fee = some value ∧ value.isNan = false := by
  cases fee with
  | none => cases passed
  | some value =>
      unfold checkFee at passed
      dsimp only at passed
      obtain ⟨negative, compared, -⟩ := bind_eq_ok passed
      exact ⟨value, rfl, (less_number (lift_decimal_eq_ok compared)).1⟩

theorem base_finite {long short value : Decimal} (longNumber : long.isNan = false)
    (shortNumber : short.isNan = false) (answered : base long short = .ok value) :
    value.isFinite = true := by
  obtain ⟨scaledLong, longScaled, afterLong⟩ := bind_eq_ok answered
  obtain ⟨scaledShort, shortScaled, afterShort⟩ := bind_eq_ok afterLong
  have finiteLong := Context.quantize_number working_sane.digits longNumber
    (lift_decimal_eq_ok longScaled)
  have finiteShort := Context.quantize_number working_sane.digits shortNumber
    (lift_decimal_eq_ok shortScaled)
  dsimp only at afterShort
  split_ifs at afterShort with zero
  · cases afterShort
  · obtain ⟨difference, subtracted, afterDifference⟩ := bind_eq_ok afterShort
    obtain ⟨quotient, divided, scaled⟩ := bind_eq_ok afterDifference
    have differenceNumber := Context.subtract_number working_sane
      (Decimal.number_of_finite finiteShort) (Decimal.number_of_finite finiteLong)
      (lift_decimal_eq_ok subtracted)
    have quotientNumber := Context.divide_number working_sane differenceNumber
      (Decimal.number_of_finite finiteLong) (lift_decimal_eq_ok divided)
    exact Context.quantize_number working_sane.digits quotientNumber (lift_decimal_eq_ok scaled)

theorem spread_finite {side : Side} {longPrice longFee shortPrice shortFee : Option Decimal}
    {value : Decimal} (answered : spread side longPrice longFee shortPrice shortFee = .ok value) :
    value.isFinite = true := by
  obtain ⟨_, longPriced, afterLong⟩ := bind_eq_ok answered
  obtain ⟨_, shortPriced, afterShort⟩ := bind_eq_ok afterLong
  obtain ⟨_, longCharged, afterLongFee⟩ := bind_eq_ok afterShort
  obtain ⟨_, shortCharged, afterShortFee⟩ := bind_eq_ok afterLongFee
  obtain ⟨⟨long, short⟩, effectively, computed⟩ := bind_eq_ok afterShortFee
  obtain ⟨lp, rfl, lpNumber⟩ := check_price_number longPriced
  obtain ⟨sp, rfl, spNumber⟩ := check_price_number shortPriced
  obtain ⟨lf, rfl, lfNumber⟩ := check_fee_number longCharged
  obtain ⟨sf, rfl, sfNumber⟩ := check_fee_number shortCharged
  rw [effective_eq] at effectively
  obtain ⟨first, longAnswer, afterLongPrice⟩ := bind_eq_ok effectively
  obtain ⟨second, shortAnswer, both⟩ := bind_eq_ok afterLongPrice
  cases both
  exact base_finite (Deal.price_number lpNumber lfNumber longAnswer)
    (Deal.price_number spNumber sfNumber shortAnswer) computed

theorem check_price_calculates (name : String) (price : Option Decimal) :
    Calculates (checkPrice name price) := by
  cases price with
  | none => exact calculates_cause _ _
  | some value =>
      unfold checkPrice
      apply FailsWith.bind (calculates_lift _)
      intro positive _
      cases positive with
      | false => exact calculates_cause _ _
      | true => exact FailsWith.ok ()

theorem check_fee_calculates (name : String) (fee : Option Decimal) :
    Calculates (checkFee name fee) := by
  cases fee with
  | none => exact calculates_cause _ _
  | some value =>
      unfold checkFee
      apply FailsWith.bind (calculates_lift _)
      intro negative _
      cases negative with
      | true => exact calculates_cause _ _
      | false =>
          apply FailsWith.bind (calculates_lift _)
          intro below _
          cases below with
          | false => exact calculates_cause _ _
          | true => exact FailsWith.ok ()

theorem Deal.price_calculates (deal : Deal) (quoted fee : Decimal) :
    Calculates (deal.price (some quoted) (some fee)) := by
  rw [Deal.price_eq_bind]
  apply FailsWith.bind (calculates_lift _)
  intro factor _
  exact calculates_lift _

theorem effective_calculates (side : Side) (longPrice longFee shortPrice shortFee : Decimal) :
    Calculates (effective side (some longPrice) (some longFee) (some shortPrice)
      (some shortFee)) := by
  rw [effective_eq]
  apply FailsWith.bind (side.longDeal.price_calculates longPrice longFee)
  intro long _
  apply FailsWith.bind (side.shortDeal.price_calculates shortPrice shortFee)
  intro short _
  exact FailsWith.ok _

theorem base_calculates (long short : Decimal) : Calculates (base long short) := by
  apply FailsWith.bind (calculates_lift _)
  intro scaledLong _
  apply FailsWith.bind (calculates_lift _)
  intro scaledShort _
  dsimp only
  split_ifs
  · exact calculates_cause _ _
  · apply FailsWith.bind (calculates_lift _)
    intro difference _
    apply FailsWith.bind (calculates_lift _)
    intro quotient _
    exact calculates_lift _

theorem spread_calculates (side : Side) (longPrice longFee shortPrice shortFee : Option Decimal) :
    Calculates (spread side longPrice longFee shortPrice shortFee) := by
  apply FailsWith.bind (check_price_calculates _ _)
  intro _ longPriced
  apply FailsWith.bind (check_price_calculates _ _)
  intro _ shortPriced
  apply FailsWith.bind (check_fee_calculates _ _)
  intro _ longCharged
  apply FailsWith.bind (check_fee_calculates _ _)
  intro _ shortCharged
  obtain ⟨lp, rfl, -⟩ := check_price_number longPriced
  obtain ⟨sp, rfl, -⟩ := check_price_number shortPriced
  obtain ⟨lf, rfl, -⟩ := check_fee_number longCharged
  obtain ⟨sf, rfl, -⟩ := check_fee_number shortCharged
  apply FailsWith.bind (effective_calculates side lp lf sp sf)
  intro prices _
  exact base_calculates prices.1 prices.2

end Spread

end SpreadWatch
