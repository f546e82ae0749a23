import SpreadWatch.Proofs.Spread.Exact
import SpreadWatch.Proofs.Spread.Outcome

/-!
When a spread has an answer, for any numbers at all. The checks have no answer for a NaN and let an
infinite price through. The calculation behind them has none for an infinite price, and otherwise
none exactly if an effective price or the quotient needs more digits at eight places than the
working precision has.
-/

namespace SpreadWatch.Spread

open Decimal (Context)

def Signals {α : Type} (result : Except Failure α) : Prop :=
  ∃ signal, result = .error (.decimal signal)

section Steps

variable {α β : Type}

theorem signals_bind {x : Except Failure α} {f : α → Except Failure β} :
    Signals (x >>= f) ↔ Signals x ∨ ∃ a, x = .ok a ∧ Signals (f a) := by
  cases x with
  | ok a => simp [Signals, bind, Except.bind]
  | error failure => simp [Signals, bind, Except.bind]

theorem signals_lift {result : Except Decimal.Signal α} :
    Signals (liftDecimal result) ↔ ∃ signal, result = .error signal := by
  cases result with
  | ok a => simp [Signals, liftDecimal, Except.mapError]
  | error signal => simp [Signals, liftDecimal, Except.mapError]

theorem lift_decimal_ok {result : Except Decimal.Signal α} {a : α} :
    liftDecimal result = .ok a ↔ result = .ok a := by
  cases result with
  | ok b => simp [liftDecimal, Except.mapError]
  | error signal => simp [liftDecimal, Except.mapError]

end Steps

/-! ### Checks -/

/-- How a check ends: without an answer, passed, or refused with an engine error. -/
inductive Checked (unanswered passes : Prop) (result : Except Failure Unit) : Prop
  | signal (nan : unanswered) (fails : ¬ passes) (ended : Signals result)
  | passed (number : ¬ unanswered) (fine : passes) (ended : result = .ok ())
  | refused (number : ¬ unanswered) (fails : ¬ passes) (error : EngineError)
      (ended : result = .error (.engine error))

namespace Checked

variable {unanswered passes : Prop} {result : Except Failure Unit}

theorem signals_iff (checked : Checked unanswered passes result) :
    Signals result ↔ unanswered := by
  cases checked with
  | signal nan fails ended => exact ⟨fun _ => nan, fun _ => ended⟩
  | passed number fine ended => simp [ended, Signals, number]
  | refused number fails error ended => simp [ended, Signals, number]

theorem passes_iff (checked : Checked unanswered passes result) : result = .ok () ↔ passes := by
  cases checked with
  | signal nan fails ended =>
      obtain ⟨signal, ended⟩ := ended
      simp [ended, fails]
  | passed number fine ended => simp [ended, fine]
  | refused number fails error ended => simp [ended, fails]

theorem signals_then {α : Type} (checked : Checked unanswered passes result)
    (rest : Except Failure α) :
    Signals (result >>= fun _ => rest) ↔ unanswered ∨ passes ∧ Signals rest := by
  rw [signals_bind, checked.signals_iff, ← checked.passes_iff]
  exact or_congr_right ⟨fun ⟨_, fine, later⟩ => ⟨fine, later⟩,
    fun ⟨fine, later⟩ => ⟨(), fine, later⟩⟩

theorem answers_then {α : Type} (checked : Checked unanswered passes result)
    (rest : Except Failure α) :
    (∃ value, (result >>= fun _ => rest) = .ok value) ↔ passes ∧ ∃ value, rest = .ok value := by
  rw [← checked.passes_iff]
  constructor
  · rintro ⟨value, answered⟩
    obtain ⟨_, fine, later⟩ := bind_eq_ok answered
    exact ⟨fine, value, later⟩
  · rintro ⟨fine, value, later⟩
    exact ⟨value, by rw [fine, ← later]; rfl⟩

end Checked

/-- A price that passes its check. It may be infinite. -/
def Positive (price : Decimal) : Prop := price = .infinite false ∨ Priced price

theorem check_price_ends (name : String) (price : Decimal) :
    Checked (price.isNan = true) (Positive price) (checkPrice name (some price)) := by
  cases price with
  | nan negative signaling payload =>
      refine .signal rfl ?_ ⟨.invalidOperation, rfl⟩
      rintro (same | priced)
      · cases same
      · cases priced.finite
  | infinite negative =>
      cases negative with
      | false => exact .passed (by decide) (.inl rfl) rfl
      | true =>
          refine .refused (by decide) ?_ _ rfl
          rintro (same | priced)
          · cases same
          · cases priced.finite
  | finite negative coefficient exponent =>
      set price := Decimal.finite negative coefficient exponent
      have number : ¬ price.isNan = true := Bool.false_ne_true
      by_cases positive : 0 < price.toRat
      · exact .passed number (.inr ⟨rfl, positive⟩) (check_price_passes ⟨rfl, positive⟩ name)
      · have less : Decimal.less Decimal.zero price = .ok false := by
          rw [Decimal.less_finite rfl rfl, Decimal.to_rat_zero, decide_eq_false positive]
        have ended : ∃ error, checkPrice name (some price) = .error (.engine error) := by
          simp only [checkPrice, less, liftDecimal, Except.mapError, bind, Except.bind]
          exact ⟨_, rfl⟩
        obtain ⟨error, ended⟩ := ended
        refine .refused number ?_ error ended
        rintro (same | priced)
        · simp only [price, reduceCtorEq] at same
        · exact positive priced.positive

theorem check_fee_ends (name : String) (fee : Decimal) :
    Checked (fee.isNan = true) (Charged fee) (checkFee name (some fee)) := by
  cases fee with
  | nan negative signaling payload =>
      exact .signal rfl (fun charged => Bool.false_ne_true charged.finite) ⟨.invalidOperation, rfl⟩
  | infinite negative =>
      have uncharged : ∀ sign, ¬ Charged (.infinite sign) := fun sign charged =>
        Bool.false_ne_true charged.finite
      cases negative with
      | false => exact .refused (by decide) (uncharged false) _ rfl
      | true => exact .refused (by decide) (uncharged true) _ rfl
  | finite sign coefficient exponent =>
      set fee := Decimal.finite sign coefficient exponent
      have number : ¬ fee.isNan = true := Bool.false_ne_true
      have nonneg : Decimal.less fee Decimal.zero = .ok (decide (fee.toRat < 0)) := by
        rw [Decimal.less_finite rfl rfl, Decimal.to_rat_zero]
      have below : Decimal.less fee Decimal.one = .ok (decide (fee.toRat < 1)) := by
        rw [Decimal.less_finite rfl rfl, Decimal.to_rat_one]
      by_cases charged : Charged fee
      · exact .passed number charged (check_fee_passes charged name)
      · have ended : ∃ error, checkFee name (some fee) = .error (.engine error) := by
          by_cases negative : fee.toRat < 0
          · simp only [checkFee, nonneg, decide_eq_true negative, liftDecimal, Except.mapError,
              bind, Except.bind]
            exact ⟨_, rfl⟩
          · have large : ¬ fee.toRat < 1 := fun small => charged ⟨rfl, not_lt.mp negative, small⟩
            simp only [checkFee, nonneg, below, decide_eq_false negative, decide_eq_false large,
              liftDecimal, Except.mapError, bind, Except.bind]
            exact ⟨_, rfl⟩
        obtain ⟨error, ended⟩ := ended
        exact .refused number charged error ended

/-! ### The spread of two effective prices -/

/-- The quotient of two prices by their units, before it is brought to eight places. -/
def unitQuotient (long short : ℚ) : ℚ :=
  working.round (((units short - units long : ℤ) : ℚ) / units long)

/-- Two prices and their quotient have no more digits at eight places than the working precision. -/
structure Scalable (long short : ℚ) : Prop where
  longFew : |units long| < 10 ^ 60
  shortFew : |units short| < 10 ^ 60
  quotientFew : units long ≠ 0 → |units (unitQuotient long short)| < 10 ^ 60

/-- The three ways in which the calculation with certain prices can end. -/
structure EndsBy (long short : ℚ) (result : Except Failure Decimal) : Prop where
  signal : ¬ Scalable long short → Signals result
  zeroPrice : Scalable long short → units long = 0 → ∃ error, result = .error (.engine error)
  answer : Scalable long short → units long ≠ 0 → ∃ value, result = .ok value

theorem to_fixed_signals {value : Decimal} (finite : value.isFinite = true)
    (many : ¬ |units value.toRat| < 10 ^ 60) : toFixed value = .error .invalidOperation :=
  (to_fixed_rounds finite).2 (not_lt.mp many)

theorem to_fixed_answers {value : Decimal} (finite : value.isFinite = true)
    (few : |units value.toRat| < 10 ^ 60) : ∃ scaled, toFixed value = .ok scaled := by
  obtain ⟨negative, coefficient, scaled, -⟩ := (to_fixed_rounds finite).1 few
  exact ⟨_, scaled⟩

theorem base_ends {long short : Decimal} (longFinite : long.isFinite = true)
    (shortFinite : short.isFinite = true) (longNonneg : 0 ≤ long.toRat)
    (shortNonneg : 0 ≤ short.toRat) : EndsBy long.toRat short.toRat (base long short) := by
  by_cases longFew : |units long.toRat| < 10 ^ 60
  case neg =>
    have failed : Signals (base long short) := by
      unfold base
      exact signals_bind.mpr (.inl (signals_lift.mpr ⟨_, to_fixed_signals longFinite longFew⟩))
    exact ⟨fun _ => failed, fun scalable => absurd scalable.longFew longFew,
      fun scalable => absurd scalable.longFew longFew⟩
  by_cases shortFew : |units short.toRat| < 10 ^ 60
  case neg =>
    obtain ⟨scaledLong, scaled⟩ := to_fixed_answers longFinite longFew
    have failed : Signals (base long short) := by
      unfold base
      exact signals_bind.mpr (.inr ⟨scaledLong, lift_decimal_ok.mpr scaled, signals_bind.mpr
        (.inl (signals_lift.mpr ⟨_, to_fixed_signals shortFinite shortFew⟩))⟩)
    exact ⟨fun _ => failed, fun scalable => absurd scalable.shortFew shortFew,
      fun scalable => absurd scalable.shortFew shortFew⟩
  by_cases nothing : units long.toRat = 0
  · have failed := zero_price_of_base longFinite shortFinite nothing shortFew
    have scalable : Scalable long.toRat short.toRat :=
      ⟨longFew, shortFew, fun present => absurd nothing present⟩
    exact ⟨fun refused => absurd scalable refused, fun _ _ => ⟨_, failed⟩,
      fun _ present => absurd nothing present⟩
  · have longUnits := units_nonneg longNonneg
    have shortUnits := units_nonneg shortNonneg
    obtain ⟨quotient, computed, finite, rounded⟩ := base_of_units longFinite shortFinite nothing
      longFew shortFew (by rw [abs_lt] at longFew shortFew ⊢; omega)
    have sameUnits : units quotient.toRat = units (unitQuotient long.toRat short.toRat) := by
      rw [rounded, unitQuotient]
    rw [computed]
    refine ⟨fun refused => ?_, fun _ none => absurd none nothing, fun scalable present => ?_⟩
    · refine signals_lift.mpr ⟨_, to_fixed_signals finite fun few => refused ?_⟩
      rw [sameUnits] at few
      exact ⟨longFew, shortFew, fun _ => few⟩
    · obtain ⟨scaled, answered⟩ :=
        to_fixed_answers finite (sameUnits ▸ scalable.quotientFew present)
      exact ⟨scaled, lift_decimal_ok.mpr answered⟩

/-! ### Effective prices -/

/-- An effective price is a number, correctly rounded, or the overflow that it is in for. -/
def Carries (v : ℚ) (result : Except Failure Decimal) : Prop :=
  ∃ inner, result = liftDecimal inner ∧ working.Rounds v inner

/-- An effective price that nothing can be made of: a signal or an infinity. -/
def Hopeless (result : Except Failure Decimal) : Prop :=
  Signals result ∨ ∃ negative, result = .ok (.infinite negative)

def Deal.roundedPrice (deal : Deal) (quoted fee : Decimal) : ℚ :=
  quoted.toRat * working.round (deal.exactFactor fee.toRat)

theorem Deal.rounded_price_nonneg {deal : Deal} {quoted fee : Decimal} (priced : Priced quoted)
    (charged : Charged fee) : 0 ≤ deal.roundedPrice quoted fee :=
  mul_nonneg priced.positive.le (Context.round_nonneg (Deal.exact_factor_nonneg charged))

theorem Deal.price_carries (deal : Deal) {quoted fee : Decimal} (priced : Priced quoted)
    (charged : Charged fee) :
    Carries (deal.roundedPrice quoted fee) (deal.price (some quoted) (some fee)) := by
  obtain ⟨factor, factored, finite, rounded⟩ := deal.factor_answers charged
  refine ⟨_, Deal.price_eq factored, ?_⟩
  rw [Deal.roundedPrice, ← rounded]
  exact Context.multiply_rounds working_sane priced.finite finite

theorem multiply_infinite_hopeless {factor : Decimal} (finite : factor.isFinite = true) :
    Hopeless (liftDecimal (working.multiply (.infinite false) factor)) := by
  cases factor with
  | nan => cases finite
  | infinite => cases finite
  | finite negative coefficient exponent =>
      simp only [Context.multiply, Context.nanResult?]
      split_ifs
      · exact .inl ⟨_, rfl⟩
      · exact .inr ⟨_, rfl⟩

theorem Deal.price_lifted (deal : Deal) {fee : Decimal} (charged : Charged fee)
    (quoted : Decimal) : ∃ inner, deal.price (some quoted) (some fee) = liftDecimal inner := by
  obtain ⟨factor, factored, -⟩ := deal.factor_answers charged
  exact ⟨_, Deal.price_eq factored⟩

theorem Deal.price_hopeless (deal : Deal) {fee : Decimal} (charged : Charged fee) :
    Hopeless (deal.price (some (.infinite false)) (some fee)) := by
  obtain ⟨factor, factored, finite, -⟩ := deal.factor_answers charged
  rw [Deal.price_eq factored]
  exact multiply_infinite_hopeless finite

/-- Without a price on one side there is no spread. -/
theorem hopeless_signals {long short : Except Failure Decimal} {longInner shortInner}
    (longLifted : long = liftDecimal longInner) (shortLifted : short = liftDecimal shortInner)
    (hopeless : Hopeless long ∨ Hopeless short) :
    Signals (long >>= fun first => short >>= fun second => base first second) := by
  have infinite : ∀ negative, Signals (liftDecimal (toFixed (.infinite negative))) :=
    fun negative => ⟨.invalidOperation, rfl⟩
  rw [signals_bind]
  cases longInner with
  | error signal => exact .inl (longLifted ▸ signals_lift.mpr ⟨signal, rfl⟩)
  | ok first =>
  refine .inr ⟨first, longLifted.trans rfl, ?_⟩
  rw [signals_bind]
  cases shortInner with
  | error signal => exact .inl (shortLifted ▸ signals_lift.mpr ⟨signal, rfl⟩)
  | ok second =>
  refine .inr ⟨second, shortLifted.trans rfl, ?_⟩
  have calm : ∀ {result value}, result = liftDecimal (.ok value) → Hopeless result →
      ∃ negative, value = .infinite negative := by
    rintro result value lifted (⟨signal, failed⟩ | ⟨negative, answered⟩)
    · rw [lifted] at failed
      cases failed
    · rw [lifted] at answered
      cases answered
      exact ⟨negative, rfl⟩
  unfold base
  rw [signals_bind]
  rcases hopeless with longHopeless | shortHopeless
  · obtain ⟨negative, rfl⟩ := calm longLifted longHopeless
    exact .inl (infinite negative)
  · obtain ⟨negative, rfl⟩ := calm shortLifted shortHopeless
    cases scaled : toFixed first with
    | error signal => exact .inl ⟨signal, rfl⟩
    | ok scaledLong => exact .inr ⟨scaledLong, rfl, signals_bind.mpr (.inl (infinite negative))⟩

theorem below_ceiling {q : ℚ} (few : |units q| < 10 ^ 60) : |q| < working.ceiling := by
  by_contra above
  rw [not_lt] at above
  have large : ((10 ^ 60 : ℤ) : ℚ) * 10 ^ scale ≤ |q| := by
    refine (le_trans ?_ ceiling_large).trans above
    norm_num [scale]
  have many : 10 ^ 60 ≤ |units q| := by
    have magnitude : units |q| = |units q| := by
      rcases le_total 0 q with nonneg | nonpos
      · rw [abs_of_nonneg nonneg, abs_of_nonneg (units_nonneg nonneg)]
      · have nonneg := units_nonneg (neg_nonneg.mpr nonpos)
        rw [units_neg] at nonneg
        rw [abs_of_nonpos nonpos, units_neg, abs_of_nonpos (neg_nonneg.mp nonneg)]
    rw [← magnitude, ← units_at_scale (10 ^ 60)]
    exact units_mono large
  exact absurd few (not_lt.mpr many)

theorem carries_answers {v : ℚ} {result : Except Failure Decimal} (carries : Carries v result)
    (below : |working.round v| < working.ceiling) :
    ∃ value, result = .ok value ∧ value.isFinite = true ∧ value.toRat = working.round v := by
  obtain ⟨inner, lifted, rounds⟩ := carries
  obtain ⟨negative, coefficient, exponent, answered, exactly⟩ := rounds.1 below
  exact ⟨_, lifted.trans (lift_decimal_ok.mpr answered), rfl, exactly⟩

theorem carries_overflows {v : ℚ} {result : Except Failure Decimal} (carries : Carries v result)
    (above : ¬ |working.round v| < working.ceiling) : Signals result := by
  obtain ⟨inner, lifted, rounds⟩ := carries
  exact lifted ▸ signals_lift.mpr ⟨_, rounds.2 (not_lt.mp above)⟩

theorem carried_ends {p q : ℚ} {long short : Except Failure Decimal} (longCarries : Carries p long)
    (shortCarries : Carries q short) (longNonneg : 0 ≤ p) (shortNonneg : 0 ≤ q) :
    EndsBy (working.round p) (working.round q)
      (long >>= fun first => short >>= fun second => base first second) := by
  by_cases both : |working.round p| < working.ceiling ∧ |working.round q| < working.ceiling
  · obtain ⟨first, longAnswer, longFinite, longRound⟩ := carries_answers longCarries both.1
    obtain ⟨second, shortAnswer, shortFinite, shortRound⟩ := carries_answers shortCarries both.2
    have ends := base_ends longFinite shortFinite (longRound ▸ Context.round_nonneg longNonneg)
      (shortRound ▸ Context.round_nonneg shortNonneg)
    rw [longRound, shortRound] at ends
    rw [longAnswer, shortAnswer]
    exact ends
  · have unscalable : ¬ Scalable (working.round p) (working.round q) := fun scalable =>
      both ⟨below_ceiling scalable.longFew, below_ceiling scalable.shortFew⟩
    refine ⟨fun _ => ?_, fun scalable => absurd scalable unscalable,
      fun scalable => absurd scalable unscalable⟩
    obtain ⟨longInner, longLifted, -⟩ := id longCarries
    obtain ⟨shortInner, shortLifted, -⟩ := id shortCarries
    apply hopeless_signals longLifted shortLifted
    by_cases below : |working.round p| < working.ceiling
    · exact .inr (.inl (carries_overflows shortCarries fun fine => both ⟨below, fine⟩))
    · exact .inl (.inl (carries_overflows longCarries below))

/-! ### Entry and exit spreads -/

def roundedPaid (price fee : Decimal) : ℚ :=
  price.toRat * working.round (1 + fee.toRat)

def roundedReceived (price fee : Decimal) : ℚ :=
  price.toRat * working.round (1 - fee.toRat)

namespace Legs

variable {legs : Legs} {side : Side}

def roundedLong (legs : Legs) : Side → ℚ
  | .entry => working.round (roundedPaid legs.longPrice legs.longFee)
  | .exit => working.round (roundedReceived legs.longPrice legs.longFee)

def roundedShort (legs : Legs) : Side → ℚ
  | .entry => working.round (roundedReceived legs.shortPrice legs.shortFee)
  | .exit => working.round (roundedPaid legs.shortPrice legs.shortFee)

theorem rounded_long_eq (legs : Legs) (side : Side) : legs.roundedLong side =
    working.round (side.longDeal.roundedPrice legs.longPrice legs.longFee) := by
  cases side <;> rfl

theorem rounded_short_eq (legs : Legs) (side : Side) : legs.roundedShort side =
    working.round (side.shortDeal.roundedPrice legs.shortPrice legs.shortFee) := by
  cases side <;> rfl

def computed (legs : Legs) (side : Side) : Except Failure Decimal :=
  side.longDeal.price (some legs.longPrice) (some legs.longFee) >>= fun long =>
    side.shortDeal.price (some legs.shortPrice) (some legs.shortFee) >>= fun short =>
      base long short

theorem spread_eq (legs : Legs) (side : Side) :
    legs.spread side = (checkPrice side.priceNames.1 (some legs.longPrice) >>= fun _ =>
      checkPrice side.priceNames.2 (some legs.shortPrice) >>= fun _ =>
      checkFee "long_fee" (some legs.longFee) >>= fun _ =>
      checkFee "short_fee" (some legs.shortFee) >>= fun _ => legs.computed side) := by
  have same : (effective side (some legs.longPrice) (some legs.longFee) (some legs.shortPrice)
      (some legs.shortFee) >>= fun prices => base prices.1 prices.2) = legs.computed side := by
    rw [effective_eq, computed]
    cases side.longDeal.price (some legs.longPrice) (some legs.longFee) <;>
      cases side.shortDeal.price (some legs.shortPrice) (some legs.shortFee) <;> rfl
  rw [← same]
  rfl

inductive Unanswered (legs : Legs) (side : Side) : Prop
  | longNan (nan : legs.longPrice.isNan = true)
  | shortNan (longPositive : Positive legs.longPrice) (nan : legs.shortPrice.isNan = true)
  | longFeeNan (longPositive : Positive legs.longPrice) (shortPositive : Positive legs.shortPrice)
      (nan : legs.longFee.isNan = true)
  | shortFeeNan (longPositive : Positive legs.longPrice) (shortPositive : Positive legs.shortPrice)
      (longCharged : Charged legs.longFee) (nan : legs.shortFee.isNan = true)
  | infinite (longPositive : Positive legs.longPrice) (shortPositive : Positive legs.shortPrice)
      (longCharged : Charged legs.longFee) (shortCharged : Charged legs.shortFee)
      (infinity : legs.longPrice = .infinite false ∨ legs.shortPrice = .infinite false)
  | large (valid : legs.Valid)
      (unscalable : ¬ Scalable (legs.roundedLong side) (legs.roundedShort side))

structure Answered (legs : Legs) (side : Side) : Prop where
  valid : legs.Valid
  scalable : Scalable (legs.roundedLong side) (legs.roundedShort side)
  worth : units (legs.roundedLong side) ≠ 0

theorem computed_ends (valid : legs.Valid) (side : Side) :
    EndsBy (legs.roundedLong side) (legs.roundedShort side) (legs.computed side) := by
  rw [rounded_long_eq, rounded_short_eq]
  exact carried_ends (side.longDeal.price_carries valid.longPriced valid.longCharged)
    (side.shortDeal.price_carries valid.shortPriced valid.shortCharged)
    (Deal.rounded_price_nonneg valid.longPriced valid.longCharged)
    (Deal.rounded_price_nonneg valid.shortPriced valid.shortCharged)

theorem computed_of_infinite (longCharged : Charged legs.longFee)
    (shortCharged : Charged legs.shortFee)
    (infinity : legs.longPrice = .infinite false ∨ legs.shortPrice = .infinite false)
    (side : Side) : Signals (legs.computed side) := by
  obtain ⟨longInner, longLifted⟩ := side.longDeal.price_lifted longCharged legs.longPrice
  obtain ⟨shortInner, shortLifted⟩ := side.shortDeal.price_lifted shortCharged legs.shortPrice
  apply hopeless_signals longLifted shortLifted
  rcases infinity with long | short
  · left
    rw [long]
    exact side.longDeal.price_hopeless longCharged
  · right
    rw [short]
    exact side.shortDeal.price_hopeless shortCharged

theorem valid_or_infinite (longPositive : Positive legs.longPrice)
    (shortPositive : Positive legs.shortPrice) (longCharged : Charged legs.longFee)
    (shortCharged : Charged legs.shortFee) :
    legs.Valid ∨ legs.longPrice = .infinite false ∨ legs.shortPrice = .infinite false := by
  rcases longPositive with long | longPriced
  · exact .inr (.inl long)
  rcases shortPositive with short | shortPriced
  · exact .inr (.inr short)
  exact .inl ⟨longPriced, longCharged, shortPriced, shortCharged⟩

/-- The decimal arithmetic signals exactly if a NaN reaches a check, if an infinite price passes all
checks, or if there is not enough room for a price or for the quotient at eight places. -/
theorem spread_signals_iff (legs : Legs) (side : Side) :
    Signals (legs.spread side) ↔ legs.Unanswered side := by
  rw [spread_eq, (check_price_ends _ _).signals_then, (check_price_ends _ _).signals_then,
    (check_fee_ends _ _).signals_then, (check_fee_ends _ _).signals_then]
  constructor
  · rintro (nan | ⟨longPositive, nan | ⟨shortPositive, nan | ⟨longCharged, nan |
      ⟨shortCharged, signals⟩⟩⟩⟩)
    · exact .longNan nan
    · exact .shortNan longPositive nan
    · exact .longFeeNan longPositive shortPositive nan
    · exact .shortFeeNan longPositive shortPositive longCharged nan
    rcases valid_or_infinite longPositive shortPositive longCharged shortCharged with
      valid | infinity
    · refine .large valid fun scalable => ?_
      have ends := computed_ends valid side
      obtain ⟨signal, failed⟩ := signals
      by_cases worthless : units (legs.roundedLong side) = 0
      · obtain ⟨error, ended⟩ := ends.zeroPrice scalable worthless
        rw [ended] at failed
        cases failed
      · obtain ⟨value, ended⟩ := ends.answer scalable worthless
        rw [ended] at failed
        cases failed
    · exact .infinite longPositive shortPositive longCharged shortCharged infinity
  · intro unanswered
    cases unanswered with
    | longNan nan => exact .inl nan
    | shortNan longPositive nan => exact .inr ⟨longPositive, .inl nan⟩
    | longFeeNan longPositive shortPositive nan =>
        exact .inr ⟨longPositive, .inr ⟨shortPositive, .inl nan⟩⟩
    | shortFeeNan longPositive shortPositive longCharged nan =>
        exact .inr ⟨longPositive, .inr ⟨shortPositive, .inr ⟨longCharged, .inl nan⟩⟩⟩
    | infinite longPositive shortPositive longCharged shortCharged infinity =>
        exact .inr ⟨longPositive, .inr ⟨shortPositive, .inr ⟨longCharged, .inr
          ⟨shortCharged, computed_of_infinite longCharged shortCharged infinity side⟩⟩⟩⟩
    | large valid unscalable =>
        exact .inr ⟨.inr valid.longPriced, .inr ⟨.inr valid.shortPriced,
          .inr ⟨valid.longCharged, .inr ⟨valid.shortCharged,
            (computed_ends valid side).signal unscalable⟩⟩⟩⟩

/-- A spread has an answer exactly if all numbers pass their checks and are finite, there is enough
room at eight places, and something is left of the price on the long side. -/
theorem spread_answers_iff (legs : Legs) (side : Side) :
    (∃ value, legs.spread side = .ok value) ↔ legs.Answered side := by
  rw [spread_eq, (check_price_ends _ _).answers_then, (check_price_ends _ _).answers_then,
    (check_fee_ends _ _).answers_then, (check_fee_ends _ _).answers_then]
  constructor
  · rintro ⟨longPositive, shortPositive, longCharged, shortCharged, value, answered⟩
    rcases valid_or_infinite longPositive shortPositive longCharged shortCharged with
      valid | infinity
    · have ends := computed_ends valid side
      have scalable : Scalable (legs.roundedLong side) (legs.roundedShort side) := by
        by_contra unscalable
        obtain ⟨signal, failed⟩ := ends.signal unscalable
        rw [failed] at answered
        cases answered
      refine ⟨valid, scalable, fun worthless => ?_⟩
      obtain ⟨error, failed⟩ := ends.zeroPrice scalable worthless
      rw [failed] at answered
      cases answered
    · obtain ⟨signal, failed⟩ := computed_of_infinite longCharged shortCharged infinity side
      rw [failed] at answered
      cases answered
  · rintro ⟨valid, scalable, worth⟩
    exact ⟨.inr valid.longPriced, .inr valid.shortPriced, valid.longCharged, valid.shortCharged,
      (computed_ends valid side).answer scalable worth⟩

end Legs

end SpreadWatch.Spread
