import SpreadWatch.Proofs.Spread.Answer

/-!
Spreads move with their prices and fees. Every step of the calculation keeps the order of its
operands, each rounding included, so that there is no limit on the digits of prices and fees. The
price on the long side is both subtracted and divided by; the difference of two scaled prices is
exact, and so the quotient is that of the prices, less one.
-/

namespace SpreadWatch.Spread

open Decimal (Context)

variable {value value' : Decimal} {side : Side}

/-! ### The spread of two prices -/

structure NonNegative (price : Decimal) : Prop where
  finite : price.isFinite = true
  nonneg : 0 ≤ price.toRat

/-- A spread does not rise with the price on the long side, nor fall with that on the short side. -/
theorem spread_of_mono {p q p' q' : ℚ} (worth : 0 < units p) (nonneg : 0 ≤ q')
    (longUp : p ≤ p') (shortDown : q' ≤ q) : spreadOf p' q' ≤ spreadOf p q := by
  have less_one : ∀ {l s : ℤ}, 0 < l → ((s - l : ℤ) : ℚ) / l = (s : ℚ) / l - 1 := by
    intro l s positive
    have nonzero : (l : ℚ) ≠ 0 := by exact_mod_cast positive.ne'
    rw [Int.cast_sub, sub_div, div_self nonzero]
  have longUnits := units_mono longUp
  have positive : (0 : ℚ) < units p := by exact_mod_cast worth
  have longCast : (units p : ℚ) ≤ units p' := by exact_mod_cast longUnits
  have shortCast : (units q' : ℚ) ≤ units q := by exact_mod_cast units_mono shortDown
  have received : (0 : ℚ) ≤ units q' := by exact_mod_cast units_nonneg nonneg
  have quotients : (units q' : ℚ) / units p' ≤ units q / units p :=
    div_le_div₀ (received.trans shortCast) shortCast positive longCast
  apply at_scale_mono
  apply Context.round_mono working_sane
  rw [less_one worth, less_one (worth.trans_le longUnits)]
  exact sub_le_sub_right quotients 1

/-! ### Effective prices -/

theorem Deal.rounded_price_mono {deal deal' : Deal} {quoted fee quoted' fee' : Decimal}
    (priced : Priced quoted) (charged' : Charged fee') (prices : quoted.toRat ≤ quoted'.toRat)
    (factors : deal.exactFactor fee.toRat ≤ deal'.exactFactor fee'.toRat) :
    deal.roundedPrice quoted fee ≤ deal'.roundedPrice quoted' fee' := by
  have rounded := Context.round_mono working_sane factors
  have nonneg : 0 ≤ working.round (deal'.exactFactor fee'.toRat) :=
    Context.round_nonneg (Deal.exact_factor_nonneg charged')
  calc
    quoted.toRat * working.round (deal.exactFactor fee.toRat) ≤
        quoted.toRat * working.round (deal'.exactFactor fee'.toRat) :=
      mul_le_mul_of_nonneg_left rounded priced.positive.le
    _ ≤ quoted'.toRat * working.round (deal'.exactFactor fee'.toRat) :=
      mul_le_mul_of_nonneg_right prices nonneg

namespace Legs

variable {legs legs' : Legs}

/-- Two spreads, of the same side or of different ones, are in the order of their effective
prices. -/
theorem spread_le_of_prices {side side' : Side} (answered : legs.spread side = .ok value)
    (answered' : legs'.spread side' = .ok value')
    (long : legs.roundedLong side ≤ legs'.roundedLong side')
    (short : legs'.roundedShort side' ≤ legs.roundedShort side) :
    value'.toRat ≤ value.toRat := by
  have answers := spread_answers answered
  have answers' := spread_answers answered'
  obtain ⟨valid', -⟩ := prices_of_answer answered'
  rw [answers.number, answers'.number]
  exact spread_of_mono answers.worth (rounded_nonneg valid' side').2 long short

/-- The order of fees in which a spread falls: fees take from what an entry brings, and an exit
spread is what closing costs. -/
def FeesLower : Side → Legs → Legs → Prop
  | .entry, legs, legs' =>
      legs.longFee.toRat ≤ legs'.longFee.toRat ∧ legs.shortFee.toRat ≤ legs'.shortFee.toRat
  | .exit, legs, legs' =>
      legs'.longFee.toRat ≤ legs.longFee.toRat ∧ legs'.shortFee.toRat ≤ legs.shortFee.toRat

theorem factors_of_fees (fees : FeesLower side legs legs') :
    side.longDeal.exactFactor legs.longFee.toRat ≤
        side.longDeal.exactFactor legs'.longFee.toRat ∧
      side.shortDeal.exactFactor legs'.shortFee.toRat ≤
        side.shortDeal.exactFactor legs.shortFee.toRat := by
  cases side with
  | entry => exact ⟨add_le_add_right fees.1 1, sub_le_sub_left fees.2 1⟩
  | exit => exact ⟨sub_le_sub_left fees.1 1, add_le_add_right fees.2 1⟩

structure Lowers (side : Side) (legs legs' : Legs) : Prop where
  longPrice : legs.longPrice.toRat ≤ legs'.longPrice.toRat
  shortPrice : legs'.shortPrice.toRat ≤ legs.shortPrice.toRat
  fees : FeesLower side legs legs'

theorem spread_le_of_lowers (answered : legs.spread side = .ok value)
    (answered' : legs'.spread side = .ok value') (lowers : Lowers side legs legs') :
    value'.toRat ≤ value.toRat := by
  obtain ⟨valid, -⟩ := prices_of_answer answered
  obtain ⟨valid', -⟩ := prices_of_answer answered'
  obtain ⟨longFactors, shortFactors⟩ := factors_of_fees lowers.fees
  apply spread_le_of_prices answered answered'
  · rw [rounded_long_eq, rounded_long_eq]
    apply Context.round_mono working_sane
    exact Deal.rounded_price_mono valid.longPriced valid'.longCharged lowers.longPrice longFactors
  · rw [rounded_short_eq, rounded_short_eq]
    apply Context.round_mono working_sane
    exact Deal.rounded_price_mono valid'.shortPriced valid.shortCharged lowers.shortPrice
      shortFactors

def feeless (legs : Legs) : Legs :=
  { legs with longFee := Decimal.zero, shortFee := Decimal.zero }

theorem entry_lowers_feeless (valid : legs.Valid) : Lowers .entry legs.feeless legs where
  longPrice := le_rfl
  shortPrice := le_rfl
  fees := ⟨Decimal.to_rat_zero ▸ valid.longCharged.nonneg,
    Decimal.to_rat_zero ▸ valid.shortCharged.nonneg⟩

theorem feeless_lowers_exit (valid : legs.Valid) : Lowers .exit legs legs.feeless where
  longPrice := le_rfl
  shortPrice := le_rfl
  fees := ⟨Decimal.to_rat_zero ▸ valid.longCharged.nonneg,
    Decimal.to_rat_zero ▸ valid.shortCharged.nonneg⟩

end Legs

theorem base_le_of_prices {long short long' short' : Decimal} (longNonneg : NonNegative long)
    (shortNonneg : NonNegative short) (longNonneg' : NonNegative long')
    (shortNonneg' : NonNegative short') (answered : base long short = .ok value)
    (answered' : base long' short' = .ok value') (longUp : long.toRat ≤ long'.toRat)
    (shortDown : short'.toRat ≤ short.toRat) : value'.toRat ≤ value.toRat := by
  have answers := base_answers longNonneg.finite shortNonneg.finite longNonneg.nonneg
    shortNonneg.nonneg answered
  have answers' := base_answers longNonneg'.finite shortNonneg'.finite longNonneg'.nonneg
    shortNonneg'.nonneg answered'
  rw [answers.number, answers'.number]
  exact spread_of_mono answers.worth shortNonneg'.nonneg longUp shortDown

/-- Of two spreads that both have answers, the one at the higher price on the long side and the
lower price on the short side is not the larger; higher fees do not raise an entry spread, nor lower
an exit spread, and so without fees the former is largest and the latter smallest. -/
theorem spreads_monotone :
    (∀ {long short long' short' value value' : Decimal},
      NonNegative long → NonNegative short → NonNegative long' → NonNegative short' →
      base long short = .ok value → base long' short' = .ok value' →
      long.toRat ≤ long'.toRat → short'.toRat ≤ short.toRat → value'.toRat ≤ value.toRat) ∧
    (∀ {side : Side} {legs legs' : Legs} {value value' : Decimal},
      legs.spread side = .ok value → legs'.spread side = .ok value' →
      legs.longPrice.toRat ≤ legs'.longPrice.toRat →
      legs'.shortPrice.toRat ≤ legs.shortPrice.toRat →
      Legs.FeesLower side legs legs' → value'.toRat ≤ value.toRat) ∧
    (∀ {legs : Legs} {charged free : Decimal},
      legs.spread .entry = .ok charged → legs.feeless.spread .entry = .ok free →
      charged.toRat ≤ free.toRat) ∧
    (∀ {legs : Legs} {charged free : Decimal},
      legs.spread .exit = .ok charged → legs.feeless.spread .exit = .ok free →
      free.toRat ≤ charged.toRat) := by
  refine ⟨base_le_of_prices, ?_, ?_, ?_⟩
  · intro side legs legs' value value' answered answered' longPrice shortPrice fees
    exact Legs.spread_le_of_lowers answered answered' ⟨longPrice, shortPrice, fees⟩
  · intro legs charged free answered answeredFree
    obtain ⟨valid, -⟩ := Legs.prices_of_answer answered
    exact Legs.spread_le_of_lowers answeredFree answered (Legs.entry_lowers_feeless valid)
  · intro legs charged free answered answeredFree
    obtain ⟨valid, -⟩ := Legs.prices_of_answer answered
    exact Legs.spread_le_of_lowers answered answeredFree (Legs.feeless_lowers_exit valid)

/-- Bought at 200.20 and sold at 200.50, with fees of 0.2 % and 0.1 %. -/
def Legs.dearer : Legs where
  longPrice := .finite false 20020 (-2)
  longFee := .finite false 2 (-3)
  shortPrice := .finite false 20050 (-2)
  shortFee := .finite false 1 (-3)

theorem quoted_against_dearer :
    (Decimal.finite false 149850 scale).toRat ≤ (Decimal.finite false 250000 scale).toRat ∧
      (Decimal.finite true 150000 scale).toRat ≤ (Decimal.finite false 49700 scale).toRat ∧
      (Decimal.finite false 49700 scale).toRat ≤ (Decimal.finite false 250000 scale).toRat ∧
      (Decimal.finite false 250000 scale).toRat ≤ (Decimal.finite false 450701 scale).toRat := by
  obtain ⟨based, legs, entry, exit⟩ := spreads_monotone
  have positive : ∀ coefficient, NonNegative (.finite false coefficient (-2)) := by
    intro coefficient
    exact ⟨rfl, by simp [Decimal.to_rat_finite]⟩
  have longUp : Legs.quoted.longPrice.toRat ≤ Legs.dearer.longPrice.toRat := by
    norm_num [Legs.quoted, Legs.dearer, Decimal.to_rat_finite]
  have feeUp : Legs.quoted.longFee.toRat ≤ Legs.dearer.longFee.toRat := by
    norm_num [Legs.quoted, Legs.dearer, Decimal.to_rat_finite]
  have quotedBase : base Legs.quoted.longPrice Legs.quoted.shortPrice =
      .ok (.finite false 250000 scale) := ok_of_to_option (by decide +kernel)
  have dearerBase : base Legs.dearer.longPrice Legs.dearer.shortPrice =
      .ok (.finite false 149850 scale) := ok_of_to_option (by decide +kernel)
  have quotedEntry : Legs.quoted.spread .entry = .ok (.finite false 49700 scale) :=
    ok_of_to_option (by decide +kernel)
  have dearerEntry : Legs.dearer.spread .entry = .ok (.finite true 150000 scale) :=
    ok_of_to_option (by decide +kernel)
  have freeEntry : Legs.quoted.feeless.spread .entry = .ok (.finite false 250000 scale) :=
    ok_of_to_option (by decide +kernel)
  have quotedExit : Legs.quoted.spread .exit = .ok (.finite false 450701 scale) :=
    ok_of_to_option (by decide +kernel)
  have freeExit : Legs.quoted.feeless.spread .exit = .ok (.finite false 250000 scale) :=
    ok_of_to_option (by decide +kernel)
  exact ⟨based (positive _) (positive _) (positive _) (positive _) quotedBase dearerBase longUp
      le_rfl,
    legs quotedEntry dearerEntry longUp le_rfl ⟨feeUp, le_rfl⟩, entry quotedEntry freeEntry,
    exit quotedExit freeExit⟩

end SpreadWatch.Spread
