import SpreadWatch.Calendar.Iso
import SpreadWatch.Proofs.Calendar.Reading
import SpreadWatch.Proofs.Freshness.Seconds

/-!
Freshness as a window of instants. A quote with a market time is usable while the clock's instant
lies between the market time's less the skew and the market time's plus the age, both ends
included, to the microsecond. Nothing else of the two readings counts: neither zone nor fold.
-/

namespace SpreadWatch

open Calendar

namespace Calendar.Moment

/-- The instant of a moment, in microseconds; a reading without zone is one in UTC. -/
def universal (m : Moment) : Int := m.wall - m.offset?.getD 0

def Convertible (m : Moment) : Prop := ∃ utc, m.toUtc? = some utc

/-- The conversion to UTC keeps the instant, which is then what the clock of UTC reads. -/
theorem to_utc_universal {m utc : Moment} (converted : m.toUtc? = some utc) :
    utc.zone = some .utc ∧ utc.wall = m.universal := by
  cases zoned : m.zone with
  | none =>
      rw [toUtc?, zoned] at converted
      obtain rfl := Option.some.inj converted
      exact ⟨rfl, by simp [universal, offset?, zoned]⟩
  | some zone =>
      have meant : m.universal = zone.meant m.wall m.fold := by
        simp [universal, offset?, zoned, Zone.meant]
      rw [to_utc_of_zoned zoned] at converted
      rw [meant]
      split_ifs at converted with universalZone
      · obtain rfl := Option.some.inj converted
        rw [universalZone] at zoned ⊢
        exact ⟨zoned, by simp [Zone.meant, Zone.atWall]⟩
      · obtain ⟨-, -, rfl⟩ := of_instant_iff.mp converted
        exact ⟨rfl, by simp [Zone.shown, Zone.atInstant]⟩

end Calendar.Moment

namespace Freshness

theorem latency_universal {market clock first second : Moment}
    (marketUtc : market.toUtc? = some first) (clockUtc : clock.toUtc? = some second) :
    latency first second = .ok (seconds (clock.universal - market.universal)) := by
  obtain ⟨firstZone, firstWall⟩ := Moment.to_utc_universal marketUtc
  obtain ⟨secondZone, secondWall⟩ := Moment.to_utc_universal clockUtc
  have apart : second.since? first = some (clock.universal - market.universal) := by
    have same : second.sameClock first = true := by
      rw [Moment.sameClock, firstZone, secondZone]
      rfl
    rw [Moment.since?, if_pos same, firstWall, secondWall]
  rw [latency, elapsed, apart]
  rfl

/-- The check of a market time looks at the two instants only. -/
theorem contains_of_convertible (window : Window) {market clock : Moment}
    (marketFine : market.Convertible) (clockFine : clock.Convertible) :
    window.contains market (.ok clock) =
      window.admits (seconds (clock.universal - market.universal)) := by
  obtain ⟨first, marketUtc⟩ := marketFine
  obtain ⟨second, clockUtc⟩ := clockFine
  have firstUtc : toUtc market = .ok first := by rw [toUtc, marketUtc]
  have secondUtc : toUtc clock = .ok second := by rw [toUtc, clockUtc]
  rw [Window.contains, firstUtc]
  simp only [bind, Except.bind, secondUtc, latency_universal marketUtc clockUtc]
  rfl

def Within (maxAge maxSkew micros : ℤ) : Prop :=
  -(maxSkew * 1000000) ≤ micros ∧ micros ≤ maxAge * 1000000

instance (maxAge maxSkew micros : ℤ) : Decidable (Within maxAge maxSkew micros) :=
  inferInstanceAs (Decidable (_ ∧ _))

theorem compare_with_seconds (micros : ℤ) {limit : ℤ} (moderate : |limit| < 2 ^ 33) :
    Value.compareWith? (seconds micros) (.int limit) =
      .ok (some (cmp micros (limit * 1000000))) := by
  have ordered := compare_seconds micros moderate
  simp only [Value.compareWith?, Value.toNumber?, Decimal.order, ordered]
  rfl

theorem is_greater (a b : ℤ) : (some (cmp a b) == some Ordering.gt) = decide (b < a) := by
  rcases lt_trichotomy a b with less | equal | greater
  · simp [less.cmp_eq_lt, less.le]
  · simp [equal]
  · simp [greater.cmp_eq_gt, greater]

theorem is_not_less (a b : ℤ) : (some (cmp a b) != some Ordering.lt) = decide (b ≤ a) := by
  rcases lt_trichotomy a b with less | equal | greater
  · simp [less.cmp_eq_lt, less]
  · simp [equal]
  · simp [greater.cmp_eq_gt, greater.le]

/-- In doubles the limits are kept to the microsecond. -/
theorem admits_seconds {maxAge maxSkew : ℤ} (age : |maxAge| < 2 ^ 33) (skew : |maxSkew| < 2 ^ 33)
    (micros : ℤ) :
    Window.admits ⟨.int maxAge, .int maxSkew⟩ (seconds micros) =
      .ok (decide (Within maxAge maxSkew micros)) := by
  have late := compare_with_seconds micros age
  have early := compare_with_seconds micros (show |-maxSkew| < 2 ^ 33 by rwa [abs_neg])
  have negated : (Value.int maxSkew).negate = .ok (.int (-maxSkew)) := rfl
  rw [Window.admits, late]
  simp only [bind, Except.bind, negated, early, is_greater, is_not_less, decide_eq_true_eq]
  split_ifs with older
  · have outside : ¬ Within maxAge maxSkew micros := fun within => by
      have inTime := within.2
      omega
    rw [decide_eq_false outside]
    rfl
  · have same : -maxSkew * 1000000 ≤ micros ↔ Within maxAge maxSkew micros := by
      unfold Within
      omega
    rw [decide_eq_decide.mpr same]
    rfl

end Freshness

/-! ### Quotes -/

open Freshness

structure Quote.Dated (quote : Quote) (market : Moment) : Prop where
  ask : quote.ask.isSome = true
  bid : quote.bid.isSome = true
  time : quote.time = some market

namespace QuoteBook

variable {book : QuoteBook} {quote : Quote} {market clock : Moment} {maxAge maxSkew : ℤ}

theorem state_of_dated (dated : quote.Dated market) :
    book.stateOf (some quote) (.ok clock) =
      (book.window.contains market (.ok clock)).map fun fresh =>
        if fresh then .usable else .stale := by
  obtain ⟨ask, bid, time⟩ := quote
  obtain ⟨asked, offered, timed⟩ := dated
  obtain ⟨ask, rfl⟩ := Option.isSome_iff_exists.mp asked
  obtain ⟨bid, rfl⟩ := Option.isSome_iff_exists.mp offered
  obtain rfl : time = some market := timed
  rw [stateOf]
  cases book.window.contains market (.ok clock) <;> rfl

section Limits

variable (window : book.window = ⟨.int maxAge, .int maxSkew⟩) (age : |maxAge| < 2 ^ 33)
  (skew : |maxSkew| < 2 ^ 33) (dated : quote.Dated market) (marketFine : market.Convertible)

include window age skew dated marketFine

theorem state_of_within (clockFine : clock.Convertible) :
    book.stateOf (some quote) (.ok clock) =
      .ok (if Within maxAge maxSkew (clock.universal - market.universal) then .usable
        else .stale) := by
  rw [state_of_dated dated, contains_of_convertible _ marketFine clockFine, window,
    admits_seconds age skew]
  simp only [Except.map, decide_eq_true_eq]

theorem usable_iff_within (clockFine : clock.Convertible) :
    book.stateOf (some quote) (.ok clock) = .ok .usable ↔
      Within maxAge maxSkew (clock.universal - market.universal) := by
  rw [state_of_within window age skew dated marketFine clockFine]
  split_ifs with within <;> simp [within]

theorem stale_iff_not_within (clockFine : clock.Convertible) :
    book.stateOf (some quote) (.ok clock) = .ok .stale ↔
      ¬ Within maxAge maxSkew (clock.universal - market.universal) := by
  rw [state_of_within window age skew dated marketFine clockFine]
  split_ifs with within <;> simp [within]

/-- A quote that was usable and is no longer is too old, and remains so. -/
theorem stale_for_good {later last : Moment} (clockFine : clock.Convertible)
    (laterFine : later.Convertible) (lastFine : last.Convertible)
    (ahead : clock.universal ≤ later.universal) (onward : later.universal ≤ last.universal)
    (usable : book.stateOf (some quote) (.ok clock) = .ok .usable)
    (stale : book.stateOf (some quote) (.ok later) = .ok .stale) :
    book.stateOf (some quote) (.ok last) = .ok .stale := by
  have within := (usable_iff_within window age skew dated marketFine clockFine).mp usable
  have outside := (stale_iff_not_within window age skew dated marketFine laterFine).mp stale
  rw [stale_iff_not_within window age skew dated marketFine lastFine]
  unfold Within at within outside ⊢
  omega

end Limits

/-- With whole limits below `2 ^ 33` seconds a quote with both sides and a market time is usable
exactly if the clock's instant is neither further ahead of the market time than the age nor further
behind it than the skew, to the microsecond. So the verdict is one for all ways to write the same
instants, and a quote that has gone stale remains so. -/
theorem usable_exactly_within (window : book.window = ⟨.int maxAge, .int maxSkew⟩)
    (age : |maxAge| < 2 ^ 33) (skew : |maxSkew| < 2 ^ 33) :
    (∀ {quote : Quote} {market clock : Moment}, quote.Dated market → market.Convertible →
      clock.Convertible → book.stateOf (some quote) (.ok clock) =
        .ok (if -(maxSkew * 1000000) ≤ clock.universal - market.universal ∧
          clock.universal - market.universal ≤ maxAge * 1000000 then .usable else .stale)) ∧
    (∀ {quote other : Quote} {market again clock reading : Moment}, quote.Dated market →
      other.Dated again → market.Convertible → again.Convertible → clock.Convertible →
      reading.Convertible → market.universal = again.universal →
      clock.universal = reading.universal →
      book.stateOf (some quote) (.ok clock) = book.stateOf (some other) (.ok reading)) ∧
    (∀ {quote : Quote} {market clock later last : Moment}, quote.Dated market →
      market.Convertible → clock.Convertible → later.Convertible → last.Convertible →
      clock.universal ≤ later.universal → later.universal ≤ last.universal →
      book.stateOf (some quote) (.ok clock) = .ok .usable →
      book.stateOf (some quote) (.ok later) = .ok .stale →
      book.stateOf (some quote) (.ok last) = .ok .stale) := by
  refine ⟨?_, ?_, ?_⟩
  · intro quote market clock dated marketFine clockFine
    rw [state_of_within window age skew dated marketFine clockFine]
    rfl
  · intro quote other market again clock reading dated datedToo marketFine againFine clockFine
      readingFine sameMarket sameClock
    rw [state_of_within window age skew dated marketFine clockFine,
      state_of_within window age skew datedToo againFine readingFine, sameMarket, sameClock]
  · intro quote market clock later last dated marketFine clockFine laterFine lastFine ahead onward
      usable stale
    exact stale_for_good window age skew dated marketFine clockFine laterFine lastFine ahead onward
      usable stale

/-- The night in New York in which the hour from one to two o'clock is shown twice. -/
def autumnNight (minute second micros : Nat) (again : Bool) : Moment :=
  { wall := wallOf ⟨2024, 11, 3⟩ 1 minute second micros
    zone := some (.named ⟨"America/New_York", americanTable (-18000)⟩)
    fold := again }

def minuteBook : QuoteBook := { window := ⟨.int 60, .int 30⟩ }

def lateQuote : Quote := { ask := some .one, bid := some .one, time := autumnNight 59 30 0 false }

/-- The clock is set back half a minute after the market time. A minute after it the quote is
usable, though the clock shows an earlier reading, and a microsecond later it is stale. -/
theorem night_quote_exactly_within :
    minuteBook.stateOf (some lateQuote) (.ok (autumnNight 0 30 0 true)) = .ok .usable ∧
      minuteBook.stateOf (some lateQuote) (.ok (autumnNight 0 30 1 true)) = .ok .stale ∧
      ∀ last : Moment, last.Convertible →
        (autumnNight 0 30 1 true).universal ≤ last.universal →
        minuteBook.stateOf (some lateQuote) (.ok last) = .ok .stale := by
  obtain ⟨exact, -, forGood⟩ := usable_exactly_within (show minuteBook.window = _ from rfl)
    (by norm_num : |(60 : ℤ)| < 2 ^ 33) (by norm_num : |(30 : ℤ)| < 2 ^ 33)
  have dated : lateQuote.Dated (autumnNight 59 30 0 false) := ⟨rfl, rfl, rfl⟩
  have fine (minute second micros : Nat) (again : Bool)
      (found : ((autumnNight minute second micros again).toUtc?).isSome = true) :
      (autumnNight minute second micros again).Convertible := Option.isSome_iff_exists.mp found
  have market := fine 59 30 0 false (by decide +kernel)
  have minute := fine 0 30 0 true (by decide +kernel)
  have beyond := fine 0 30 1 true (by decide +kernel)
  have usable := exact dated market minute
  have stale := exact dated market beyond
  rw [if_pos (by decide +kernel)] at usable
  rw [if_neg (by decide +kernel)] at stale
  refine ⟨usable, stale, fun last lastFine onward => ?_⟩
  exact forGood dated market minute beyond lastFine (by decide +kernel) onward usable stale

end QuoteBook

end SpreadWatch
