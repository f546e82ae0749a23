import SpreadWatch.Proofs.Decimal.Value
import SpreadWatch.Proofs.Failure
import SpreadWatch.QuoteBook

/-!
Checks of market times. A check has no verdict if the market time or the clock's reading lies
outside the calendar in UTC, if the clock cannot be read, or if a limit of the window is no number
that an age can be compared with. Between two readings in UTC an age can always be told.
-/

namespace SpreadWatch

open Calendar

theorem Calendar.Moment.to_utc_zone {m utc : Moment} (converted : m.toUtc? = some utc) :
    ∃ zone, utc.zone = some zone := by
  unfold Moment.toUtc? at converted
  split at converted
  · cases converted
    exact ⟨.utc, rfl⟩
  · rename_i zone zoned
    unfold Moment.inZone? at converted
    split_ifs at converted with same
    · cases converted
      exact ⟨zone, zoned⟩
    · unfold Moment.ofInstant? at converted
      dsimp only at converted
      split_ifs at converted
      cases converted
      exact ⟨.utc, rfl⟩

theorem Calendar.Moment.since_of_zones {a b : Moment} {first second : Zone}
    (left : a.zone = some first) (right : b.zone = some second) :
    ∃ micros, a.since? b = some micros := by
  unfold Moment.since?
  split_ifs
  · exact ⟨_, rfl⟩
  · rw [Moment.instant?, Moment.offset?, left, Moment.instant?, Moment.offset?, right]
    exact ⟨_, rfl⟩

namespace Freshness

def Window.admits (window : Window) (age : Binary64) : Except Failure Bool := do
  if (← Value.compareWith? age window.maxAge) == some .gt then return false
  let earliest ← window.maxSkew.negate
  return (← Value.compareWith? age earliest) != some .lt

inductive Window.Undecided (window : Window) (market : Moment) (clock : Except Failure Moment) :
    Prop
  | market (outside : market.toUtc? = none)
  | clock {failure : Failure} (stopped : clock = .error failure)
  | reading {reading : Moment} (read : clock = .ok reading) (outside : reading.toUtc? = none)
  | limits {reading first second : Moment} {age : Binary64} {failure : Failure}
      (marketUtc : market.toUtc? = some first) (read : clock = .ok reading)
      (readingUtc : reading.toUtc? = some second) (aged : latency first second = .ok age)
      (incomparable : window.admits age = .error failure)

theorem latency_of_utc {market clock first second : Moment} (marketUtc : market.toUtc? = some first)
    (clockUtc : clock.toUtc? = some second) : ∃ age, latency first second = .ok age := by
  obtain ⟨firstZone, firstZoned⟩ := Moment.to_utc_zone marketUtc
  obtain ⟨secondZone, secondZoned⟩ := Moment.to_utc_zone clockUtc
  obtain ⟨micros, apart⟩ := Moment.since_of_zones secondZoned firstZoned
  refine ⟨seconds micros, ?_⟩
  rw [latency, elapsed, apart]
  rfl

theorem contains_error_iff (window : Window) (market : Moment) (clock : Except Failure Moment) :
    (∃ failure, window.contains market clock = .error failure) ↔ window.Undecided market clock := by
  have opened : window.contains market clock =
      (toUtc market >>= fun first => clock >>= fun reading => toUtc reading >>= fun second =>
        latency first second >>= fun age => window.admits age) := rfl
  rw [opened]
  cases marketUtc : market.toUtc? with
  | none =>
      have failed : toUtc market = .error .outOfRange := by rw [toUtc, marketUtc]
      rw [failed]
      exact ⟨fun _ => .market marketUtc, fun _ => ⟨_, rfl⟩⟩
  | some first =>
  have firstUtc : toUtc market = .ok first := by rw [toUtc, marketUtc]
  rw [firstUtc]
  cases clock with
  | error failure => exact ⟨fun _ => .clock rfl, fun _ => ⟨failure, rfl⟩⟩
  | ok reading =>
  cases readingUtc : reading.toUtc? with
  | none =>
      have failed : toUtc reading = .error .outOfRange := by rw [toUtc, readingUtc]
      exact ⟨fun _ => .reading rfl readingUtc, fun _ => ⟨.outOfRange, by
        simp only [bind, Except.bind, failed]⟩⟩
  | some second =>
  have secondUtc : toUtc reading = .ok second := by rw [toUtc, readingUtc]
  obtain ⟨age, aged⟩ := latency_of_utc marketUtc readingUtc
  simp only [bind, Except.bind, secondUtc, aged]
  constructor
  · rintro ⟨failure, incomparable⟩
    exact .limits marketUtc rfl readingUtc aged incomparable
  · intro undecided
    cases undecided with
    | market outside =>
        rw [marketUtc] at outside
        cases outside
    | clock stopped => cases stopped
    | reading read outside =>
        cases read
        rw [readingUtc] at outside
        cases outside
    | limits otherMarket read otherReading otherAged incomparable =>
        cases read
        rw [marketUtc] at otherMarket
        rw [readingUtc] at otherReading
        cases otherMarket
        cases otherReading
        rw [aged] at otherAged
        cases otherAged
        exact ⟨_, incomparable⟩

def Window.Whole (window : Window) : Prop :=
  ∃ age skew : ℤ, window.maxAge = .int age ∧ window.maxSkew = .int skew

theorem of_ratio_number (negative : Bool) (numerator denominator : ℕ) :
    (Binary64.ofRatio negative numerator denominator).toDecimal.isNan = false := by
  have finite : ∀ mantissa exponent,
      (Binary64.finite negative mantissa exponent).toDecimal.isNan = false := by
    intro mantissa exponent
    unfold Binary64.toDecimal
    dsimp only
    split_ifs <;> rfl
  unfold Binary64.ofRatio
  split
  · exact finite _ _
  · extract_lets guess scaled fits exponent
    split
    extract_lets rounded
    split
    split
    · rfl
    · exact finite _ _

theorem compare_with_whole {measured : Binary64} (number : measured.toDecimal.isNan = false)
    (limit : ℤ) : ∃ order, Value.compareWith? measured (.int limit) = .ok (some order) := by
  obtain ⟨x, left⟩ := Decimal.quantity_of_number number
  obtain ⟨y, right⟩ : ∃ y, (Decimal.ofInt limit).quantity? = some y := ⟨_, rfl⟩
  refine ⟨cmp x y, ?_⟩
  have ordered := Decimal.compare_quantity left right
  simp only [Value.compareWith?, Value.toNumber?, Decimal.order, ordered]
  rfl

/-- With whole limits nothing but the calendar and the clock can stand in the way of a verdict. -/
theorem undecided_of_whole {window : Window} {market : Moment} {clock : Except Failure Moment}
    (whole : window.Whole) (undecided : window.Undecided market clock) :
    market.toUtc? = none ∨ (∃ failure, clock = .error failure) ∨
      ∃ reading, clock = .ok reading ∧ reading.toUtc? = none := by
  cases undecided with
  | market outside => exact .inl outside
  | clock stopped => exact .inr (.inl ⟨_, stopped⟩)
  | reading read outside => exact .inr (.inr ⟨_, read, outside⟩)
  | @limits reading first second age failure marketUtc read readingUtc aged incomparable =>
      obtain ⟨maxAge, maxSkew, ageLimit, skewLimit⟩ := whole
      have number : age.toDecimal.isNan = false := by
        unfold latency at aged
        cases apart : elapsed first second with
        | error failure =>
            rw [apart] at aged
            cases aged
        | ok micros =>
            rw [apart] at aged
            cases aged
            exact of_ratio_number _ _ _
      obtain ⟨late, lateOrder⟩ := compare_with_whole number maxAge
      obtain ⟨early, earlyOrder⟩ := compare_with_whole number (-maxSkew)
      unfold Window.admits at incomparable
      rw [ageLimit, skewLimit, lateOrder] at incomparable
      have later : (Value.int maxSkew).negate = .ok (.int (-maxSkew)) := rfl
      simp only [bind, Except.bind, later, earlyOrder] at incomparable
      split_ifs at incomparable <;> cases incomparable

end Freshness

end SpreadWatch
