import SpreadWatch.Proofs.Calendar.Later
import SpreadWatch.Proofs.Freshness.Seconds
import SpreadWatch.Proofs.Report.Daily

/-!
The wait for the next report. A report is due at the next reading of its time of day, which in the
known zones is also a later instant and at most 25 hours away. The scheduler waits for this long,
unless its clock shows the report's own zone: of two readings of one clock the wall readings are
subtracted, so a change of the clock before the report is not counted.
-/

namespace SpreadWatch

open Calendar

namespace Calendar

theorem Zone.same_clock_comm (a b : Zone) : a.sameClock b = b.sameClock a := by
  cases a <;> cases b <;> simp [Zone.sameClock, Bool.beq_comm]

theorem Zone.same_clock_self {a b : Zone} (same : a.sameClock b = true) : a.sameClock a = true := by
  cases a <;> cases b <;> simp_all [Zone.sameClock]

namespace Moment

variable {zone here : Zone} {m other : Moment}

theorem instant_of_zoned (zoned : m.zone = some zone) :
    m.instant? = some (zone.meant m.wall m.fold) := by
  simp [ instant?, offset?, zoned, Zone.meant]

theorem since_of_zoned (zoned : m.zone = some zone) (zonedToo : other.zone = some here) :
    m.since? other = some (if zone.sameClock here then m.wall - other.wall
      else zone.meant m.wall m.fold - here.meant other.wall other.fold) := by
  have same : m.sameClock other = zone.sameClock here := by rw [Moment.sameClock, zoned, zonedToo]
  rw [since?, same, instant_of_zoned zoned, instant_of_zoned zonedToo]
  split_ifs <;> rfl

theorem since_of_utc (zoned : m.zone = some zone) (utc : other.zone = some .utc) :
    m.since? other = some (zone.meant m.wall m.fold - other.wall) := by
  have same (wall : Int) (fold : Bool) : Zone.meant .utc wall fold = wall := by
    simp [Zone.meant, Zone.atWall]
  rw [since_of_zoned zoned utc, same]
  split_ifs with universal
  · rw [Zone.same_clock_utc.mp universal, same]
  · rfl

end Moment

end Calendar

namespace Report

variable {time : TimeOfDay} {zone here : Zone} {now reading due : Moment}

/-! ### What is due after a reading -/

/-- A report is due on the day of the reading, and then with its fold, or on the next day. -/
inductive DueFrom (time : TimeOfDay) (reading : Moment) : Moment → Prop
  | today (later : reading.wall < (reading.atTime time.hour time.minute).wall) :
      DueFrom time reading (reading.atTime time.hour time.minute)
  | tomorrow (past : (reading.atTime time.hour time.minute).wall ≤ reading.wall)
      (inside : inCalendar ((reading.atTime time.hour time.minute).wall + day) = true) :
      DueFrom time reading
        { wall := (reading.atTime time.hour time.minute).wall + day, zone := reading.zone }

theorem next_iff :
    next time zone now = .ok due ↔
      ∃ reading, readingIn zone now = .ok reading ∧ DueFrom time reading due := by
  constructor
  · intro answer
    obtain ⟨reading, read, answered⟩ := bind_eq_ok answer
    refine ⟨reading, read, ?_⟩
    dsimp only at answered
    split_ifs at answered with past
    · obtain ⟨inside, rfl⟩ := next_day_iff.mp (in_years_eq_ok.mp answered)
      exact .tomorrow past inside
    · cases answered
      exact .today (not_le.mp past)
  · rintro ⟨reading, read, dueFrom⟩
    rw [next, read]
    simp only [bind, Except.bind]
    cases dueFrom with
    | today later =>
        rw [if_neg later.not_ge]
        rfl
    | tomorrow past inside =>
        rw [if_pos past]
        exact in_years_eq_ok.mpr (next_day_iff.mpr ⟨inside, rfl⟩)

namespace DueFrom

theorem zone_eq (dueFrom : DueFrom time reading due) : due.zone = reading.zone := by
  cases dueFrom <;> rfl

/-- A report is due at its time of day, within a day. -/
theorem bounds (shown : time.Shown) (dueFrom : DueFrom time reading due) :
    due.wall % day = time.inDay ∧ reading.wall < due.wall ∧ due.wall ≤ reading.wall + day := by
  obtain ⟨sameDay, inDay⟩ := at_time_wall shown reading
  cases dueFrom with
  | today later =>
      refine ⟨inDay, later, ?_⟩
      simp only [day, second] at *
      omega
  | tomorrow past inside =>
      dsimp only
      refine ⟨by rw [Int.add_emod_right, inDay], ?_, by omega⟩
      simp only [day, second] at *
      omega

end DueFrom

/-! ### The wait by the clock -/

theorem reading_zone (zoned : now.zone = some here) (read : readingIn zone now = .ok reading) :
    here.sameClock zone = true ∧ reading = now ∨
      here.sameClock zone = false ∧ reading.zone = some zone := by
  rw [readingIn, zoned] at read
  have found : now.inZone? zone = some reading := in_years_eq_ok.mp read
  rw [Moment.inZone?, zoned] at found
  cases same : here.sameClock zone with
  | true =>
      rw [Option.any_some, if_pos same] at found
      exact .inl ⟨rfl, (Option.some.inj found).symm⟩
  | false =>
      rw [Option.any_some, if_neg (by simp [same])] at found
      obtain ⟨-, -, rfl⟩ := Moment.of_instant_iff.mp found
      exact .inr ⟨rfl, rfl⟩

theorem seconds_until_of_next (answer : next time zone now = .ok due) {micros : Int}
    (apart : due.since? now = some micros) :
    secondsUntil time zone now = .ok (Freshness.seconds micros) := by
  rw [secondsUntil, answer]
  simp only [bind, Except.bind, Freshness.latency, Freshness.elapsed, apart]
  rfl

/-- Within a day by one clock, the wall readings are as far apart as the instants exactly if the
offsets are the same, also in doubles. -/
theorem wall_wait_iff (steady : here.Steady) (zoned : now.zone = some here)
    (dueZoned : due.zone = some here) (after : now.wall < due.wall)
    (soon : due.wall ≤ now.wall + day) :
    Freshness.seconds (due.wall - now.wall) =
        Freshness.seconds (here.meant due.wall due.fold - here.meant now.wall now.fold) ↔
      due.offset? = now.offset? := by
  have offsets : due.offset? = now.offset? ↔
      here.atWall (due.wall / second) due.fold = here.atWall (now.wall / second) now.fold := by
    rw [Moment.offset?, Moment.offset?, dueZoned, zoned]
    simp [second]
  have dueNear := steady.meant_near due.wall due.fold
  have nowNear := steady.meant_near now.wall now.fold
  have short : |due.wall - now.wall| < 2 ^ 33 * 1000000 := by
    rw [abs_lt]
    simp only [day, second] at *
    omega
  have shortToo : |here.meant due.wall due.fold - here.meant now.wall now.fold| <
      2 ^ 33 * 1000000 := by
    rw [abs_lt]
    simp only [day, second] at *
    omega
  rw [offsets]
  constructor
  · intro waited
    have equal := Freshness.seconds_injective short shortToo waited
    rw [Zone.meant, Zone.meant] at equal
    exact Int.eq_of_mul_eq_mul_right (show second ≠ 0 by decide) (by omega)
  · intro unchanged
    rw [Zone.meant, Zone.meant, unchanged]
    congr 1
    omega

/-- The wait is the time that elapses until the report is due, rounded to a double, unless the clock
shows the report's own zone and changes its offset before: then it is the difference of the wall
readings. -/
theorem wait_elapsed_iff (shown : time.Shown) (steady : here.Steady)
    (zoned : now.zone = some here) (answer : next time zone now = .ok due) :
    ∃ start finish waited, now.instant? = some start ∧ due.instant? = some finish ∧
      secondsUntil time zone now = .ok waited ∧
      (waited = Freshness.seconds (finish - start) ↔
        (here.sameClock zone = true → due.offset? = now.offset?)) ∧
      (here.sameClock zone = true → waited = Freshness.seconds (due.wall - now.wall)) := by
  obtain ⟨reading, read, dueFrom⟩ := next_iff.mp answer
  obtain ⟨-, after, soon⟩ := dueFrom.bounds shown
  have start := Moment.instant_of_zoned zoned
  rcases reading_zone zoned read with ⟨same, rfl⟩ | ⟨different, readingZoned⟩
  · have dueZoned : due.zone = some here := dueFrom.zone_eq.trans zoned
    have finish := Moment.instant_of_zoned dueZoned
    have apart := Moment.since_of_zoned dueZoned zoned
    rw [if_pos (Zone.same_clock_self same)] at apart
    refine ⟨_, _, _, start, finish, seconds_until_of_next answer apart, ?_, fun _ => rfl⟩
    rw [wall_wait_iff steady zoned dueZoned after soon]
    exact ⟨fun unchanged _ => unchanged, fun unchanged => unchanged same⟩
  · have dueZoned : due.zone = some zone := dueFrom.zone_eq.trans readingZoned
    have finish := Moment.instant_of_zoned dueZoned
    have apart := Moment.since_of_zoned dueZoned zoned
    rw [Zone.same_clock_comm, different, if_neg (by decide)] at apart
    refine ⟨_, _, _, start, finish, seconds_until_of_next answer apart, ?_, ?_⟩ <;>
      simp [different]

/-- Noon in New York on the day before the clock is set forward, and the same instant by the clock
of UTC. -/
def saturdayNoon : Moment := ⟨wallOf ⟨2024, 3, 9⟩ 12 0 0 0, some (.named newYork), false⟩

def saturdayNoonUtc : Moment := ⟨wallOf ⟨2024, 3, 9⟩ 17 0 0 0, some .utc, false⟩

def sundayNoon : Moment := ⟨wallOf ⟨2024, 3, 10⟩ 12 0 0 0, some (.named newYork), false⟩

/-- By the clock of UTC the scheduler waits for the 23 hours until noon of the next day. By the
clock of New York it does not. -/
theorem saturday_noon_waits :
    saturdayNoonUtc.instant? = saturdayNoon.instant? ∧
      secondsUntil ⟨12, 0⟩ (.named newYork) saturdayNoonUtc =
        .ok (Freshness.seconds (23 * 3600 * second)) ∧
      secondsUntil ⟨12, 0⟩ (.named newYork) saturdayNoon ≠
        .ok (Freshness.seconds (23 * 3600 * second)) := by
  have shown : TimeOfDay.Shown ⟨12, 0⟩ := ⟨by decide, by decide⟩
  have utc : Zone.Steady .utc := Zone.Known.utc.steady
  have york : (Zone.named newYork).Steady :=
    (Zone.Known.named (by simp [namedZones, newYork])).steady
  have due : next ⟨12, 0⟩ (.named newYork) saturdayNoonUtc = .ok sundayNoon :=
    ok_of_to_option (by decide +kernel)
  have dueToo : next ⟨12, 0⟩ (.named newYork) saturdayNoon = .ok sundayNoon :=
    ok_of_to_option (by decide +kernel)
  have apart : (do return (← sundayNoon.instant?) - (← saturdayNoon.instant?)) =
      some (23 * 3600 * second) := by decide +kernel
  have same : saturdayNoonUtc.instant? = saturdayNoon.instant? := by decide +kernel
  obtain ⟨start, finish, waited, starts, finishes, answer, elapsed, -⟩ :=
    wait_elapsed_iff shown utc rfl due
  obtain ⟨startToo, finishToo, waitedToo, startsToo, finishesToo, answerToo, elapsedToo, -⟩ :=
    wait_elapsed_iff shown york rfl dueToo
  rw [← same, starts, finishes] at apart
  obtain rfl : startToo = start := Option.some.inj (by rw [← startsToo, ← same, starts])
  obtain rfl : finishToo = finish := Option.some.inj (by rw [← finishesToo, finishes])
  have hours : finishToo - startToo = 23 * 3600 * second := Option.some.inj apart
  rw [hours] at elapsed elapsedToo
  refine ⟨same, ?_, ?_⟩
  · rw [answer, elapsed.mpr (by decide)]
  · rw [answerToo]
    intro right
    exact absurd (elapsedToo.mp (Except.ok.inj right) (by decide)) (by decide +kernel)

/-- The report is due 23 hours after noon, and the scheduler waits for 24. -/
theorem saturday_noon_overslept :
    next ⟨12, 0⟩ (.named newYork) saturdayNoon = .ok sundayNoon ∧
      ∃ start finish, saturdayNoon.instant? = some start ∧ sundayNoon.instant? = some finish ∧
        finish - start = 23 * 3600 * second ∧
        secondsUntil ⟨12, 0⟩ (.named newYork) saturdayNoon =
          .ok (Freshness.seconds (24 * 3600 * second)) ∧
        Freshness.seconds (24 * 3600 * second) ≠ Freshness.seconds (finish - start) := by
  have due : next ⟨12, 0⟩ (.named newYork) saturdayNoon = .ok sundayNoon :=
    ok_of_to_option (by decide +kernel)
  have apart : sundayNoon.since? saturdayNoon = some (24 * 3600 * second) := by decide +kernel
  refine ⟨due, saturdayNoonUtc.wall, saturdayNoonUtc.wall + 23 * 3600 * second,
    by decide +kernel, by decide +kernel, by omega, seconds_until_of_next due apart, ?_⟩
  intro same
  have equal := Freshness.seconds_injective (by decide) (by decide) same
  simp only [second] at equal
  omega

/-! ### The step from one report to the next -/

/-- What is shown for the first time at an instant of UTC has no fold. -/
theorem shown_again_of_utc (utc : now.zone = some .utc) (read : now.inZone? zone = some reading)
    (again : (zone.atInstant (now.wall / second)).2 = true) : reading.fold = true := by
  rw [Moment.in_zone_of_utc utc] at read
  split_ifs at read with universal
  · rw [universal] at again
    cases again
  · obtain ⟨-, -, rfl⟩ := Moment.of_instant_iff.mp read
    exact again

theorem whole_of_in_day (inDay : due.wall % day = time.inDay) : due.wall % second = 0 := by
  simp only [day, second, TimeOfDay.inDay] at *
  omega

theorem now_before_due (gentle : zone.Gentle) (shown : time.Shown) (utc : now.zone = some .utc)
    (inside : inCalendar now.wall = true) (read : now.inZone? zone = some reading)
    (dueFrom : DueFrom time reading due) : now.wall < zone.meant due.wall due.fold := by
  obtain ⟨shows, -⟩ := Moment.shows_of_utc utc inside read
  obtain ⟨inDay, after, -⟩ := dueFrom.bounds shown
  obtain ⟨sameDay, -⟩ := at_time_wall shown reading
  have whole := whole_of_in_day inDay
  rw [shows.wall] at after sameDay
  cases dueFrom with
  | today later =>
      have carried : (reading.atTime time.hour time.minute).fold = reading.fold := rfl
      rw [carried]
      cases folded : reading.fold with
      | false =>
          refine gentle.before_meant whole after fun again => ?_
          rw [shown_again_of_utc utc read again] at folded
          cases folded
      | true =>
          rcases shows.fold folded with rfl | again
          · simpa [Zone.shown, Zone.meant, Zone.atWall, Zone.atInstant] using after
          · exact Zone.Steady.before_meant_again gentle.steady again after sameDay
  | tomorrow past insideToo =>
      refine gentle.before_meant whole after fun _ => ?_
      simp only [day, second] at *
      omega

theorem due_within_hours (gentle : zone.Gentle) (shown : time.Shown) (utc : now.zone = some .utc)
    (inside : inCalendar now.wall = true) (read : now.inZone? zone = some reading)
    (dueFrom : DueFrom time reading due) :
    zone.meant due.wall due.fold ≤ now.wall + 25 * 3600 * second := by
  obtain ⟨shows, -⟩ := Moment.shows_of_utc utc inside read
  obtain ⟨-, -, soon⟩ := dueFrom.bounds shown
  have hour := gentle.hourly _ (zone.at_instant_mem (now.wall / second)) _
    (zone.at_wall_mem (due.wall / second) due.fold)
  rw [shows.wall] at soon
  simp only [Zone.shown, Zone.meant, day, second, hourSeconds] at *
  omega

/-- There is a next report if the clock shows a reading of the calendar, and the reading of the time
of day that follows lies in the calendar, too. -/
theorem next_answers_iff (shown : time.Shown) (utc : now.zone = some .utc)
    (inside : inCalendar now.wall = true) :
    (∃ due, next time zone now = .ok due) ↔
      ∃ reading, now.inZone? zone = some reading ∧
        ∃ wall, wall % day = time.inDay ∧ reading.wall < wall ∧ wall ≤ reading.wall + day ∧
          inCalendar wall = true := by
  constructor
  · rintro ⟨due, answer⟩
    obtain ⟨reading, read, dueFrom⟩ := next_iff.mp answer
    obtain ⟨inDay, after, soon⟩ := dueFrom.bounds shown
    obtain ⟨-, -, -, dueInside⟩ := next_due shown utc inside answer
    exact ⟨reading, (reading_of_utc utc).mp read, due.wall, inDay, after, soon, dueInside⟩
  · rintro ⟨reading, read, wall, inDay, after, soon, wallInside⟩
    obtain ⟨sameDay, timed⟩ := at_time_wall shown reading
    have answered : ∃ due, DueFrom time reading due := by
      by_cases past : (reading.atTime time.hour time.minute).wall ≤ reading.wall
      · have same : (reading.atTime time.hour time.minute).wall + day = wall := by
          simp only [day, second] at *
          omega
        exact ⟨_, .tomorrow past (same ▸ wallInside)⟩
      · exact ⟨_, .today (not_le.mp past)⟩
    obtain ⟨due, dueFrom⟩ := answered
    exact ⟨due, next_iff.mpr ⟨reading, (reading_of_utc utc).mpr read, dueFrom⟩⟩

/-- Noon in New York on the day before the clock is set back. -/
def novemberNoon : Moment := ⟨wallOf ⟨2024, 11, 2⟩ 16 0 0 0, some .utc, false⟩

/-- The next report is due at the next reading of its time of day, and this is at a later instant,
which is at most 25 hours away. So the scheduler's wait is never zero, negative or of more than 25
hours. This holds in all zones whose table changes gently, and so in all that are known. -/
theorem next_report_steps :
    (∀ zone : Zone, zone.Known → zone.Gentle) ∧
    ∀ {time : TimeOfDay} {zone : Zone} {now : Moment}, time.Shown → zone.Gentle →
      now.zone = some .utc → inCalendar now.wall = true →
      ((∃ due, next time zone now = .ok due) ↔
        ∃ reading, now.inZone? zone = some reading ∧
          ∃ wall, wall % day = time.inDay ∧ reading.wall < wall ∧ wall ≤ reading.wall + day ∧
            inCalendar wall = true) ∧
      ∀ due, next time zone now = .ok due →
        due.zone = some zone ∧ due.wall % day = time.inDay ∧
        (∃ reading, now.inZone? zone = some reading ∧ reading.wall < due.wall ∧
          due.wall ≤ reading.wall + day ∧
          ∀ wall, wall % day = time.inDay → reading.wall < wall → due.wall ≤ wall) ∧
        (∃ finish, due.instant? = some finish ∧ now.wall < finish ∧
          finish ≤ now.wall + 25 * 3600 * second) ∧
        ∃ waited, secondsUntil time zone now = .ok waited ∧
          ∃ value : ℚ, waited.toDecimal.quantity? = some (value : Quantity) ∧ 0 < value ∧
            value ≤ 25 * 3600 := by
  refine ⟨fun _ known => known.gentle, ?_⟩
  intro time zone now shown gentle utc inside
  refine ⟨next_answers_iff shown utc inside, ?_⟩
  intro due answer
  obtain ⟨reading, readable, dueFrom⟩ := next_iff.mp answer
  have read := (reading_of_utc utc).mp readable
  obtain ⟨shows, -⟩ := Moment.shows_of_utc utc inside read
  obtain ⟨inDay, after, soon⟩ := dueFrom.bounds shown
  have zoned : due.zone = some zone := dueFrom.zone_eq.trans shows.zoned
  have finish := Moment.instant_of_zoned zoned
  have before := now_before_due gentle shown utc inside read dueFrom
  have within := due_within_hours gentle shown utc inside read dueFrom
  refine ⟨zoned, inDay, ⟨reading, read, after, soon, ?_⟩, ⟨_, finish, before, within⟩, ?_⟩
  · intro wall again later
    simp only [day, second] at *
    omega
  · have answered := seconds_until_of_next answer (Moment.since_of_utc zoned utc)
    have hours : zone.meant due.wall due.fold - now.wall ≤ (25 * 3600 : ℤ) * 1000000 := by
      simp only [second] at within
      omega
    obtain ⟨value, told, positive, bounded⟩ :=
      Freshness.seconds_between (Int.sub_pos_of_lt before) hours (by norm_num)
    exact ⟨_, answered, value, told, positive, by exact_mod_cast bounded⟩

/-- The clock is set back before the next report at noon, so it is due after all of the 25 hours. -/
theorem november_noon_waits :
    ∃ due waited, next ⟨12, 0⟩ (.named newYork) novemberNoon = .ok due ∧
      due.instant? = some (novemberNoon.wall + 25 * 3600 * second) ∧
      due.wall % day = TimeOfDay.inDay ⟨12, 0⟩ ∧
      secondsUntil ⟨12, 0⟩ (.named newYork) novemberNoon = .ok waited ∧
        ∃ value : ℚ, waited.toDecimal.quantity? = some (value : Quantity) ∧ 0 < value ∧
          value ≤ 25 * 3600 := by
  have gentle : (Zone.named newYork).Gentle :=
    next_report_steps.1 _ (.named (by simp [namedZones, newYork]))
  have shown : TimeOfDay.Shown ⟨12, 0⟩ := ⟨by decide, by decide⟩
  obtain ⟨answers, steps⟩ := next_report_steps.2 shown gentle
    (show novemberNoon.zone = some .utc from rfl) (by decide +kernel)
  have reading : novemberNoon.inZone? (.named newYork) =
      some ⟨wallOf ⟨2024, 11, 2⟩ 12 0 0 0, some (.named newYork), false⟩ := by decide +kernel
  obtain ⟨due, answer⟩ := answers.mpr ⟨_, reading, wallOf ⟨2024, 11, 3⟩ 12 0 0 0,
    by decide +kernel, by decide +kernel, by decide +kernel, by decide +kernel⟩
  obtain ⟨-, inDay, -, -, waited, answered, bounds⟩ := steps due answer
  refine ⟨due, waited, answer, ?_, inDay, answered, bounds⟩
  have listed : (next ⟨12, 0⟩ (.named newYork) novemberNoon).toOption.bind (·.instant?) =
      some (novemberNoon.wall + 25 * 3600 * second) := by decide +kernel
  rw [answer] at listed
  exact listed

end Report

end SpreadWatch
