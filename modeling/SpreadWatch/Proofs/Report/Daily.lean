import SpreadWatch.Proofs.Calendar.Days
import SpreadWatch.Proofs.Calendar.Reading
import SpreadWatch.Proofs.Failure
import SpreadWatch.Report.Schedule

/-!
One report on every day. A scheduler that wakes when a report is due and then asks for the next one
goes from one day of the zone's calendar to the next, at ever later instants, also over days on
which the clock skips or repeats the time of the report.
-/

namespace SpreadWatch.Report

open Calendar

/-- The microseconds from the beginning of a day to a time of day. -/
def TimeOfDay.inDay (time : TimeOfDay) : Int := (time.hour * 60 + time.minute : Nat) * 60 * second

structure TimeOfDay.Shown (time : TimeOfDay) : Prop where
  hour : time.hour < 24
  minute : time.minute < 60

variable {time : TimeOfDay} {zone : Zone} {now due : Moment}

theorem TimeOfDay.Shown.in_day (shown : time.Shown) : 0 ≤ time.inDay ∧ time.inDay < day := by
  obtain ⟨hour, minute⟩ := shown
  simp only [inDay, day, second]
  omega

/-! ### The next report -/

/-- A report is due at its time of day, after a reading and at most a day later. -/
structure DueAfter (time : TimeOfDay) (reading due : Moment) : Prop where
  follows : reading.Follows due
  after : reading.wall < due.wall
  soon : due.wall ≤ reading.wall + day
  inDay : due.wall % day = time.inDay

theorem at_time_wall (shown : time.Shown) (m : Moment) :
    (m.atTime time.hour time.minute).wall / day = m.wall / day ∧
      (m.atTime time.hour time.minute).wall % day = time.inDay := by
  have bounds := shown.in_day
  have wall : (m.atTime time.hour time.minute).wall = time.inDay + day * (m.wall / day) := by
    rw [Int.add_comm, Int.mul_comm]
    rfl
  rw [wall, Int.add_mul_ediv_left _ _ (by decide), Int.add_mul_emod_self_left,
    Int.ediv_eq_zero_of_lt bounds.1 bounds.2, Int.emod_eq_of_lt bounds.1 bounds.2]
  exact ⟨by omega, rfl⟩

theorem in_calendar_iff {wall : Int} :
    inCalendar wall = true ↔ 0 ≤ wall ∧ wall < 3652059 * day := by
  simp [inCalendar]

theorem in_years_eq_ok {found : Option Moment} {m : Moment} :
    inYears found = .ok m ↔ found = some m := by
  cases found <;> simp [inYears]

theorem next_day_iff {m next : Moment} :
    m.nextDay? = some next ↔ inCalendar (m.wall + day) = true ∧
      next = { wall := m.wall + day, zone := m.zone } := by
  unfold Moment.nextDay?
  dsimp only
  split_ifs with inside <;> simp [inside, eq_comm]

theorem reading_of_utc (utc : now.zone = some .utc) {reading : Moment} :
    readingIn zone now = .ok reading ↔ now.inZone? zone = some reading := by
  rw [readingIn, utc]
  exact in_years_eq_ok

/-- The next report is due after what the clock shows. -/
theorem next_due (shown : time.Shown) (utc : now.zone = some .utc)
    (inside : inCalendar now.wall = true) (answer : next time zone now = .ok due) :
    ∃ reading, zone.Shows now.wall reading ∧ DueAfter time reading due ∧
      inCalendar due.wall = true := by
  obtain ⟨reading, read, answered⟩ := bind_eq_ok answer
  obtain ⟨shows, readingInside⟩ :=
    Moment.shows_of_utc utc inside ((reading_of_utc utc).mp read)
  obtain ⟨sameDay, inDay⟩ := at_time_wall shown reading
  dsimp only at answered
  split_ifs at answered with past
  · obtain ⟨dueInside, rfl⟩ := next_day_iff.mp (in_years_eq_ok.mp answered)
    refine ⟨reading, shows, ⟨.first, ?_, ?_, ?_⟩, dueInside⟩
    · simp only [day, second] at *
      omega
    · dsimp only
      omega
    · rw [Int.add_emod_right, inDay]
  · cases answered
    have later : reading.wall < (reading.atTime time.hour time.minute).wall := by omega
    refine ⟨reading, shows, ⟨.sameDay later.le sameDay, later, ?_, inDay⟩, ?_⟩
    · simp only [day, second] at *
      omega
    · rw [in_calendar_iff] at readingInside ⊢
      simp only [day, second] at *
      omega

/-- There is a next report if the clock shows a reading that is not of the last day of all. -/
theorem next_answers (shown : time.Shown) (utc : now.zone = some .utc)
    (inside : inCalendar now.wall = true) (lower : 0 ≤ zone.shown now.wall)
    (upper : zone.shown now.wall + day < 3652059 * day) :
    ∃ due, next time zone now = .ok due := by
  have shownInside : inCalendar (zone.shown now.wall) = true := by
    rw [in_calendar_iff]
    simp only [day, second] at *
    omega
  obtain ⟨reading, read⟩ := Moment.in_zone_answers utc inside shownInside
  have wall := (Moment.shows_of_utc utc inside read).1.wall
  unfold next
  rw [(reading_of_utc utc).mpr read]
  simp only [bind, Except.bind]
  split_ifs with past
  · refine ⟨_, in_years_eq_ok.mpr (next_day_iff.mpr ⟨?_, rfl⟩)⟩
    obtain ⟨sameDay, -⟩ := at_time_wall shown reading
    rw [in_calendar_iff]
    simp only [day, second] at *
    omega
  · exact ⟨_, rfl⟩

/-! ### From one report to the next -/

def Awaits (time : TimeOfDay) (zone : Zone) (now : Moment) (wall : Int) : Prop :=
  ∀ due, next time zone now = .ok due → due.wall = wall

/-- After the wake-up for a report the next one is due a day later by the clock. -/
theorem awaits_next_day (steady : zone.Steady) (shown : time.Shown) (utc : now.zone = some .utc)
    (inside : inCalendar now.wall = true) (answer : next time zone now = .ok due) {wake : Moment}
    (woken : Freshness.toUtc due = .ok wake) :
    wake.zone = some .utc ∧ inCalendar wake.wall = true ∧
      wake.wall = zone.meant due.wall due.fold ∧ Awaits time zone wake (due.wall + day) := by
  obtain ⟨reading, shows, dueAfter, dueInside⟩ := next_due shown utc inside answer
  have zoned : due.zone = some zone := dueAfter.follows.zone_eq.trans shows.zoned
  have converted : due.toUtc? = some wake := by
    cases found : due.toUtc? with
    | none =>
        rw [Freshness.toUtc, found] at woken
        cases woken
    | some m =>
        rw [Freshness.toUtc, found] at woken
        cases woken
        rfl
  obtain ⟨wakeUtc, wakeInside, meant⟩ := Moment.to_utc_meant zoned dueInside converted
  refine ⟨wakeUtc, wakeInside, meant, ?_⟩
  intro later laterAnswer
  obtain ⟨again, showsAgain, laterAfter, -⟩ := next_due shown wakeUtc wakeInside laterAnswer
  have back := shows.shown_back steady dueAfter.follows
  rw [← meant, ← showsAgain.wall] at back
  -- both are due at the same time of day, and less than two days apart
  have first := dueAfter.inDay
  have second := laterAfter.inDay
  have after := laterAfter.after
  have soon := laterAfter.soon
  simp only [day, SpreadWatch.Calendar.second] at *
  omega

/-! ### Runs -/

structure Round where
  due : Moment
  wake : Moment

/-- So many reports one after the other, the next one asked for when the last one is due. -/
def rounds (time : TimeOfDay) (zone : Zone) : Nat → Moment → Except Failure (List Round)
  | 0, _ => .ok []
  | count + 1, now => do
      let due ← next time zone now
      let wake ← Freshness.toUtc due
      return ⟨due, wake⟩ :: (← rounds time zone count wake)

/-- A report is due at its time of day, and the wake-up is at the instant that this means. -/
structure Round.Sound (time : TimeOfDay) (zone : Zone) (round : Round) : Prop where
  utc : round.wake.zone = some .utc
  meant : round.wake.wall = zone.meant round.due.wall round.due.fold
  inside : inCalendar round.due.wall = true
  inDay : round.due.wall % day = time.inDay

theorem rounds_daily (steady : zone.Steady) (shown : time.Shown) (utc : now.zone = some .utc)
    (inside : inCalendar now.wall = true) {wall : Int} (awaits : Awaits time zone now wall)
    {count : ℕ} {run : List Round} (ran : rounds time zone count now = .ok run) :
    run.map (·.due.wall) = (List.range count).map (fun index : ℕ => wall + index * day) ∧
      ∀ round ∈ run, round.Sound time zone := by
  induction count generalizing now wall run with
  | zero =>
      cases ran
      exact ⟨rfl, by simp⟩
  | succ count induction =>
      obtain ⟨due, answer, afterDue⟩ := bind_eq_ok ran
      obtain ⟨wake, woken, afterWake⟩ := bind_eq_ok afterDue
      obtain ⟨later, ranLater, listed⟩ := bind_eq_ok afterWake
      cases listed
      obtain ⟨wakeUtc, wakeInside, meant, awaitsNext⟩ :=
        awaits_next_day steady shown utc inside answer woken
      obtain ⟨walls, sound⟩ := induction wakeUtc wakeInside awaitsNext ranLater
      obtain ⟨reading, -, dueAfter, dueInside⟩ := next_due shown utc inside answer
      constructor
      · rw [List.map_cons, walls, List.range_succ_eq_map, List.map_cons, List.map_map,
          awaits due answer]
        congr 1
        · simp
        · apply List.map_congr_left
          intro index _
          simp only [Function.comp_apply, Nat.cast_succ]
          ring
      · intro round member
        rcases List.mem_cons.mp member with rfl | member
        · exact ⟨wakeUtc, meant, dueInside, dueAfter.inDay⟩
        · exact sound round member

theorem rounds_answer (steady : zone.Steady) (shown : time.Shown) (utc : now.zone = some .utc)
    (inside : inCalendar now.wall = true) {wall : Int} (awaits : Awaits time zone now wall)
    (after : zone.shown now.wall < wall) (soon : wall - day ≤ zone.shown now.wall)
    (lower : day ≤ wall) {count : ℕ} (upper : wall + count * day ≤ 3652059 * day) :
    ∃ run, rounds time zone count now = .ok run := by
  induction count generalizing now wall with
  | zero => exact ⟨[], rfl⟩
  | succ count induction =>
      have room : wall + day + count * day ≤ 3652059 * day := by
        rw [Nat.cast_succ] at upper
        linarith
      have positive : 0 ≤ (count : Int) * day := Int.mul_nonneg (by omega) (by decide)
      obtain ⟨due, answer⟩ : ∃ due, next time zone now = .ok due :=
        next_answers shown utc inside (by omega) (by omega)
      have dueWall := awaits due answer
      obtain ⟨reading, shows, dueAfter, dueInside⟩ := next_due shown utc inside answer
      have zoned : due.zone = some zone := dueAfter.follows.zone_eq.trans shows.zoned
      have near := steady.meant_near due.wall due.fold
      obtain ⟨wake, converted⟩ := Moment.to_utc_answers zoned (by
        rw [in_calendar_iff]
        omega)
      have woken : Freshness.toUtc due = .ok wake := by
        rw [Freshness.toUtc, converted]
      obtain ⟨wakeUtc, wakeInside, meant, awaitsNext⟩ :=
        awaits_next_day steady shown utc inside answer woken
      have back := shows.shown_back steady dueAfter.follows
      rw [← meant] at back
      rw [dueWall] at awaitsNext back
      obtain ⟨later, ranLater⟩ := induction wakeUtc wakeInside awaitsNext back.2 (by omega)
        (by omega) room
      refine ⟨⟨due, wake⟩ :: later, ?_⟩
      rw [rounds, answer]
      simp only [bind, Except.bind, woken, ranLater]
      rfl

theorem awaits_of_answer (answer : next time zone now = .ok due) :
    Awaits time zone now due.wall := by
  intro other answered
  rw [answer] at answered
  cases answered
  rfl

/-- The reading that the next report waits for, whether there is one or not. -/
theorem awaits_some (time : TimeOfDay) (zone : Zone) (now : Moment) :
    ∃ wall, Awaits time zone now wall := by
  cases answer : next time zone now with
  | ok due => exact ⟨due.wall, awaits_of_answer answer⟩
  | error failure =>
      refine ⟨0, fun due answered => ?_⟩
      rw [answer] at answered
      cases answered

section Walls

variable {wall : Int} {run : List Round} {count : ℕ}
  (walls : run.map (·.due.wall) = (List.range count).map (fun index : ℕ => wall + index * day))
  (sound : ∀ round ∈ run, round.Sound time zone)

include walls

theorem run_length : run.length = count := by
  simpa using congrArg List.length walls

theorem due_wall_at {index : ℕ} (bound : index < run.length) :
    run[index].due.wall = wall + index * day := by
  have at_index : (run.map (·.due.wall))[index]? =
      ((List.range count).map (fun index : ℕ => wall + index * day))[index]? := by rw [walls]
  have counted : index < count := run_length walls ▸ bound
  simpa [bound, counted] using at_index

include sound

/-- The days of the reports follow each other. -/
theorem due_days : run.map (·.due.date.toDays) = List.range' (wall / day).toNat count := by
  apply List.ext_getElem
  · simp [run_length walls]
  · intro index bound _
    rw [List.length_map] at bound
    have first : 0 ≤ wall := by
      have start := due_wall_at walls (Nat.zero_lt_of_lt bound)
      have inside := (sound _ (List.getElem_mem (Nat.zero_lt_of_lt bound))).inside
      rw [start, in_calendar_iff] at inside
      simpa using inside.1
    have days : 0 ≤ wall / day := Int.ediv_nonneg first (by decide)
    rw [List.getElem_map, List.getElem_range', Moment.date_to_days, due_wall_at walls bound,
      Int.add_mul_ediv_right _ _ (by decide)]
    omega

/-- The wake-ups come later and later. -/
theorem wakes_later (steady : zone.Steady) :
    run.Pairwise (fun round later => round.wake.Before later.wake) := by
  rw [List.pairwise_iff_getElem]
  intro index next bound nextBound order
  have early := sound _ (List.getElem_mem bound)
  have late := sound _ (List.getElem_mem nextBound)
  refine ⟨_, _, Moment.instant_of_utc early.utc, Moment.instant_of_utc late.utc, ?_⟩
  rw [early.meant, late.meant]
  apply steady.meant_lt
  rw [due_wall_at walls bound, due_wall_at walls nextBound]
  have apart : ((index : Int) + 1) * day ≤ next * day :=
    Int.mul_le_mul_of_nonneg_right (by omega) (by decide)
  linarith

end Walls

/-- A run that keeps away from the ends of the calendar does not fail. -/
theorem rounds_return (steady : zone.Steady) (shown : time.Shown) (utc : now.zone = some .utc)
    (inside : inCalendar now.wall = true) {count : ℕ} (lower : 2 * day ≤ now.wall)
    (upper : now.wall + (count + 2) * day ≤ 3652059 * day) :
    ∃ run, rounds time zone count now = .ok run := by
  have near := steady.shown_near now.wall
  cases count with
  | zero => exact ⟨[], rfl⟩
  | succ count =>
      have positive : 0 ≤ (count : Int) * day := Int.mul_nonneg (by omega) (by decide)
      have room : now.wall + 3 * day + count * day ≤ 3652059 * day := by
        rw [Nat.cast_succ] at upper
        linarith
      obtain ⟨due, answer⟩ : ∃ due, next time zone now = .ok due :=
        next_answers shown utc inside (by omega) (by omega)
      obtain ⟨reading, shows, dueAfter, -⟩ := next_due shown utc inside answer
      have after := dueAfter.after
      have soon := dueAfter.soon
      rw [shows.wall] at after soon
      have last : due.wall + (count + 1 : ℕ) * day ≤ 3652059 * day := by
        rw [Nat.cast_succ]
        linarith
      exact rounds_answer steady shown utc inside (awaits_of_answer answer) after (by omega)
        (by omega) last

/-- A scheduler that starts at an instant in UTC and wakes when a report is due reports on days that
follow each other, once on each at the time of the report, and at ever later instants. It fails only
at the ends of the calendar. This holds in all zones whose table is steady, and so in all that are
known. -/
theorem reports_once_a_day :
    (∀ zone : Zone, zone.Known → zone.Steady) ∧
    ∀ {time : TimeOfDay} {zone : Zone} {now : Moment}, time.Shown → zone.Steady →
      now.zone = some .utc → inCalendar now.wall = true → ∀ count : ℕ,
      (∀ run, rounds time zone count now = .ok run →
        (∃ first, run.map (·.due.date.toDays) = List.range' first count) ∧
          (∀ round ∈ run, round.due.wall % day = time.inDay) ∧
          run.Pairwise (fun round later => round.wake.Before later.wake)) ∧
      (2 * day ≤ now.wall → now.wall + (count + 2) * day ≤ 3652059 * day →
        ∃ run, rounds time zone count now = .ok run) := by
  refine ⟨fun _ known => known.steady, ?_⟩
  intro time zone now shown steady utc inside count
  constructor
  · intro run ran
    obtain ⟨wall, awaits⟩ := awaits_some time zone now
    obtain ⟨walls, sound⟩ := rounds_daily steady shown utc inside awaits ran
    exact ⟨⟨_, due_days walls sound⟩, fun round member => (sound round member).inDay,
      wakes_later walls sound steady⟩
  · intro lower upper
    exact rounds_return steady shown utc inside lower upper

def newYork : NamedZone := ⟨"America/New_York", americanTable (-18000)⟩

def noon : Moment := ⟨wallOf ⟨2024, 3, 8⟩ 12 0 0 0, some .utc, false⟩

/-- Days of March 2024 with half an hour of each, in UTC. -/
def newYorkWakes : List (Date × Int) :=
  [(9, 7), (10, 7), (11, 6), (12, 6)].map fun (day, hour) =>
    (⟨2024, 3, day⟩, wallOf ⟨2024, 3, day⟩ hour 30 0 0)

/-- Reports at half past two. On the tenth of March the clock in New York skips this time: the
wake-up shows half past three, and the next report is due less than a day after it. -/
theorem new_york_reports_once_a_day :
    ∃ run first, rounds ⟨2, 30⟩ (.named newYork) 4 noon = .ok run ∧
      run.map (·.due.date.toDays) = List.range' first 4 ∧
      run.Pairwise (fun round later => round.wake.Before later.wake) ∧
      run.map (fun round => (round.due.date, round.wake.wall)) = newYorkWakes := by
  have steady : (Zone.named newYork).Steady :=
    reports_once_a_day.1 _ (.named (by simp [namedZones, newYork]))
  have shown : TimeOfDay.Shown ⟨2, 30⟩ := ⟨by decide, by decide⟩
  have utc : noon.zone = some .utc := rfl
  obtain ⟨daily, answers⟩ := reports_once_a_day.2 shown steady utc (by decide +kernel) 4
  obtain ⟨run, ran⟩ := answers (by decide +kernel) (by decide +kernel)
  obtain ⟨⟨first, days⟩, -, later⟩ := daily run ran
  have listed : (rounds ⟨2, 30⟩ (.named newYork) 4 noon).toOption.map
      (·.map fun round => (round.due.date, round.wake.wall)) =
      some newYorkWakes := by decide +kernel
  rw [ran] at listed
  exact ⟨run, first, ran, days, later, Option.some.inj listed⟩

end SpreadWatch.Report
