import SpreadWatch.Calendar.Moment
import SpreadWatch.Proofs.Calendar.OffsetTable

/-!
Readings of a zone's clock and the instants that they lead to, in microseconds. Of a clock that is
shown in UTC and read again, the reading comes back the same or less than a day later, if it is no
second reading, or lies on the day of a second reading that was shown before.
-/

namespace SpreadWatch.Calendar

def Zone.table : Zone → OffsetTable
  | .utc => constantTable 0
  | .fixed seconds => constantTable seconds
  | .named zone => zone.table

def Zone.Steady (zone : Zone) : Prop := zone.table.Steady

/-- The zones that a clock can be read in: UTC, less than a day from it all the time, or known by
name. -/
inductive Zone.Known : Zone → Prop
  | utc : Known .utc
  | fixed {seconds : Int} (lower : -daySeconds < seconds) (upper : seconds < daySeconds) :
      Known (.fixed seconds)
  | named {zone : NamedZone} (listed : zone ∈ namedZones) : Known (.named zone)

namespace Zone

variable {zone : Zone}

theorem Known.steady (known : zone.Known) : zone.Steady := by
  cases known with
  | utc => exact OffsetTable.constant_steady (by decide) (by decide)
  | fixed lower upper => exact OffsetTable.constant_steady lower upper
  | named listed => exact named_zones_steady _ listed

theorem at_wall_eq (zone : Zone) (wall : Int) (fold : Bool) :
    zone.atWall wall fold = offsetAtWallFrom wall fold zone.table.initial zone.table.changes := by
  cases zone <;> rfl

theorem at_instant_eq (zone : Zone) (instant : Int) :
    zone.atInstant instant =
      offsetAtInstantFrom instant zone.table.initial false zone.table.changes := by
  cases zone <;> rfl

theorem at_wall_mem (zone : Zone) (wall : Int) (fold : Bool) :
    zone.atWall wall fold ∈ zone.table.offsets := by
  rw [at_wall_eq]
  exact OffsetTable.at_wall_mem wall fold _ _

theorem at_instant_mem (zone : Zone) (instant : Int) :
    (zone.atInstant instant).1 ∈ zone.table.offsets := by
  rw [at_instant_eq]
  exact OffsetTable.at_instant_mem instant _ false _

theorem same_clock_utc : zone.sameClock .utc = true ↔ zone = .utc := by
  cases zone <;> simp [sameClock]

end Zone

def Zone.shown (zone : Zone) (instant : Int) : Int :=
  instant + (zone.atInstant (instant / second)).1 * second

def Zone.meant (zone : Zone) (wall : Int) (fold : Bool) : Int :=
  wall - zone.atWall (wall / second) fold * second

/-- A moment is what a zone's clock shows at an instant. The clock of UTC has no second readings,
whatever the fold of the moment says. -/
structure Zone.Shows (zone : Zone) (instant : Int) (m : Moment) : Prop where
  zoned : m.zone = some zone
  wall : m.wall = zone.shown instant
  fold : m.fold = true → zone = .utc ∨ (zone.atInstant (instant / second)).2 = true

/-- A moment that is no second reading, or a later one on the day of a given reading with the same
fold. -/
inductive Moment.Follows (reading : Moment) : Moment → Prop
  | first {wall : Int} : Follows reading { reading with wall, fold := false }
  | sameDay {wall : Int} (later : reading.wall ≤ wall) (sameDay : wall / day = reading.wall / day) :
      Follows reading { reading with wall }

theorem Moment.Follows.zone_eq {reading due : Moment} (follows : reading.Follows due) :
    due.zone = reading.zone := by
  cases follows <;> rfl

theorem sub_seconds_div (wall offset : Int) :
    (wall - offset * second) / second = wall / second - offset :=
  Int.sub_mul_ediv_right wall offset (by decide)

theorem Zone.shown_seconds (zone : Zone) (instant : Int) :
    zone.shown instant / second = instant / second + (zone.atInstant (instant / second)).1 :=
  Int.add_mul_ediv_right _ _ (by decide)

section Back

variable {zone : Zone} (steady : zone.Steady)

include steady

theorem Zone.Steady.shown_first (wall : Int) :
    wall ≤ zone.shown (zone.meant wall false) ∧
      zone.shown (zone.meant wall false) < wall + day := by
  have later : zone.atWall (wall / second) false ≤
      (zone.atInstant (wall / second - zone.atWall (wall / second) false)).1 := by
    rw [zone.at_instant_eq, zone.at_wall_eq]
    exact OffsetTable.Steady.shows_later steady (wall / second) false
  have near := OffsetTable.Steady.near steady _
    (zone.at_instant_mem (wall / second - zone.atWall (wall / second) false))
    _ (zone.at_wall_mem (wall / second) false)
  rw [shown, meant, sub_seconds_div]
  simp only [second, day, daySeconds] at *
  omega

/-- On the day of a second reading its offset stays in force, by the wall and in fact. -/
theorem Zone.Steady.folded {instant wall : Int}
    (fold : (zone.atInstant (instant / second)).2 = true) (later : zone.shown instant ≤ wall)
    (sameDay : wall / day = zone.shown instant / day) :
    ∃ offset, zone.atInstant (instant / second) = (offset, true) ∧
      zone.atWall (wall / second) true = offset ∧
      (zone.atInstant (wall / second - offset)).1 = offset := by
  obtain ⟨offset, shown⟩ : ∃ offset, zone.atInstant (instant / second) = (offset, true) :=
    ⟨_, Prod.ext rfl fold⟩
  have seconds : zone.shown instant / second = instant / second + offset := by
    rw [zone.shown_seconds, shown]
  have table := shown
  rw [zone.at_instant_eq] at table
  obtain ⟨atWall, atLater⟩ := OffsetTable.Steady.folded steady (by simp) table
  have lower : instant / second + offset ≤ wall / second := by
    rw [← seconds]
    exact Int.ediv_le_ediv (by decide) later
  have upper : wall / second < instant / second + offset + daySeconds := by
    rw [← seconds]
    simp only [second, day, daySeconds] at *
    omega
  refine ⟨offset, shown, ?_, ?_⟩
  · rw [zone.at_wall_eq]
    exact atWall _ lower upper
  · rw [zone.at_instant_eq]
    exact atLater _ false (by omega) (by omega)

theorem Zone.Steady.shown_same_day {instant wall : Int}
    (fold : (zone.atInstant (instant / second)).2 = true) (later : zone.shown instant ≤ wall)
    (sameDay : wall / day = zone.shown instant / day) :
    zone.shown (zone.meant wall true) = wall := by
  obtain ⟨offset, -, atDue, again⟩ := steady.folded fold later sameDay
  rw [Zone.shown, Zone.meant, atDue, sub_seconds_div, again]
  omega

theorem Zone.Steady.shown_near (instant : Int) :
    instant - day < zone.shown instant ∧ zone.shown instant < instant + day := by
  have within := OffsetTable.Steady.within steady _ (zone.at_instant_mem (instant / second))
  simp only [shown, second, day, daySeconds] at *
  omega

theorem Zone.Steady.meant_near (wall : Int) (fold : Bool) :
    wall - day < zone.meant wall fold ∧ zone.meant wall fold < wall + day := by
  have within := OffsetTable.Steady.within steady _ (zone.at_wall_mem (wall / second) fold)
  simp only [meant, second, day, daySeconds] at *
  omega

/-- Of readings a day apart the later one means a later instant. -/
theorem Zone.Steady.meant_lt {wall next : Int} (later : wall + day ≤ next) (fold other : Bool) :
    zone.meant wall fold < zone.meant next other := by
  have near := OffsetTable.Steady.near steady _ (zone.at_wall_mem (next / second) other)
    _ (zone.at_wall_mem (wall / second) fold)
  simp only [meant, second, day, daySeconds] at *
  omega

/-- What is shown at the instant of a moment that follows a reading. -/
theorem Zone.Shows.shown_back {instant : Int} {reading due : Moment}
    (shows : zone.Shows instant reading) (follows : reading.Follows due) :
    due.wall ≤ zone.shown (zone.meant due.wall due.fold) ∧
      zone.shown (zone.meant due.wall due.fold) < due.wall + day := by
  cases follows with
  | first => exact steady.shown_first _
  | @sameDay wall later sameDay =>
      rw [shows.wall] at later sameDay
      cases folded : reading.fold with
      | false => exact steady.shown_first wall
      | true =>
          have same : zone.shown (zone.meant wall true) = wall := by
            rcases shows.fold folded with rfl | fold
            · simp [Zone.shown, Zone.meant, Zone.atWall, Zone.atInstant]
            · exact steady.shown_same_day fold later sameDay
          dsimp only
          rw [same]
          exact ⟨le_rfl, Int.lt_add_of_pos_right _ (by decide)⟩

end Back

namespace Moment

def Before (m other : Moment) : Prop :=
  ∃ first second, m.instant? = some first ∧ other.instant? = some second ∧ first < second

theorem instant_of_utc {m : Moment} (zoned : m.zone = some .utc) : m.instant? = some m.wall := by
  simp [ instant?, offset?, zoned, Zone.atWall]

/-! ### Conversions -/

variable {zone : Zone} {instant : Int} {m utc reading : Moment}

theorem of_instant_iff :
    ofInstant? zone instant = some m ↔ inCalendar instant = true ∧
      inCalendar (zone.shown instant) = true ∧
      m = { wall := zone.shown instant, zone := some zone,
            fold := (zone.atInstant (instant / second)).2 } := by
  have opened : ofInstant? zone instant =
      if ! inCalendar instant then none
      else if inCalendar (zone.shown instant) then
        some { wall := zone.shown instant, zone := some zone,
               fold := (zone.atInstant (instant / second)).2 }
      else none := rfl
  rw [opened]
  cases inCalendar instant <;> cases inCalendar (zone.shown instant) <;> simp [eq_comm]

theorem in_zone_of_utc (zoned : utc.zone = some .utc) :
    utc.inZone? zone = if zone = .utc then some utc else ofInstant? zone utc.wall := by
  have offset : utc.offset?.getD 0 = 0 := by simp [ offset?, zoned, Zone.atWall]
  have same : utc.zone.any (·.sameClock zone) = true ↔ zone = .utc := by
    rw [zoned]
    cases zone <;> simp [Zone.sameClock]
  rw [inZone?, offset, Int.sub_zero]
  exact if_congr same rfl rfl

/-- What a zone's clock shows at a moment in UTC. -/
theorem shows_of_utc (zoned : utc.zone = some .utc) (inside : inCalendar utc.wall = true)
    (read : utc.inZone? zone = some reading) :
    zone.Shows utc.wall reading ∧ inCalendar reading.wall = true := by
  rw [in_zone_of_utc zoned] at read
  split_ifs at read with universal
  · obtain rfl := Option.some.inj read
    rw [universal]
    exact ⟨⟨zoned, by simp [Zone.shown, Zone.atInstant], fun _ => .inl rfl⟩, inside⟩
  · obtain ⟨-, shownInside, rfl⟩ := of_instant_iff.mp read
    exact ⟨⟨rfl, rfl, .inr⟩, shownInside⟩

theorem in_zone_answers (zoned : utc.zone = some .utc) (inside : inCalendar utc.wall = true)
    (shownInside : inCalendar (zone.shown utc.wall) = true) :
    ∃ reading, utc.inZone? zone = some reading := by
  rw [in_zone_of_utc zoned]
  split_ifs with universal
  · exact ⟨utc, rfl⟩
  · exact ⟨_, of_instant_iff.mpr ⟨inside, shownInside, rfl⟩⟩

theorem to_utc_of_zoned (zoned : m.zone = some zone) :
    m.toUtc? =
      if zone = .utc then some m else ofInstant? .utc (zone.meant m.wall m.fold) := by
  have same : m.zone.any (·.sameClock .utc) = true ↔ zone = .utc := by
    rw [zoned]
    exact Zone.same_clock_utc
  have meant : m.wall - m.offset?.getD 0 = zone.meant m.wall m.fold := by
    simp [ offset?, zoned, Zone.meant]
  have opened : m.toUtc? = m.inZone? .utc := by
    rw [toUtc?, zoned]
  rw [opened, inZone?, meant]
  exact if_congr same rfl rfl

/-- The moment in UTC is at the instant that is meant. -/
theorem to_utc_meant (zoned : m.zone = some zone) (inside : inCalendar m.wall = true)
    (converted : m.toUtc? = some utc) :
    utc.zone = some .utc ∧ inCalendar utc.wall = true ∧
      utc.wall = zone.meant m.wall m.fold := by
  rw [to_utc_of_zoned zoned] at converted
  split_ifs at converted with universal
  · obtain rfl := Option.some.inj converted
    rw [universal] at zoned ⊢
    exact ⟨zoned, inside, by simp [Zone.meant, Zone.atWall]⟩
  · obtain ⟨meantInside, -, rfl⟩ := of_instant_iff.mp converted
    have same : Zone.shown .utc (zone.meant m.wall m.fold) = zone.meant m.wall m.fold := by
      simp [Zone.shown, Zone.atInstant]
    exact ⟨rfl, by rw [same]; exact meantInside, same⟩

theorem to_utc_answers (zoned : m.zone = some zone)
    (meantInside : inCalendar (zone.meant m.wall m.fold) = true) :
    ∃ utc, m.toUtc? = some utc := by
  rw [to_utc_of_zoned zoned]
  split_ifs with universal
  · exact ⟨m, rfl⟩
  · refine ⟨_, of_instant_iff.mpr ⟨meantInside, ?_, rfl⟩⟩
    simpa [Zone.shown, Zone.atInstant] using meantInside

end Moment

end SpreadWatch.Calendar
