import SpreadWatch.Proofs.Calendar.Reading

/-!
Later readings and later instants. A clock that is set back shows readings again, and one of them
may mean an earlier instant than a reading before it. In the known zones this does not happen
between days: the readings that are shown again lie on one day. So a reading that is no second one,
of a later day or after one shown for the first time, means a later instant.
-/

namespace SpreadWatch.Calendar

/-- The seconds by which the offsets of a known zone differ at most. -/
def hourSeconds : Int := 3600

/-- Each change back repeats readings of one day only, given the offset before the changes. -/
def RepeatsInDay : Int → List OffsetChange → Prop
  | _, [] => True
  | current, change :: rest =>
      (change.offset < current →
        (change.start + change.offset) / daySeconds = (change.start + current - 1) / daySeconds) ∧
      RepeatsInDay change.offset rest

instance decideRepeatsInDay :
    (current : Int) → (changes : List OffsetChange) → Decidable (RepeatsInDay current changes)
  | _, [] => .isTrue trivial
  | _, change :: rest =>
      have := decideRepeatsInDay change.offset rest
      inferInstanceAs (Decidable (_ ∧ _))

namespace OffsetTable

/-- A table with offsets that differ by an hour at most, and with repeated readings of one day. -/
structure Gentle (table : OffsetTable) : Prop where
  steady : table.Steady
  hourly : ∀ first ∈ table.offsets, ∀ second ∈ table.offsets, first - second ≤ hourSeconds
  repeats : RepeatsInDay table.initial table.changes

theorem gentle_iff (table : OffsetTable) :
    table.Gentle ↔ table.Steady ∧
      (∀ first ∈ table.offsets.dedup, ∀ second ∈ table.offsets.dedup,
        first - second ≤ hourSeconds) ∧
      RepeatsInDay table.initial table.changes := by
  simp only [List.mem_dedup]
  exact ⟨fun gentle => ⟨gentle.steady, gentle.hourly, gentle.repeats⟩,
    fun parts => ⟨parts.1, parts.2.1, parts.2.2⟩⟩

instance (table : OffsetTable) : Decidable table.Gentle :=
  decidable_of_iff _ (gentle_iff table).symm

theorem constant_gentle {offset : Int} (lower : -daySeconds < offset)
    (upper : offset < daySeconds) : (constantTable offset).Gentle := by
  have only : ∀ other ∈ (constantTable offset).offsets, other = offset := by
    simp [constantTable, offsets]
  refine ⟨constant_steady lower upper, ?_, trivial⟩
  intro first member second other
  rw [only first member, only second other, Int.sub_self]
  decide

variable {current instant wall offset : Int} {change : OffsetChange}
  {rest changes : List OffsetChange} {fold again : Bool}

/-- After a change, a reading that is later than what the clock shows comes after the change, too:
otherwise it is one of the readings that are shown again. -/
theorem wall_start_le_later (steady : Steady ⟨current, change :: rest⟩)
    (inDay : change.offset < current →
      (change.start + change.offset) / daySeconds = (change.start + current - 1) / daySeconds)
    (past : change.start ≤ instant)
    (shown : offsetAtInstantFrom instant change.offset
      (decide (instant - change.start < current - change.offset)) rest = (offset, again))
    (later : instant + offset < wall)
    (nextDay : again = true → (instant + offset) / daySeconds < wall / daySeconds) :
    change.wallStart current false ≤ wall := by
  simp only [OffsetChange.wallStart, Bool.false_eq_true, if_false]
  by_contra before
  have near := steady.near current (by simp [offsets])
  -- the offset of the change is still in force, since the next change comes days later
  have final : offsetAtInstantFrom instant change.offset
      (decide (instant - change.start < current - change.offset)) rest =
      (change.offset, decide (instant - change.start < current - change.offset)) := by
    cases rest with
    | nil => rfl
    | cons next others =>
        have gap := steady.later next (by simp)
        have member := at_instant_mem instant change.offset
          (decide (instant - change.start < current - change.offset)) (next :: others)
        rw [shown] at member
        have apart := near offset (List.mem_cons_of_mem _ member)
        have tail := steady.near change.offset (by simp [offsets]) offset
          (List.mem_cons_of_mem _ member)
        rw [offsetAtInstantFrom, if_neg]
        omega
  obtain ⟨rfl, rfl⟩ := Prod.mk.inj (shown.symm.trans final)
  have back : change.offset < current := by omega
  have repeated : decide (instant - change.start < current - change.offset) = true :=
    decide_eq_true (by omega)
  have sameDay := inDay back
  have advance := nextDay repeated
  have lower : (change.start + change.offset) / daySeconds ≤
      (instant + change.offset) / daySeconds := Int.ediv_le_ediv (by decide) (by omega)
  have upper : wall / daySeconds ≤ (change.start + current - 1) / daySeconds :=
    Int.ediv_le_ediv (by decide) (by omega)
  omega

/-- A reading after what the clock shows means a later instant, if it is no second reading and, when
a second reading is shown, lies on a later day. -/
theorem at_instant_before_wall (steady : Steady ⟨current, changes⟩)
    (repeats : RepeatsInDay current changes)
    (shown : offsetAtInstantFrom instant current fold changes = (offset, again))
    (later : instant + offset < wall)
    (nextDay : again = true → (instant + offset) / daySeconds < wall / daySeconds) :
    instant < wall - offsetAtWallFrom wall false current changes := by
  induction changes generalizing current fold with
  | nil =>
      obtain ⟨rfl, -⟩ := Prod.mk.inj shown
      rw [offsetAtWallFrom]
      omega
  | cons change rest induction =>
      obtain ⟨inDay, repeatsRest⟩ := repeats
      rw [offsetAtInstantFrom] at shown
      split_ifs at shown with past
      · have started := wall_start_le_later steady inDay past shown later nextDay
        rw [offsetAtWallFrom, if_pos started]
        exact induction steady.tail repeatsRest shown
      · obtain ⟨rfl, -⟩ := Prod.mk.inj shown
        rw [offsetAtWallFrom]
        split_ifs with started
        · -- the reading is after the change and the instant before it
          simp only [OffsetChange.wallStart, Bool.false_eq_true, if_false] at started
          have bounded := steady.tail.within _ (at_wall_mem wall false change.offset rest)
          have after := steady.tail.within change.offset (by simp [offsets])
          rcases steady.tail.at_wall_started wall false with same | ⟨next, member, reached⟩
          · rw [same]
            omega
          · have gap := steady.later next member
            omega
        · omega

end OffsetTable

theorem named_zones_gentle : ∀ named ∈ namedZones, named.table.Gentle := by
  decide +kernel

def Zone.Gentle (zone : Zone) : Prop := zone.table.Gentle

theorem Zone.Known.gentle {zone : Zone} (known : zone.Known) : zone.Gentle := by
  cases known with
  | utc => exact OffsetTable.constant_gentle (by decide) (by decide)
  | fixed lower upper => exact OffsetTable.constant_gentle lower upper
  | named listed => exact named_zones_gentle _ listed

namespace Zone

variable {zone : Zone} {instant wall : Int}

/-- A later reading, to the second, means a later instant if it is no second reading and, when a
second reading is shown, lies on a later day. -/
theorem Gentle.before_meant (gentle : zone.Gentle) (whole : wall % second = 0)
    (later : zone.shown instant < wall)
    (nextDay : (zone.atInstant (instant / second)).2 = true →
      zone.shown instant / day < wall / day) :
    instant < zone.meant wall false := by
  obtain ⟨⟨offset, again⟩, shown⟩ : ∃ pair, zone.atInstant (instant / second) = pair := ⟨_, rfl⟩
  have seconds : zone.shown instant / second = instant / second + offset := by
    rw [zone.shown_seconds, shown]
  have days (m : Int) : m / second / daySeconds = m / day := Int.ediv_ediv_of_nonneg (by decide)
  have ahead : instant / second + offset < wall / second := by
    rw [← seconds]
    simp only [second] at *
    omega
  rw [shown, ← days, ← days, seconds] at nextDay
  rw [zone.at_instant_eq] at shown
  have before : instant / second < wall / second - zone.atWall (wall / second) false := by
    rw [zone.at_wall_eq]
    exact OffsetTable.at_instant_before_wall gentle.steady gentle.repeats shown ahead nextDay
  rw [meant]
  simp only [second] at *
  omega

/-- The same on the day of a second reading, for a reading that is a second one as well. -/
theorem Steady.before_meant_again (steady : zone.Steady)
    (fold : (zone.atInstant (instant / second)).2 = true) (later : zone.shown instant < wall)
    (sameDay : wall / day = zone.shown instant / day) :
    instant < zone.meant wall true := by
  obtain ⟨offset, shown, atWall, -⟩ := steady.folded fold later.le sameDay
  have reading : zone.shown instant = instant + offset * second := by rw [Zone.shown, shown]
  rw [meant, atWall]
  omega

end Zone

end SpreadWatch.Calendar
