import Mathlib
import SpreadWatch.Calendar.ZoneTable

/-!
Reading a wall clock back. The offset at a wall reading leads to an instant, at which the clock
shows a reading again: the same one, or one up to a day later where the reading was skipped. This is
so in tables whose offsets lie less than a day apart and whose changes are three days apart, as they
are in all named zones.
-/

namespace SpreadWatch.Calendar

def daySeconds : Int := 86400

namespace OffsetTable

def offsets (table : OffsetTable) : List Int := table.initial :: table.changes.map (·.offset)

/-- Offsets are less than a day, and lie less than a day from each other. Between changes there are
three days. -/
structure Steady (table : OffsetTable) : Prop where
  within : ∀ offset ∈ table.offsets, -daySeconds < offset ∧ offset < daySeconds
  near : ∀ first ∈ table.offsets, ∀ second ∈ table.offsets, first - second < daySeconds
  spaced : table.changes.Pairwise fun first second =>
    first.start + 3 * daySeconds ≤ second.start

/-- Of each offset one suffices, and of the changes those that follow each other. -/
theorem steady_iff (table : OffsetTable) :
    table.Steady ↔
      (∀ offset ∈ table.offsets.dedup, -daySeconds < offset ∧ offset < daySeconds) ∧
      (∀ first ∈ table.offsets.dedup, ∀ second ∈ table.offsets.dedup,
        first - second < daySeconds) ∧
      table.changes.IsChain fun first second =>
        first.start + 3 * daySeconds ≤ second.start := by
  have transitive : IsTrans OffsetChange fun first second =>
      first.start + 3 * daySeconds ≤ second.start := by
    constructor
    intro first second third one two
    have positive : 0 < daySeconds := by decide
    omega
  simp only [List.mem_dedup, List.isChain_iff_pairwise]
  exact ⟨fun steady => ⟨steady.within, steady.near, steady.spaced⟩,
    fun parts => ⟨parts.1, parts.2.1, parts.2.2⟩⟩

instance (table : OffsetTable) : Decidable table.Steady :=
  decidable_of_iff _ (steady_iff table).symm

theorem constant_steady {offset : Int} (lower : -daySeconds < offset)
    (upper : offset < daySeconds) : (constantTable offset).Steady := by
  have only : ∀ other ∈ (constantTable offset).offsets, other = offset := by
    simp [constantTable, offsets]
  constructor
  · intro other member
    rw [only other member]
    exact ⟨lower, upper⟩
  · intro first member second other
    rw [only first member, only second other, Int.sub_self]
    decide
  · exact List.Pairwise.nil

variable {current : Int} {change : OffsetChange} {rest changes : List OffsetChange}

theorem Steady.tail (steady : Steady ⟨current, change :: rest⟩) : Steady ⟨change.offset, rest⟩ := by
  have among : ∀ offset ∈ offsets ⟨change.offset, rest⟩,
      offset ∈ offsets ⟨current, change :: rest⟩ := by
    intro offset member
    exact List.mem_cons_of_mem _ member
  constructor
  · intro offset member
    exact steady.within offset (among offset member)
  · intro first member second other
    exact steady.near first (among first member) second (among second other)
  · exact (List.pairwise_cons.mp steady.spaced).2

theorem Steady.later (steady : Steady ⟨current, change :: rest⟩) :
    ∀ next ∈ rest, change.start + 3 * daySeconds ≤ next.start :=
  (List.pairwise_cons.mp steady.spaced).1

theorem at_wall_mem (wall : Int) (fold : Bool) (current : Int) (changes : List OffsetChange) :
    offsetAtWallFrom wall fold current changes ∈ offsets ⟨current, changes⟩ := by
  induction changes generalizing current with
  | nil => exact List.mem_cons_self
  | cons change rest induction =>
      rw [offsetAtWallFrom]
      split_ifs with past
      · exact List.mem_cons_of_mem _ (induction change.offset)
      · exact List.mem_cons_self

theorem at_instant_mem (instant current : Int) (fold : Bool) (changes : List OffsetChange) :
    (offsetAtInstantFrom instant current fold changes).1 ∈ offsets ⟨current, changes⟩ := by
  induction changes generalizing current fold with
  | nil => exact List.mem_cons_self
  | cons change rest induction =>
      rw [offsetAtInstantFrom]
      split_ifs with past
      · exact List.mem_cons_of_mem _ (induction change.offset _)
      · exact List.mem_cons_self

theorem Steady.wall_start_gt (steady : Steady ⟨current, change :: rest⟩) (fold : Bool) :
    change.start - daySeconds < change.wallStart current fold := by
  have before := steady.within current (by simp [offsets])
  have after := steady.within change.offset (by simp [offsets])
  cases fold <;> simp only [OffsetChange.wallStart, Bool.false_eq_true, if_false, if_true] <;> omega

/-- An offset other than the first is in force from a change on. -/
theorem Steady.at_wall_started (steady : Steady ⟨current, changes⟩) (wall : Int) (fold : Bool) :
    offsetAtWallFrom wall fold current changes = current ∨
      ∃ next ∈ changes, next.start - daySeconds < wall := by
  cases changes with
  | nil => exact .inl rfl
  | cons change rest =>
      rw [offsetAtWallFrom]
      split_ifs with past
      · exact .inr ⟨change, by simp, (steady.wall_start_gt fold).trans_le past⟩
      · exact .inl rfl

theorem at_instant_started (instant current : Int) (fold : Bool) (changes : List OffsetChange) :
    (offsetAtInstantFrom instant current fold changes).1 = current ∨
      ∃ next ∈ changes, next.start ≤ instant := by
  cases changes with
  | nil => exact .inl rfl
  | cons change rest =>
      rw [offsetAtInstantFrom]
      split_ifs with past
      · exact .inr ⟨change, by simp, past⟩
      · exact .inl rfl

/-- Where the first of two equal readings is meant, the clock does not show an earlier one at the
instant that the reading leads to. -/
theorem Steady.shows_later (steady : Steady ⟨current, changes⟩) (wall : Int) (fold : Bool) :
    offsetAtWallFrom wall false current changes ≤
      (offsetAtInstantFrom (wall - offsetAtWallFrom wall false current changes) current fold
        changes).1 := by
  induction changes generalizing current fold with
  | nil => exact le_rfl
  | cons change rest induction =>
      have after := steady.tail.within change.offset (by simp [offsets])
      have later := steady.later
      rw [offsetAtWallFrom]
      by_cases past : change.wallStart current false ≤ wall
      · rw [if_pos past]
        have reached : change.start ≤ wall - offsetAtWallFrom wall false change.offset rest := by
          have offset := steady.tail.within _ (at_wall_mem wall false change.offset rest)
          rw [OffsetChange.wallStart] at past
          rcases steady.tail.at_wall_started wall false with same | ⟨next, member, started⟩
          · rw [same]
            simp only [Bool.false_eq_true, if_false] at past
            omega
          · have gap := later next member
            omega
        rw [offsetAtInstantFrom, if_pos reached]
        exact induction steady.tail _
      · rw [if_neg past, offsetAtInstantFrom]
        split_ifs with reached
        · -- the reading was skipped, and the change that skipped it is the last one
          have near := steady.near change.offset (by simp [offsets]) current (by simp [offsets])
          simp only [OffsetChange.wallStart, Bool.false_eq_true, if_false] at past
          rcases at_instant_started (wall - current) change.offset _ rest with
            same | ⟨next, member, started⟩
          · rw [same]
            omega
          · have gap := later next member
            omega
        · exact le_rfl

/-- After the second of two equal readings the offset stays for a day, by the wall and in fact. -/
theorem Steady.folded (steady : Steady ⟨current, changes⟩) {instant offset : Int} {fold : Bool}
    (settled : fold = true → ∀ next ∈ changes, instant + 2 * daySeconds ≤ next.start)
    (shown : offsetAtInstantFrom instant current fold changes = (offset, true)) :
    (∀ wall, instant + offset ≤ wall → wall < instant + offset + daySeconds →
      offsetAtWallFrom wall true current changes = offset) ∧
    ∀ later other, instant ≤ later → later < instant + daySeconds →
      (offsetAtInstantFrom later current other changes).1 = offset := by
  induction changes generalizing current fold with
  | nil =>
      obtain ⟨rfl, rfl⟩ := Prod.mk.inj shown
      exact ⟨fun _ _ _ => rfl, fun _ _ _ _ => rfl⟩
  | cons change rest induction =>
      have near := steady.near current (by simp [offsets]) change.offset (by simp [offsets])
      rw [offsetAtInstantFrom] at shown
      split_ifs at shown with past
      · have gap := steady.later
        have nextSettled : decide (instant - change.start < current - change.offset) = true →
            ∀ next ∈ rest, instant + 2 * daySeconds ≤ next.start := by
          intro stepped next member
          have apart := gap next member
          have back := of_decide_eq_true stepped
          omega
        obtain ⟨atWall, atLater⟩ := induction steady.tail nextSettled shown
        constructor
        · intro wall lower upper
          have after := steady.tail.within change.offset (by simp [offsets])
          have passed : change.wallStart current true ≤ wall := by
            have member := at_instant_mem instant change.offset
              (decide (instant - change.start < current - change.offset)) rest
            have started := at_instant_started instant change.offset
              (decide (instant - change.start < current - change.offset)) rest
            rw [shown] at member started
            have offsetWithin := steady.tail.within offset member
            simp only [OffsetChange.wallStart, if_true]
            rcases started with same | ⟨next, member, started⟩
            · simp only at same
              omega
            · have apart := gap next member
              omega
          rw [offsetAtWallFrom, if_pos passed]
          exact atWall wall lower upper
        · intro later other lower upper
          rw [offsetAtInstantFrom, if_pos (by omega)]
          exact atLater later _ lower upper
      · obtain ⟨rfl, rfl⟩ := Prod.mk.inj shown
        have gap := settled rfl change (by simp)
        constructor
        · intro wall lower upper
          rw [offsetAtWallFrom, if_neg]
          simp only [OffsetChange.wallStart, if_true]
          omega
        · intro later other lower upper
          rw [offsetAtInstantFrom, if_neg (by omega)]

end OffsetTable

theorem named_zones_steady : ∀ named ∈ namedZones, named.table.Steady := by
  decide +kernel

end SpreadWatch.Calendar
