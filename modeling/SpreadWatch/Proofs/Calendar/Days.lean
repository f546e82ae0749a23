import Mathlib
import SpreadWatch.Calendar.Iso

/-!
The count of days and the dates. The date with a count of days has this count, so dates of different
days differ.
-/

namespace SpreadWatch.Calendar

theorem days_before_month_succ (year : ℕ) {month : ℕ} (positive : 1 ≤ month) :
    daysBeforeMonth year (month + 1) = daysBeforeMonth year month + daysInMonth year month := by
  have last : month + 1 - 1 = (month - 1) + 1 := by omega
  have index : month - 1 + 1 = month := by omega
  rw [daysBeforeMonth, last, List.range_succ, List.foldl_append, List.foldl_cons, List.foldl_nil,
    index, ← daysBeforeMonth]

/-- Going over months keeps the count of days from the beginning of the year. -/
theorem month_day_days (year fuel : ℕ) {month : ℕ} (positive : 1 ≤ month) (index : ℕ) :
    daysBeforeMonth year (monthDay year fuel month index).1 +
        ((monthDay year fuel month index).2 - 1) =
      daysBeforeMonth year month + index := by
  induction fuel generalizing month index with
  | zero => rfl
  | succ fuel induction =>
      rw [monthDay]
      split_ifs with here
      · rfl
      · have later := induction (by omega : 1 ≤ month + 1) (index - daysInMonth year month)
        rw [days_before_month_succ year positive] at later
        omega

/-- The days before a year, by its place in the cycles of 400, 100, 4 and 1 years. -/
theorem days_before_year_cycles {centuries fours years : ℕ} (cycles : ℕ) (hundreds : centuries ≤ 3)
    (few : fours ≤ 24) (single : years ≤ 3) :
    daysBeforeYear (cycles * 400 + centuries * 100 + fours * 4 + years + 1) =
      cycles * 146097 + centuries * 36524 + fours * 1461 + years * 365 := by
  rw [daysBeforeYear, Nat.add_sub_cancel]
  omega

theorem to_days_of_days (days : ℕ) : (Date.ofDays days).toDays = days := by
  have months (year index : ℕ) := month_day_days year 11 le_rfl index
  have none (year : ℕ) : daysBeforeMonth year 1 = 0 := rfl
  unfold Date.ofDays Date.toDays
  simp only
  rw [Nat.add_assoc, months, none, days_before_year_cycles]
  · omega
  · omega
  · omega
  · omega

theorem Moment.date_to_days (m : Moment) : m.date.toDays = (m.wall / day).toNat :=
  to_days_of_days _

end SpreadWatch.Calendar
