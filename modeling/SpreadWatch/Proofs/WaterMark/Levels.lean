import SpreadWatch.Proofs.WaterMark

/-!
The levels of water marks, which is what they are as numbers. Recording results raises the levels of
any marks that are numbers, each by a swap with the extreme, so the order of the results does not
matter, whatever the marks have been before.
-/

namespace SpreadWatch

/-- One number for every mark of every pair that has marks. -/
abbrev Levels := Mark → Pair → Option Quantity

namespace Mark

def pick : Mark → Quantity → Quantity → Quantity
  | .minEntry | .minExit => min
  | .maxEntry | .maxExit => max

theorem pick_right_comm (mark : Mark) (p q r : Quantity) :
    mark.pick (mark.pick p q) r = mark.pick (mark.pick p r) q := by
  cases mark with
  | minEntry | minExit => exact min_right_comm p q r
  | maxEntry | maxExit => exact max_right_comm p q r

theorem extreme_pick (mark : Mark) (p q : Quantity) :
    mark.Extreme (insert q {p}) (mark.pick p q) := by
  cases mark with
  | minEntry | minExit =>
      rw [pick, min_comm]
      exact isLeast_singleton.insert q
  | maxEntry | maxExit =>
      rw [pick, max_comm]
      exact isGreatest_singleton.insert q

end Mark

def MarkTable.level (table : MarkTable) (pair : Pair) : Option Quantity :=
  (table.get? pair).bind Decimal.quantity?

namespace Levels

/-- The levels after a result. A spread that is no number leaves them alone. -/
def raise (levels : Levels) (result : SpreadResult) : Levels := fun mark pair =>
  match mark.quantityOf result with
  | some q =>
      if result.pair = pair then some (mark.pick ((levels mark pair).getD mark.origin) q)
      else levels mark pair
  | none => levels mark pair

theorem raise_right_comm (levels : Levels) (first second : SpreadResult) :
    (levels.raise first).raise second = (levels.raise second).raise first := by
  funext mark pair
  unfold raise
  cases mark.quantityOf first with
  | none => rfl
  | some p =>
  cases mark.quantityOf second with
  | none => rfl
  | some q =>
      dsimp only
      split_ifs
      · simp only [Option.getD_some, mark.pick_right_comm]
      · rfl
      · rfl
      · rfl

instance : RightCommutative raise := ⟨raise_right_comm⟩

/-- Results raise the levels in the same way in whatever order. -/
theorem raise_permuted {first second : List SpreadResult} (permuted : first.Perm second)
    (levels : Levels) : first.foldl raise levels = second.foldl raise levels :=
  permuted.foldl_eq levels

end Levels

namespace Tracker

variable {tracker : Tracker} {result : SpreadResult}

def levels (tracker : Tracker) : Levels := fun mark => (tracker.table mark).level

theorem extend_raises {mark : Mark} {table next : MarkTable} {levels : Levels}
    (numbered : MarkTable.Numbered table) (numeric : result.Numeric)
    (before : levels mark = table.level)
    (extended : extend table mark result.pair (mark.spreadOf result) = .ok next) :
    levels.raise result mark = next.level := by
  obtain ⟨q, spreadIs⟩ := mark.quantity_of_numeric numeric
  obtain ⟨spread, given, spreadQuantity⟩ := Option.bind_eq_some_iff.mp spreadIs
  obtain ⟨p, knownIs, levelIs⟩ :
      ∃ p, ((table.get? result.pair).getD mark.start).quantity? = some p ∧
        (table.level result.pair).getD mark.origin = p := by
    rw [MarkTable.level]
    cases found : table.get? result.pair with
    | some value =>
        obtain ⟨p, valueIs⟩ := Decimal.quantity_of_number (numbered result.pair value found)
        exact ⟨p, valueIs, by rw [Option.bind_some, valueIs]; rfl⟩
    | none => exact ⟨mark.origin, mark.start_quantity, rfl⟩
  obtain ⟨value, r, computed, valueIs, extreme⟩ :=
    Mark.extreme_insert knownIs spreadQuantity (mark.extreme_singleton p)
  have picked : r = mark.pick p q := extreme.unique (mark.extreme_pick p q)
  have set : table.set result.pair value = next := by
    simp only [extend, given, computed, liftDecimal, Except.mapError, bind, Except.bind] at extended
    cases extended
    rfl
  funext pair
  rw [← set, Levels.raise, spreadIs, before]
  dsimp only
  by_cases same : pair = result.pair
  · subst same
    rw [if_pos rfl, levelIs, ← picked, MarkTable.level, PairTable.get_set, if_pos rfl,
      Option.bind_some, valueIs]
  · rw [if_neg (Ne.symm same), MarkTable.level, MarkTable.level, PairTable.get_set, if_neg same]

/-- Recording a result raises the levels by it. -/
theorem record_raises (numbered : tracker.Numbered) (numeric : result.Numeric) :
    ∃ next, (record result).ending tracker = (.ok (), next) ∧ next.Numbered ∧
      next.levels = tracker.levels.raise result := by
  have step : ∀ mark table, MarkTable.Numbered table ∧ tracker.levels mark = table.level →
      ∃ next, extend table mark result.pair (mark.spreadOf result) = .ok next ∧
        MarkTable.Numbered next ∧ tracker.levels.raise result mark = next.level := by
    rintro mark table ⟨numbers, before⟩
    obtain ⟨next, extended, after⟩ :=
      Mark.extend_numbered numbers (mark.quantity_of_numeric numeric)
    exact ⟨next, extended, after, extend_raises numbers numeric before extended⟩
  obtain ⟨next, recorded, each⟩ := record_all step fun mark => ⟨numbered mark, rfl⟩
  exact ⟨next, recorded, fun mark => (each mark).1, funext fun mark => (each mark).2.symm⟩

/-- Trackers whose marks are numbers are numerically equal if their levels are the same. -/
theorem numerically_equal_of_levels {other : Tracker} (numbered : tracker.Numbered)
    (otherNumbered : other.Numbered) (same : tracker.levels = other.levels) :
    tracker.NumericallyEqual other := by
  have known : ∀ any : Tracker, any.Numbered → ∀ (mark : Mark) (pair : Pair),
      ((any.table mark).get? pair).map Decimal.quantity? = (any.levels mark pair).map some := by
    intro tracker numbered mark pair
    rw [levels, MarkTable.level]
    cases found : (tracker.table mark).get? pair with
    | none => rfl
    | some value =>
        obtain ⟨q, valueIs⟩ := Decimal.quantity_of_number (numbered mark pair value found)
        rw [Option.map_some, Option.bind_some, valueIs]
        rfl
  intro mark pair
  rw [known tracker numbered, known other otherNumbered, same]

end Tracker

end SpreadWatch
