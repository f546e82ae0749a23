import SpreadWatch.Proofs.Action
import SpreadWatch.Proofs.Decimal.Value

/-!
What the water marks hold, in terms of the results recorded since the last reset. Every table has
the pairs of these results as its keys. A minimum is the least, a maximum the greatest of the
recorded spreads of its pair and the value that a new pair starts from. Neither depends on the order
of the results, since only their set enters.
-/

namespace SpreadWatch

/-! ### Tables of pairs -/

namespace PairTable

variable {α : Type}

theorem get_nil (pair : Pair) : get? ([] : PairTable α) pair = none := rfl

theorem get_cons (known pair : Pair) (old : α) (rest : PairTable α) :
    get? ((known, old) :: rest) pair = if pair = known then some old else rest.get? pair := by
  simp only [get?, List.lookup_cons]
  by_cases same : pair = known
  · rw [if_pos same, beq_iff_eq.mpr same]
  · rw [if_neg same, beq_eq_false_iff_ne.mpr same]

theorem get_set (table : PairTable α) (pair other : Pair) (value : α) :
    (table.set pair value).get? other = if other = pair then some value else table.get? other := by
  induction table with
  | nil => rw [set, get_cons]
  | cons entry rest induction =>
      obtain ⟨known, old⟩ := entry
      by_cases found : known = pair
      · rw [set, if_pos found, get_cons, get_cons, found]
        split <;> rfl
      · rw [set, if_neg found, get_cons, get_cons, induction]
        by_cases same : other = known
        · rw [if_pos same, if_pos same, if_neg (fun equal => found (same.symm.trans equal))]
        · rw [if_neg same, if_neg same]

theorem mem_keys_set (table : PairTable α) (pair other : Pair) (value : α) :
    other ∈ (table.set pair value).map (·.1) ↔ other = pair ∨ other ∈ table.map (·.1) := by
  induction table with
  | nil => simp [set]
  | cons entry rest induction =>
      obtain ⟨known, old⟩ := entry
      by_cases found : known = pair
      · simp [set, found]
      · simp only [set, if_neg found, List.map_cons, List.mem_cons, induction]
        tauto

theorem nodup_keys_set {table : PairTable α} (nodup : (table.map (·.1)).Nodup) (pair : Pair)
    (value : α) : ((table.set pair value).map (·.1)).Nodup := by
  induction table with
  | nil => simp [set]
  | cons entry rest induction =>
      obtain ⟨known, old⟩ := entry
      rw [List.map_cons, List.nodup_cons] at nodup
      by_cases found : known = pair
      · simp only [set, if_pos found, List.map_cons, List.nodup_cons]
        exact found ▸ nodup
      · simp only [set, if_neg found, List.map_cons, List.nodup_cons, mem_keys_set, not_or]
        exact ⟨⟨found, nodup.1⟩, induction nodup.2⟩

theorem mem_keys_iff (table : PairTable α) (pair : Pair) :
    pair ∈ table.map (·.1) ↔ ∃ value, table.get? pair = some value := by
  induction table with
  | nil => simp [get_nil]
  | cons entry rest induction =>
      obtain ⟨known, old⟩ := entry
      rw [get_cons, List.map_cons, List.mem_cons, induction]
      by_cases same : pair = known <;> simp [same]

end PairTable

/-! ### Extrema -/

structure SpreadResult.Numeric (result : SpreadResult) : Prop where
  entry : ∃ spread, result.entry = some spread ∧ spread.isNan = false
  exit : ∃ spread, result.exit = some spread ∧ spread.isNan = false

def MarkTable.Numbered (table : MarkTable) : Prop :=
  ∀ pair value, table.get? pair = some value → value.isNan = false

namespace Mark

def origin : Mark → Quantity
  | .minEntry | .minExit => (1 : ℚ)
  | .maxEntry | .maxExit => (-1 : ℚ)

def quantityOf (mark : Mark) (result : SpreadResult) : Option Quantity :=
  (mark.spreadOf result).bind Decimal.quantity?

/-- The values that a mark of a pair is drawn from: those of the results of the pair, and the one
it starts from. -/
def seen (mark : Mark) (history : List SpreadResult) (pair : Pair) : Set Quantity :=
  insert mark.origin {q | ∃ result ∈ history, result.pair = pair ∧ mark.quantityOf result = some q}

def Extreme (mark : Mark) (values : Set Quantity) (q : Quantity) : Prop :=
  match mark with
  | .minEntry | .minExit => IsLeast values q
  | .maxEntry | .maxExit => IsGreatest values q

/-- The table of a mark after some results: their pairs are its keys, and each holds the extreme of
its pair. -/
structure Tracks (mark : Mark) (history : List SpreadResult) (table : MarkTable) : Prop where
  keys : ∀ pair, pair ∈ table.map (·.1) ↔ ∃ result ∈ history, result.pair = pair
  nodup : (table.map (·.1)).Nodup
  marks : ∀ pair value, table.get? pair = some value →
    ∃ q, value.quantity? = some q ∧ mark.Extreme (mark.seen history pair) q

theorem mem_all (mark : Mark) : mark ∈ all := by
  cases mark <;> decide

theorem start_quantity (mark : Mark) : mark.start.quantity? = some mark.origin := by
  cases mark <;> simp [start, origin, Decimal.one, Decimal.flip, Decimal.quantity?,
    Decimal.to_rat_finite]

theorem quantity_of_numeric {result : SpreadResult} (mark : Mark) (numeric : result.Numeric) :
    ∃ q, mark.quantityOf result = some q := by
  obtain ⟨entry, entryIs, entryNumber⟩ := numeric.entry
  obtain ⟨exit, exitIs, exitNumber⟩ := numeric.exit
  cases mark <;> simp only [quantityOf, spreadOf, entryIs, exitIs, Option.bind_some] <;>
    exact Decimal.quantity_of_number (by assumption)

theorem Extreme.unique {mark : Mark} {values : Set Quantity} {p q : Quantity}
    (first : mark.Extreme values p) (second : mark.Extreme values q) : p = q := by
  cases mark with
  | minEntry | minExit => exact IsLeast.unique first second
  | maxEntry | maxExit => exact IsGreatest.unique first second

theorem extreme_singleton (mark : Mark) (q : Quantity) : mark.Extreme {q} q := by
  cases mark with
  | minEntry | minExit => exact isLeast_singleton
  | maxEntry | maxExit => exact isGreatest_singleton

/-- The next extreme is computed, and is the extreme with one more value. -/
theorem extreme_insert {mark : Mark} {values : Set Quantity} {known spread : Decimal}
    {p q : Quantity} (knownIs : known.quantity? = some p) (spreadIs : spread.quantity? = some q)
    (extreme : mark.Extreme values p) :
    ∃ value r, mark.extreme known spread = .ok value ∧ value.quantity? = some r ∧
      mark.Extreme (insert q values) r := by
  have below := Decimal.less_quantity spreadIs knownIs
  have above := Decimal.less_quantity knownIs spreadIs
  cases mark with
  | minEntry | minExit =>
      refine ⟨if q < p then spread else known, min q p, ?_, ?_, extreme.insert q⟩
      · simp only [Mark.extreme, Decimal.least, below, bind, Except.bind, decide_eq_true_eq]
        rfl
      · split_ifs with lower
        · rw [spreadIs, min_eq_left lower.le]
        · rw [knownIs, min_eq_right (not_lt.mp lower)]
  | maxEntry | maxExit =>
      refine ⟨if p < q then spread else known, max q p, ?_, ?_, extreme.insert q⟩
      · simp only [Mark.extreme, Decimal.greatest, above, bind, Except.bind, decide_eq_true_eq]
        rfl
      · split_ifs with higher
        · rw [spreadIs, max_eq_left higher.le]
        · rw [knownIs, max_eq_right (not_lt.mp higher)]

theorem seen_append_same {mark : Mark} {result : SpreadResult} {q : Quantity}
    (history : List SpreadResult) (spreadIs : mark.quantityOf result = some q) :
    mark.seen (history ++ [result]) result.pair = insert q (mark.seen history result.pair) := by
  ext r
  simp only [seen, List.mem_append, List.mem_singleton, Set.mem_insert_iff, Set.mem_ofPred_eq]
  constructor
  · rintro (first | ⟨other, earlier | rfl, same, otherIs⟩)
    · exact .inr (.inl first)
    · exact .inr (.inr ⟨other, earlier, same, otherIs⟩)
    · exact .inl (Option.some_inj.mp (otherIs.symm.trans spreadIs))
  · rintro (rfl | first | ⟨other, earlier, same, otherIs⟩)
    · exact .inr ⟨result, .inr rfl, rfl, spreadIs⟩
    · exact .inl first
    · exact .inr ⟨other, .inl earlier, same, otherIs⟩

theorem seen_append_other {mark : Mark} {result : SpreadResult} {pair : Pair}
    (history : List SpreadResult) (different : result.pair ≠ pair) :
    mark.seen (history ++ [result]) pair = mark.seen history pair := by
  ext r
  simp only [seen, List.mem_append, List.mem_singleton, Set.mem_insert_iff, Set.mem_ofPred_eq]
  constructor
  · rintro (first | ⟨other, earlier | rfl, same, otherIs⟩)
    · exact .inl first
    · exact .inr ⟨other, earlier, same, otherIs⟩
    · exact absurd same different
  · rintro (first | ⟨other, earlier, same, otherIs⟩)
    · exact .inl first
    · exact .inr ⟨other, .inl earlier, same, otherIs⟩

theorem extend_tracks {mark : Mark} {history : List SpreadResult} {table : MarkTable}
    (tracks : mark.Tracks history table) {result : SpreadResult}
    (number : ∃ q, mark.quantityOf result = some q) :
    ∃ next, Tracker.extend table mark result.pair (mark.spreadOf result) = .ok next ∧
      mark.Tracks (history ++ [result]) next := by
  obtain ⟨q, spreadIs⟩ := number
  obtain ⟨spread, given, spreadQuantity⟩ := Option.bind_eq_some_iff.mp spreadIs
  -- A pair without a mark has no earlier results, so its values are the one it starts from.
  have known : ∃ p, ((table.get? result.pair).getD mark.start).quantity? = some p ∧
      mark.Extreme (mark.seen history result.pair) p := by
    cases found : table.get? result.pair with
    | some value => exact tracks.marks result.pair value found
    | none =>
        have absent : ¬ ∃ earlier ∈ history, earlier.pair = result.pair := by
          rw [← tracks.keys, PairTable.mem_keys_iff, found]
          simp
        have alone : mark.seen history result.pair = {mark.origin} := by
          ext r
          simp only [seen, Set.mem_insert_iff, Set.mem_ofPred_eq, Set.mem_singleton_iff,
            or_iff_left_iff_imp]
          rintro ⟨earlier, member, same, -⟩
          exact absurd ⟨earlier, member, same⟩ absent
        refine ⟨mark.origin, mark.start_quantity, ?_⟩
        rw [alone]
        exact mark.extreme_singleton _
  obtain ⟨p, knownIs, extreme⟩ := known
  obtain ⟨value, r, computed, valueIs, next⟩ := extreme_insert knownIs spreadQuantity extreme
  refine ⟨table.set result.pair value, ?_, ?_, ?_, ?_⟩
  · simp only [Tracker.extend, given, computed, liftDecimal, Except.mapError, bind, Except.bind]
    rfl
  · intro pair
    rw [PairTable.mem_keys_set, tracks.keys]
    constructor
    · rintro (rfl | ⟨earlier, member, same⟩)
      · exact ⟨result, by simp, rfl⟩
      · exact ⟨earlier, by simp [member], same⟩
    · rintro ⟨earlier, member, same⟩
      rcases List.mem_append.mp member with member | last
      · exact .inr ⟨earlier, member, same⟩
      · rw [List.mem_singleton.mp last] at same
        exact .inl same.symm
  · exact PairTable.nodup_keys_set tracks.nodup _ _
  · intro pair found lookup
    rw [PairTable.get_set] at lookup
    by_cases same : pair = result.pair
    · rw [if_pos same] at lookup
      cases lookup
      exact ⟨r, valueIs, by rw [same, seen_append_same history spreadIs]; exact next⟩
    · rw [if_neg same] at lookup
      rw [seen_append_other history (Ne.symm same)]
      exact tracks.marks pair found lookup

theorem extend_numbered {table : MarkTable} (numbered : MarkTable.Numbered table) {mark : Mark}
    {result : SpreadResult} (number : ∃ q, mark.quantityOf result = some q) :
    ∃ next, Tracker.extend table mark result.pair (mark.spreadOf result) = .ok next ∧
      MarkTable.Numbered next := by
  obtain ⟨q, spreadIs⟩ := number
  obtain ⟨spread, given, spreadQuantity⟩ := Option.bind_eq_some_iff.mp spreadIs
  obtain ⟨p, knownIs⟩ : ∃ p, ((table.get? result.pair).getD mark.start).quantity? = some p := by
    cases found : table.get? result.pair with
    | some value => exact Decimal.quantity_of_number (numbered result.pair value found)
    | none => exact ⟨mark.origin, mark.start_quantity⟩
  obtain ⟨value, r, computed, valueIs, -⟩ :=
    extreme_insert knownIs spreadQuantity (mark.extreme_singleton p)
  refine ⟨table.set result.pair value, ?_, ?_⟩
  · simp only [Tracker.extend, given, computed, liftDecimal, Except.mapError, bind, Except.bind]
    rfl
  · intro pair found lookup
    rw [PairTable.get_set] at lookup
    split_ifs at lookup with same
    · cases lookup
      exact Decimal.number_of_quantity valueIs
    · exact numbered pair found lookup

end Mark

/-! ### The tracker -/

namespace Tracker

/-- All marks after some results. -/
def Tracks (history : List SpreadResult) (tracker : Tracker) : Prop :=
  ∀ mark : Mark, mark.Tracks history (tracker.table mark)

theorem tracks_nothing : Tracks [] {} := by
  intro mark
  have empty : Tracker.table {} mark = [] := by cases mark <;> rfl
  rw [empty]
  exact ⟨by simp, by simp, by simp [PairTable.get_nil]⟩

theorem table_set_table (tracker : Tracker) (mark other : Mark) (table : MarkTable) :
    (tracker.setTable mark table).table other =
      if other = mark then table else tracker.table other := by
  cases mark <;> cases other <;> rfl

/-- What a step makes of every table, recording makes of the tables of several marks: they are
brought up to date one after the other, and the others stay. -/
theorem record_marks {before after : Mark → MarkTable → Prop} {result : SpreadResult}
    (step : ∀ mark table, before mark table → ∃ next,
      extend table mark result.pair (mark.spreadOf result) = .ok next ∧ after mark next)
    {marks : List Mark} (distinct : marks.Nodup) {tracker : Tracker}
    (holds : ∀ mark ∈ marks, before mark (tracker.table mark)) :
    ∃ next, Action.ending (marks.forM (recordMark result)) tracker = (.ok (), next) ∧
      (∀ mark ∈ marks, after mark (next.table mark)) ∧
      ∀ mark ∉ marks, next.table mark = tracker.table mark := by
  induction marks generalizing tracker with
  | nil => exact ⟨tracker, rfl, by simp, by simp⟩
  | cons mark rest induction =>
      rw [List.nodup_cons] at distinct
      obtain ⟨table, extended, now⟩ := step mark (tracker.table mark) (holds mark (by simp))
      have recorded : (recordMark result mark).ending tracker =
          (.ok (), tracker.setTable mark table) := by
        rw [recordMark, Action.ending_bind_ok (Action.ending_get tracker),
          Action.ending_bind_ok (by rw [Action.ending_lift, extended])]
        rfl
      have kept : ∀ other ∈ rest, before other ((tracker.setTable mark table).table other) := by
        intro other member
        have different : other ≠ mark := fun same => distinct.1 (same ▸ member)
        rw [table_set_table, if_neg different]
        exact holds other (by simp [member])
      obtain ⟨next, restRecorded, restAfter, restKept⟩ := induction distinct.2 kept
      refine ⟨next, ?_, ?_, ?_⟩
      · rw [Action.ending_for_cons, Action.ending_bind_ok recorded]
        exact restRecorded
      · intro other member
        rcases List.mem_cons.mp member with rfl | member
        · rw [restKept other distinct.1, table_set_table, if_pos rfl]
          exact now
        · exact restAfter other member
      · intro other absent
        rw [List.mem_cons, not_or] at absent
        rw [restKept other absent.2, table_set_table, if_neg absent.1]

theorem record_all {before after : Mark → MarkTable → Prop} {result : SpreadResult}
    (step : ∀ mark table, before mark table → ∃ next,
      extend table mark result.pair (mark.spreadOf result) = .ok next ∧ after mark next)
    {tracker : Tracker} (holds : ∀ mark, before mark (tracker.table mark)) :
    ∃ next, (record result).ending tracker = (.ok (), next) ∧
      ∀ mark, after mark (next.table mark) := by
  have distinct : Mark.all.Nodup := by decide
  obtain ⟨next, recorded, now, -⟩ := record_marks step distinct (fun mark _ => holds mark)
  exact ⟨next, recorded, fun mark => now mark mark.mem_all⟩

/-- Recording a result always succeeds, and brings all marks up to date. -/
theorem record_tracks {history : List SpreadResult} {tracker : Tracker}
    (tracks : Tracks history tracker) {result : SpreadResult} (numeric : result.Numeric) :
    ∃ next, (record result).ending tracker = (.ok (), next) ∧ Tracks (history ++ [result]) next :=
  record_all (fun mark _ tracked => Mark.extend_tracks tracked (mark.quantity_of_numeric numeric))
    tracks

def Numbered (tracker : Tracker) : Prop := ∀ mark : Mark, MarkTable.Numbered (tracker.table mark)

theorem Tracks.numbered {history : List SpreadResult} {tracker : Tracker}
    (tracks : Tracks history tracker) : tracker.Numbered := by
  intro mark pair value found
  obtain ⟨q, quantity, -⟩ := (tracks mark).marks pair value found
  exact Decimal.number_of_quantity quantity

theorem record_numbered {tracker : Tracker} (numbered : tracker.Numbered) {result : SpreadResult}
    (numeric : result.Numeric) :
    ∃ next, (record result).ending tracker = (.ok (), next) ∧ next.Numbered :=
  record_all (fun mark _ numbers => Mark.extend_numbered numbers (mark.quantity_of_numeric numeric))
    numbered

/-! ### Runs of calls -/

inductive Call where
  | record (result : SpreadResult)
  | reset

namespace Call

def run : Call → Action Tracker Unit
  | .record result => Tracker.record result
  | .reset => Tracker.reset

def extend (history : List SpreadResult) : Call → List SpreadResult
  | .record result => history ++ [result]
  | .reset => []

def Numeric : Call → Prop
  | .record result => result.Numeric
  | .reset => True

end Call

def sinceReset (calls : List Call) : List SpreadResult := calls.foldl Call.extend []

/-- What holds of a fresh tracker and is kept by recording holds after any calls, in terms of the
results recorded since the last reset. -/
theorem calls_keep {Holds : List SpreadResult → Tracker → Prop} (fresh : Holds [] {})
    (step : ∀ {history : List SpreadResult} {tracker : Tracker}, Holds history tracker →
      ∀ {result : SpreadResult}, result.Numeric → ∃ next,
        (record result).ending tracker = (.ok (), next) ∧ Holds (history ++ [result]) next)
    {history : List SpreadResult} {tracker : Tracker} (holds : Holds history tracker)
    {calls : List Call} (numeric : ∀ call ∈ calls, call.Numeric) :
    ∃ next, Action.ending (calls.forM Call.run) tracker = (.ok (), next) ∧
      Holds (calls.foldl Call.extend history) next := by
  induction calls generalizing history tracker with
  | nil => exact ⟨tracker, rfl, holds⟩
  | cons call rest induction =>
      obtain ⟨middle, called, middleHolds⟩ : ∃ next,
          call.run.ending tracker = (.ok (), next) ∧ Holds (call.extend history) next := by
        cases call with
        | record result => exact step holds (numeric (.record result) (by simp))
        | reset => exact ⟨{}, rfl, fresh⟩
      obtain ⟨next, restCalled, nextHolds⟩ := induction middleHolds
        (fun other member => numeric other (by simp [member]))
      refine ⟨next, ?_, nextHolds⟩
      rw [Action.ending_for_cons, Action.ending_bind_ok called]
      exact restCalled

theorem calls_track {history : List SpreadResult} {tracker : Tracker}
    (tracks : Tracks history tracker) {calls : List Call} (numeric : ∀ call ∈ calls, call.Numeric) :
    ∃ next, Action.ending (calls.forM Call.run) tracker = (.ok (), next) ∧
      Tracks (calls.foldl Call.extend history) next :=
  calls_keep tracks_nothing (fun tracked _ number => record_tracks tracked number) tracks numeric

/-! ### Consequences of what the tables hold -/

/-- The same pairs with marks of the same value, whatever their order and their digits. -/
def NumericallyEqual (first second : Tracker) : Prop :=
  ∀ (mark : Mark) (pair : Pair), ((first.table mark).get? pair).map Decimal.quantity? =
    ((second.table mark).get? pair).map Decimal.quantity?

theorem seen_of_same_results {first second : List SpreadResult} (same : ∀ r, r ∈ first ↔ r ∈ second)
    (mark : Mark) (pair : Pair) : mark.seen first pair = mark.seen second pair := by
  simp only [Mark.seen, same]

/-- Only which results have been recorded counts, not their order. -/
theorem Tracks.numerically_equal {first second : List SpreadResult} {left right : Tracker}
    (leftTracks : Tracks first left) (rightTracks : Tracks second right)
    (same : ∀ r, r ∈ first ↔ r ∈ second) : left.NumericallyEqual right := by
  intro mark pair
  have keys : (∃ value, (left.table mark).get? pair = some value) ↔
      ∃ value, (right.table mark).get? pair = some value := by
    rw [← PairTable.mem_keys_iff, ← PairTable.mem_keys_iff, (leftTracks mark).keys,
      (rightTracks mark).keys]
    simp only [same]
  cases leftFound : (left.table mark).get? pair with
  | none =>
      cases rightFound : (right.table mark).get? pair with
      | none => rfl
      | some value =>
          obtain ⟨other, found⟩ := keys.mpr ⟨value, rightFound⟩
          rw [leftFound] at found
          cases found
  | some value =>
      obtain ⟨other, rightFound⟩ := keys.mp ⟨value, leftFound⟩
      obtain ⟨p, leftIs, leftExtreme⟩ := (leftTracks mark).marks pair value leftFound
      obtain ⟨q, rightIs, rightExtreme⟩ := (rightTracks mark).marks pair other rightFound
      rw [← seen_of_same_results same] at rightExtreme
      rw [rightFound, Option.map_some, Option.map_some, leftIs, rightIs,
        leftExtreme.unique rightExtreme]

def Ordered (low high : MarkTable) : Prop :=
  ∀ pair least greatest, low.get? pair = some least → high.get? pair = some greatest →
    ∃ p q, least.quantity? = some p ∧ greatest.quantity? = some q ∧ p ≤ q

/-- A mark that is a least one and a mark that is a greatest one of the same spreads are ordered:
a pair with marks has a result, whose spread lies between them. -/
theorem ordered_of_tracks (low high : Mark) {history : List SpreadResult} {tracker : Tracker}
    (tracks : Tracks history tracker) (numeric : ∀ result ∈ history, result.Numeric)
    (follow : low.quantityOf = high.quantityOf)
    (least : ∀ values q, low.Extreme values q → IsLeast values q)
    (greatest : ∀ values q, high.Extreme values q → IsGreatest values q) :
    Ordered (tracker.table low) (tracker.table high) := by
  intro pair lowest highest lowFound highFound
  obtain ⟨p, lowIs, lowExtreme⟩ := (tracks low).marks pair lowest lowFound
  obtain ⟨q, highIs, highExtreme⟩ := (tracks high).marks pair highest highFound
  obtain ⟨result, member, same⟩ := ((tracks low).keys pair).mp
    ((PairTable.mem_keys_iff _ pair).mpr ⟨lowest, lowFound⟩)
  obtain ⟨r, spreadIs⟩ := low.quantity_of_numeric (numeric result member)
  have lower : p ≤ r := (least _ _ lowExtreme).2 (.inr ⟨result, member, same, spreadIs⟩)
  have upper : r ≤ q := (greatest _ _ highExtreme).2
    (.inr ⟨result, member, same, follow ▸ spreadIs⟩)
  exact ⟨p, q, lowIs, highIs, lower.trans upper⟩

theorem numeric_since_reset {calls : List Call} {history : List SpreadResult}
    (earlier : ∀ result ∈ history, result.Numeric) (numeric : ∀ call ∈ calls, call.Numeric) :
    ∀ result ∈ calls.foldl Call.extend history, result.Numeric := by
  induction calls generalizing history with
  | nil => exact earlier
  | cons call rest induction =>
      apply induction _ (fun other member => numeric other (by simp [member]))
      cases call with
      | record result =>
          intro other member
          rcases List.mem_append.mp member with member | last
          · exact earlier other member
          · rw [List.mem_singleton.mp last]
            exact numeric (.record result) (by simp)
      | reset => simp [Call.extend]

/-- After any calls, all four tables have the pairs recorded since the last reset as their keys, and
their extrema, starting from 1 and −1, as their values. So no minimum is above its maximum, and
calls that record the same results since their last reset, in whatever order, lead to the same
marks. -/
theorem calls_leave_extrema (calls : List Call) (numeric : ∀ call ∈ calls, call.Numeric) :
    ∃ tracker, Action.ending (calls.forM Call.run) {} = (.ok (), tracker) ∧
      Tracks (sinceReset calls) tracker ∧
      Ordered tracker.minEntry tracker.maxEntry ∧ Ordered tracker.minExit tracker.maxExit ∧
      ∀ others : List Call, (∀ call ∈ others, call.Numeric) →
        (sinceReset calls).Perm (sinceReset others) →
        ∃ other, Action.ending (others.forM Call.run) {} = (.ok (), other) ∧
          tracker.NumericallyEqual other := by
  obtain ⟨tracker, ran, tracks⟩ := calls_track tracks_nothing numeric
  have recorded : ∀ result ∈ sinceReset calls, result.Numeric :=
    numeric_since_reset (by simp) numeric
  refine ⟨tracker, ran, tracks, ?_, ?_, ?_⟩
  · exact ordered_of_tracks .minEntry .maxEntry tracks recorded rfl
      (fun _ _ extreme => extreme) (fun _ _ extreme => extreme)
  · exact ordered_of_tracks .minExit .maxExit tracks recorded rfl
      (fun _ _ extreme => extreme) (fun _ _ extreme => extreme)
  · intro others othersNumeric permuted
    obtain ⟨other, otherRan, otherTracks⟩ := calls_track tracks_nothing othersNumeric
    exact ⟨other, otherRan, tracks.numerically_equal otherTracks fun _ => permuted.mem_iff⟩

def resultOf (long : String) (entry exit : Decimal) : SpreadResult where
  pair := { long, short := "kraken", instrument := "BTC/USD" }
  longQuote := none
  shortQuote := none
  entry := some entry
  exit := some exit

/-- A recording before a reset, then two of one pair, one of them infinite, and one of another. -/
def sampleCalls : List Call :=
  [.record (resultOf "okx" .zero .one), .reset,
    .record (resultOf "okx" (.finite false 25 (-1)) (.infinite true)),
    .record (resultOf "mexc" .zero .zero),
    .record (resultOf "okx" (.finite true 3 0) (.finite false 5 (-1)))]

theorem sample_calls_leave_extrema : ∃ tracker,
    Action.ending (sampleCalls.forM Call.run) {} = (.ok (), tracker) ∧
      Tracks (sinceReset sampleCalls) tracker ∧ (sinceReset sampleCalls).length = 3 := by
  have numbers : ∀ (long : String) (entry exit : Decimal), entry.isNan = false →
      exit.isNan = false → (Call.record (resultOf long entry exit)).Numeric :=
    fun long entry exit entryNumber exitNumber => ⟨⟨entry, rfl, entryNumber⟩, exit, rfl, exitNumber⟩
  have numeric : ∀ call ∈ sampleCalls, call.Numeric := by
    intro call member
    simp only [sampleCalls, List.mem_cons, List.not_mem_nil, or_false] at member
    rcases member with rfl | rfl | rfl | rfl | rfl
    · exact numbers _ _ _ rfl rfl
    · exact trivial
    · exact numbers _ _ _ rfl rfl
    · exact numbers _ _ _ rfl rfl
    · exact numbers _ _ _ rfl rfl
  obtain ⟨tracker, ran, tracks, -⟩ := calls_leave_extrema sampleCalls numeric
  exact ⟨tracker, ran, tracks, rfl⟩

end Tracker

end SpreadWatch
