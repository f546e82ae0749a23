import SpreadWatch.Proofs.WaterMark

/-!
Recordings that stop half way. A result with two numbers is recorded as a whole, and one whose entry
spread is no number is not recorded at all. If only the exit spread is no number, the entry marks
are brought up to date and the exit marks are not. This is the one way in which the tables of a
tracker come to have different pairs, and the one way in which a recording that fails leaves a
change behind.
-/

namespace SpreadWatch

open SpreadWatch.Action

def isNumber : Option Decimal → Bool
  | some spread => ! spread.isNan
  | none => false

theorem is_number_iff (spread : Option Decimal) :
    isNumber spread = true ↔ ∃ value, spread = some value ∧ value.isNan = false := by
  cases spread <;> simp [isNumber]

namespace SpreadResult

def isTorn (result : SpreadResult) : Bool := isNumber result.entry && ! isNumber result.exit

theorem numeric_iff (result : SpreadResult) :
    result.Numeric ↔ isNumber result.entry = true ∧ isNumber result.exit = true := by
  rw [is_number_iff, is_number_iff]
  exact ⟨fun numeric => ⟨numeric.entry, numeric.exit⟩, fun both => ⟨both.1, both.2⟩⟩

end SpreadResult

/-! ### One mark -/

namespace Mark

def isReached (mark : Mark) (result : SpreadResult) : Bool :=
  match mark with
  | .minEntry | .maxEntry => isNumber result.entry
  | .minExit | .maxExit => isNumber result.entry && isNumber result.exit

theorem quantity_of_reached {mark : Mark} {result : SpreadResult}
    (reached : mark.isReached result = true) : ∃ q, mark.quantityOf result = some q := by
  have known : isNumber (mark.spreadOf result) = true := by
    cases mark <;> simp only [isReached, Bool.and_eq_true] at reached
    · exact reached
    · exact reached
    · exact reached.2
    · exact reached.2
  obtain ⟨value, given, number⟩ := (is_number_iff _).mp known
  rw [quantityOf, given]
  exact Decimal.quantity_of_number number

theorem extend_refused (mark : Mark) (table : MarkTable) (pair : Pair) {spread : Option Decimal}
    (none : isNumber spread = false) :
    ∃ failure, Tracker.extend table mark pair spread = .error failure := by
  cases spread with
  | none => exact ⟨_, rfl⟩
  | some value =>
      cases value with
      | finite => cases none
      | infinite => cases none
      | nan negative signaling payload =>
          have incomparable : ∀ known, mark.extreme known (.nan negative signaling payload) =
              .error .invalidOperation := by
            intro known
            cases mark <;> cases known <;> rfl
          refine ⟨.decimal .invalidOperation, ?_⟩
          simp only [Tracker.extend, incomparable, liftDecimal, Except.mapError, bind, Except.bind]

/-- The mark of a result's pair is there, and the spread of the result does not move it. -/
def Covers (mark : Mark) (table : MarkTable) (result : SpreadResult) : Prop :=
  ∃ known p q, table.get? result.pair = some known ∧ known.quantity? = some p ∧
    mark.quantityOf result = some q ∧
    match mark with
    | .minEntry | .minExit => p ≤ q
    | .maxEntry | .maxExit => q ≤ p

end Mark

namespace PairTable

variable {α : Type}

theorem set_eq_self_iff (table : PairTable α) (pair : Pair) (value : α) :
    table.set pair value = table ↔ table.get? pair = some value := by
  induction table with
  | nil => simp [set, get_nil]
  | cons entry rest induction =>
      obtain ⟨known, old⟩ := entry
      rw [set, get_cons]
      by_cases same : known = pair
      · rw [if_pos same, if_pos same.symm]
        simp [same, eq_comm]
      · rw [if_neg same, if_neg (Ne.symm same)]
        simp [induction]

end PairTable

namespace Mark

/-- The extreme of two numbers is the known one exactly if the other does not lie beyond it. -/
theorem extreme_eq_known_iff (mark : Mark) {known spread : Decimal} {p q : Quantity}
    (knownIs : known.quantity? = some p) (spreadIs : spread.quantity? = some q) :
    mark.extreme known spread = .ok known ↔
      match mark with
      | .minEntry | .minExit => p ≤ q
      | .maxEntry | .maxExit => q ≤ p := by
  have below := Decimal.less_quantity spreadIs knownIs
  have above := Decimal.less_quantity knownIs spreadIs
  have same : spread = known → p = q := by
    rintro rfl
    exact Option.some_inj.mp (knownIs.symm.trans spreadIs)
  -- The result is `spread` exactly if it lies strictly beyond, and then it is not `known`.
  have chosen : ∀ {beyond : Prop} [Decidable beyond], (beyond → p ≠ q) →
      ((pure (if decide beyond = true then spread else known) : Except Decimal.Signal Decimal) =
        .ok known ↔ ¬ beyond) := by
    intro beyond _ apart
    by_cases far : beyond
    · have different : spread ≠ known := fun equal => apart far (same equal)
      simpa [far, pure, Except.pure] using different
    · simp [far, pure, Except.pure]
  cases mark with
  | minEntry | minExit =>
      simp only [extreme, Decimal.least, below, bind, Except.bind]
      rw [chosen fun lower => lower.ne', not_lt]
  | maxEntry | maxExit =>
      simp only [extreme, Decimal.greatest, above, bind, Except.bind]
      rw [chosen fun higher => higher.ne, not_lt]

theorem extend_eq_ok_iff {mark : Mark} {table next : MarkTable} {pair : Pair} {spread : Decimal} :
    Tracker.extend table mark pair (some spread) = .ok next ↔
      ∃ value, mark.extreme ((table.get? pair).getD mark.start) spread = .ok value ∧
        next = table.set pair value := by
  unfold Tracker.extend
  dsimp only
  cases mark.extreme ((table.get? pair).getD mark.start) spread with
  | error signal => simp [liftDecimal, Except.mapError, bind, Except.bind]
  | ok value => simp [liftDecimal, Except.mapError, bind, Except.bind, pure, Except.pure, eq_comm]

/-- A table stays as it is exactly if the mark of the pair covers the spread. -/
theorem extend_eq_self_iff {mark : Mark} {table : MarkTable} (numbered : MarkTable.Numbered table)
    {result : SpreadResult} (number : ∃ q, mark.quantityOf result = some q) :
    Tracker.extend table mark result.pair (mark.spreadOf result) = .ok table ↔
      mark.Covers table result := by
  obtain ⟨q, spreadIs⟩ := number
  obtain ⟨spread, given, spreadQuantity⟩ := Option.bind_eq_some_iff.mp spreadIs
  rw [given, extend_eq_ok_iff]
  constructor
  · rintro ⟨value, computed, same⟩
    have found := (PairTable.set_eq_self_iff table result.pair value).mp same.symm
    obtain ⟨p, valueIs⟩ := Decimal.quantity_of_number (numbered result.pair value found)
    rw [found, Option.getD_some, extreme_eq_known_iff mark valueIs spreadQuantity] at computed
    exact ⟨value, p, q, found, valueIs, spreadIs, computed⟩
  · rintro ⟨known, p, r, found, knownIs, again, covered⟩
    obtain rfl := Option.some_inj.mp (spreadIs.symm.trans again)
    refine ⟨known, ?_, ((PairTable.set_eq_self_iff table result.pair known).mpr found).symm⟩
    rw [found, Option.getD_some, extreme_eq_known_iff mark knownIs spreadQuantity]
    exact covered

end Mark

/-! ### One recording -/

namespace Tracker

variable {tracker next : Tracker} {result : SpreadResult} {history : List SpreadResult}

inductive Recorded (result : SpreadResult) (tracker : Tracker) :
    Except Failure Unit → Tracker → Prop
  | refused {failure : Failure} (entry : isNumber result.entry = false) :
      Recorded result tracker (.error failure) tracker
  | torn {failure : Failure} {next : Tracker} (torn : result.isTorn = true)
      (entries : ∀ mark ∈ [Mark.minEntry, .maxEntry],
        extend (tracker.table mark) mark result.pair (mark.spreadOf result) = .ok (next.table mark))
      (exits : ∀ mark ∉ [Mark.minEntry, .maxEntry], next.table mark = tracker.table mark) :
      Recorded result tracker (.error failure) next
  | whole {next : Tracker} (numeric : result.Numeric)
      (marks : ∀ mark,
        extend (tracker.table mark) mark result.pair (mark.spreadOf result) =
          .ok (next.table mark)) :
      Recorded result tracker (.ok ()) next

/-- Marks that a recording reaches are updated one after the other, each from its own table. -/
theorem record_reached (numbered : tracker.Numbered) {marks : List Mark} (distinct : marks.Nodup)
    (reached : ∀ mark ∈ marks, mark.isReached result = true) :
    ∃ next, Action.ending (marks.forM (recordMark result)) tracker = (.ok (), next) ∧
      (∀ mark ∈ marks, extend (tracker.table mark) mark result.pair (mark.spreadOf result) =
        .ok (next.table mark)) ∧
      ∀ mark ∉ marks, next.table mark = tracker.table mark := by
  have step : ∀ mark table, mark ∈ marks ∧ table = tracker.table mark → ∃ next,
      extend table mark result.pair (mark.spreadOf result) = .ok next ∧
        extend (tracker.table mark) mark result.pair (mark.spreadOf result) = .ok next := by
    rintro mark table ⟨member, rfl⟩
    obtain ⟨next, extended, -⟩ :=
      Mark.extend_numbered (numbered mark) (Mark.quantity_of_reached (reached mark member))
    exact ⟨next, extended, extended⟩
  exact record_marks step distinct fun mark member => ⟨member, rfl⟩

theorem record_mark_refused (mark : Mark) (tracker : Tracker)
    (none : isNumber (mark.spreadOf result) = false) :
    ∃ failure, (recordMark result mark).ending tracker = (.error failure, tracker) := by
  obtain ⟨failure, refused⟩ :=
    mark.extend_refused (tracker.table mark) result.pair none
  refine ⟨failure, ?_⟩
  rw [recordMark, ending_bind_ok (ending_get tracker), ending_bind_error]
  rw [ending_lift, refused]

/-- What a recording does is decided by which of the two spreads are numbers. -/
theorem record_recorded (numbered : tracker.Numbered) (result : SpreadResult) :
    ∃ ended next, (record result).ending tracker = (ended, next) ∧
      Recorded result tracker ended next := by
  cases entry : isNumber result.entry with
  | false =>
      obtain ⟨failure, refused⟩ := record_mark_refused .minEntry tracker entry
      exact ⟨_, tracker, ending_bind_error refused _, .refused entry⟩
  | true =>
      cases exit : isNumber result.exit with
      | false =>
          have torn : result.isTorn = true := by simp [SpreadResult.isTorn, entry, exit]
          have reached : ∀ mark ∈ [Mark.minEntry, .maxEntry], mark.isReached result = true := by
            simp [Mark.isReached, entry]
          obtain ⟨next, recorded, entries, exits⟩ :=
            record_reached numbered (by decide) reached
          obtain ⟨failure, refused⟩ := record_mark_refused .minExit next exit
          refine ⟨.error failure, next, ?_, .torn torn entries exits⟩
          have halves : Mark.all = [.minEntry, .maxEntry] ++ [.minExit, .maxExit] := rfl
          rw [record, halves, ending_for_append, ending_bind_ok recorded]
          exact ending_bind_error refused _
      | true =>
          have reached : ∀ mark ∈ Mark.all, mark.isReached result = true := by
            simp [Mark.all, Mark.isReached, entry, exit]
          obtain ⟨next, recorded, marks, -⟩ := record_reached numbered (by decide) reached
          have numeric : result.Numeric := result.numeric_iff.mpr ⟨entry, exit⟩
          exact ⟨.ok (), next, recorded, .whole numeric fun mark => marks mark mark.mem_all⟩

/-! ### Runs of calls -/

def TracksReached (history : List SpreadResult) (tracker : Tracker) : Prop :=
  ∀ mark : Mark, mark.Tracks (history.filter mark.isReached) (tracker.table mark)

theorem TracksReached.numbered (tracks : TracksReached history tracker) : tracker.Numbered := by
  intro mark pair value found
  obtain ⟨q, quantity, -⟩ := (tracks mark).marks pair value found
  exact Decimal.number_of_quantity quantity

theorem record_tracks_reached (tracks : TracksReached history tracker) (result : SpreadResult) :
    TracksReached (history ++ [result]) ((record result).ending tracker).2 := by
  obtain ⟨ended, next, ending, recorded⟩ := record_recorded tracks.numbered result
  have extended : ∀ mark : Mark, mark.isReached result = true →
      extend (tracker.table mark) mark result.pair (mark.spreadOf result) = .ok (next.table mark) →
      mark.Tracks ((history ++ [result]).filter mark.isReached) (next.table mark) := by
    intro mark reached computed
    obtain ⟨table, same, tracked⟩ :=
      Mark.extend_tracks (tracks mark) (Mark.quantity_of_reached reached)
    rw [computed] at same
    cases same
    simpa [List.filter_append, reached] using tracked
  have kept : ∀ mark : Mark, mark.isReached result = false →
      next.table mark = tracker.table mark →
      mark.Tracks ((history ++ [result]).filter mark.isReached) (next.table mark) := by
    intro mark missed same
    rw [same]
    simpa [List.filter_append, missed] using tracks mark
  rw [ending]
  intro mark
  cases recorded with
  | refused entry =>
      apply kept mark _ rfl
      cases mark <;> simp [Mark.isReached, entry]
  | torn torn entries exits =>
      simp only [SpreadResult.isTorn, Bool.and_eq_true, Bool.not_eq_true'] at torn
      by_cases early : mark ∈ [Mark.minEntry, .maxEntry]
      · apply extended mark _ (entries mark early)
        cases mark <;> simp_all [Mark.isReached]
      · apply kept mark _ (exits mark early)
        cases mark <;> simp_all [Mark.isReached]
  | whole numeric marks =>
      obtain ⟨entry, exit⟩ := result.numeric_iff.mp numeric
      apply extended mark _ (marks mark)
      cases mark <;> simp [Mark.isReached, entry, exit]

def afterCalls (calls : List Call) (tracker : Tracker) : Tracker :=
  calls.foldl (fun tracker call => (call.run.ending tracker).2) tracker

theorem calls_track_reached (tracks : TracksReached history tracker) (calls : List Call) :
    TracksReached (calls.foldl Call.extend history) (afterCalls calls tracker) := by
  induction calls generalizing history tracker with
  | nil => exact tracks
  | cons call rest induction =>
      cases call with
      | record result => exact induction (record_tracks_reached tracks result)
      | reset => exact induction tracks_nothing

/-- A NaN never gets into a tracker. -/
theorem after_calls_numbered (calls : List Call) : (afterCalls calls {}).Numbered := by
  have nothing : TracksReached [] {} := tracks_nothing
  exact (calls_track_reached nothing calls).numbered

/-! ### Atomicity -/

def SameKeys (tracker : Tracker) : Prop :=
  ∀ (mark other : Mark) (pair : Pair),
    pair ∈ (tracker.table mark).map (·.1) ↔ pair ∈ (tracker.table other).map (·.1)

theorem same_keys_iff (tracks : TracksReached history tracker) :
    tracker.SameKeys ↔ ∀ result ∈ history, result.isTorn = true →
      ∃ other ∈ history, other.pair = result.pair ∧ other.Numeric := by
  have reaches : ∀ mark : Mark, ∀ pair, pair ∈ (tracker.table mark).map (·.1) ↔
      ∃ result ∈ history, mark.isReached result = true ∧ result.pair = pair := by
    intro mark pair
    rw [(tracks mark).keys]
    simp only [List.mem_filter, and_assoc]
  constructor
  · intro same result member torn
    simp only [SpreadResult.isTorn, Bool.and_eq_true] at torn
    have early : result.pair ∈ (tracker.table .minEntry).map (·.1) :=
      (reaches _ _).mpr ⟨result, member, torn.1, rfl⟩
    obtain ⟨other, otherMember, reached, pair⟩ :=
      (reaches _ _).mp ((same .minEntry .minExit result.pair).mp early)
    simp only [Mark.isReached, Bool.and_eq_true] at reached
    exact ⟨other, otherMember, pair, other.numeric_iff.mpr reached⟩
  · intro mended
    have whole : ∀ mark : Mark, ∀ pair, pair ∈ (tracker.table mark).map (·.1) ↔
        ∃ result ∈ history, result.pair = pair ∧ result.Numeric := by
      intro mark pair
      rw [reaches]
      constructor
      · rintro ⟨result, member, reached, rfl⟩
        have entry : isNumber result.entry = true := by
          cases mark <;> simp_all [Mark.isReached]
        cases exit : isNumber result.exit with
        | true => exact ⟨result, member, rfl, result.numeric_iff.mpr ⟨entry, exit⟩⟩
        | false => exact mended result member (by simp [SpreadResult.isTorn, entry, exit])
      · rintro ⟨result, member, same, numeric⟩
        obtain ⟨entry, exit⟩ := result.numeric_iff.mp numeric
        exact ⟨result, member, by cases mark <;> simp [Mark.isReached, entry, exit], same⟩
    intro mark other pair
    rw [whole, whole]

theorem table_ext {first second : Tracker}
    (same : ∀ mark, first.table mark = second.table mark) : first = second := by
  have minEntry := same .minEntry
  have maxEntry := same .maxEntry
  have minExit := same .minExit
  have maxExit := same .maxExit
  cases first
  cases second
  simp_all [table]

/-- A torn recording leaves everything as it was exactly if both entry marks of its pair are there
and its entry spread lies between them. -/
theorem torn_eq_self_iff (numbered : tracker.Numbered) (torn : result.isTorn = true)
    (entries : ∀ mark ∈ [Mark.minEntry, .maxEntry],
      extend (tracker.table mark) mark result.pair (mark.spreadOf result) = .ok (next.table mark))
    (exits : ∀ mark ∉ [Mark.minEntry, .maxEntry], next.table mark = tracker.table mark) :
    next = tracker ↔
      ∀ mark ∈ [Mark.minEntry, .maxEntry], mark.Covers (tracker.table mark) result := by
  have reached : ∀ mark ∈ [Mark.minEntry, .maxEntry], mark.isReached result = true := by
    simp only [SpreadResult.isTorn, Bool.and_eq_true] at torn
    simp [Mark.isReached, torn.1]
  have stays : ∀ mark ∈ [Mark.minEntry, .maxEntry],
      next.table mark = tracker.table mark ↔ mark.Covers (tracker.table mark) result := by
    intro mark member
    rw [← Mark.extend_eq_self_iff (numbered mark) (Mark.quantity_of_reached (reached mark member)),
      entries mark member, Except.ok.injEq]
  constructor
  · rintro rfl mark member
    exact (stays mark member).mp rfl
  · intro covered
    apply table_ext
    intro mark
    by_cases early : mark ∈ [Mark.minEntry, .maxEntry]
    · exact (stays mark early).mpr (covered mark early)
    · exact exits mark early

/-- After any calls, failed ones included, the four tables have the same pairs exactly if every pair
of a torn result has also been recorded as a whole since the last reset. The next recording fails
exactly if a spread of its result is no number, and then leaves all tables as they were exactly if
the result is not torn, or its entry spread moves neither entry mark of its pair. -/
theorem calls_atomic_iff (calls : List Call) :
    ((afterCalls calls {}).SameKeys ↔ ∀ result ∈ sinceReset calls, result.isTorn = true →
      ∃ other ∈ sinceReset calls, other.pair = result.pair ∧ other.Numeric) ∧
    ∀ result : SpreadResult,
      ((∃ failure, ((record result).ending (afterCalls calls {})).1 = .error failure) ↔
        ¬ result.Numeric) ∧
      (¬ result.Numeric →
        (((record result).ending (afterCalls calls {})).2 = afterCalls calls {} ↔
          (result.isTorn = true → ∀ mark ∈ [Mark.minEntry, .maxEntry],
            mark.Covers ((afterCalls calls {}).table mark) result))) := by
  have nothing : TracksReached [] {} := fun mark => tracks_nothing mark
  have tracks : TracksReached (sinceReset calls) (afterCalls calls {}) :=
    calls_track_reached nothing calls
  refine ⟨same_keys_iff tracks, fun result => ?_⟩
  obtain ⟨ended, next, ending, recorded⟩ := record_recorded tracks.numbered result
  rw [ending, result.numeric_iff]
  cases recorded with
  | refused entry => simp [SpreadResult.isTorn, entry]
  | torn torn entries exits =>
      have same := torn_eq_self_iff tracks.numbered torn entries exits
      simp only [SpreadResult.isTorn, Bool.and_eq_true, Bool.not_eq_true'] at torn
      simp [SpreadResult.isTorn, torn, same]
  | whole numeric marks => simp [result.numeric_iff.mp numeric]

def tornResult : SpreadResult := resultOf "okx" (.finite false 1 (-1)) (.nan false false 0)

/-- The recording of a torn result fails, and leaves its pair in the two entry tables. -/
theorem torn_recording_leaves_entry_marks :
    (match ((record tornResult).ending {}).1 with
      | .error (.decimal signal) => some signal
      | _ => none) = some .invalidOperation ∧
    ((record tornResult).ending {}).2 ≠ {} ∧ ¬ ((record tornResult).ending {}).2.SameKeys := by
  have left : ((record tornResult).ending {}).2 =
      { minEntry := [(tornResult.pair, .finite false 1 (-1))]
        maxEntry := [(tornResult.pair, .finite false 1 (-1))] } := by decide +kernel
  refine ⟨by decide +kernel, by rw [left]; decide, fun same => ?_⟩
  rw [left] at same
  have exit := (same .minEntry .minExit tornResult.pair).mp (by decide)
  simp [table] at exit

end Tracker

end SpreadWatch
