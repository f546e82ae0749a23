import SpreadWatch.Proofs.Action
import SpreadWatch.Sink.Publish

/-!
Publishing counts. A sink that wants a result counts exactly one delivery for it, as delivered or as
failed, whatever goes wrong on the way; a sink that does not want it counts nothing. Publishing
itself ends in a failure only where a sink's filter cannot be asked.
-/

namespace SpreadWatch

def Outlets.timepiece (outlets : Outlets) : Calendar.Moment × Bool :=
  (outlets.clock, outlets.hasOwnClock)

namespace Sink

open SpreadWatch.Action

/-- A filter that can always be asked: none at all, or a list of texts. -/
def Askable (sink : Sink) : Prop :=
  sink.instruments = .null ∨ ∃ names : List String, sink.instruments = .list (names.map .text)

def wants (sink : Sink) (instrument : String) : Bool :=
  match sink.accepts instrument with
  | .ok wanted => wanted
  | .error _ => false

def tally (sink : Sink) : Nat := sink.delivered + sink.failed

theorem accepts_of_askable {sink : Sink} (askable : sink.Askable) (instrument : String) :
    sink.accepts instrument = .ok (sink.wants instrument) := by
  have answered : ∃ wanted, sink.accepts instrument = .ok wanted := by
    rcases askable with none | ⟨names, listed⟩
    · exact ⟨true, by rw [accepts, none]⟩
    · exact ⟨(names.map Value.text).any (Value.isText instrument), by rw [accepts, listed]; rfl⟩
  obtain ⟨wanted, answer⟩ := answered
  rw [wants, answer]

/-- The part of a channel that a delivery leaves alone: all of the sink but its medium, and the
clock. -/
def settled (channel : Channel) : (Value × Value × Nat × Nat) × Calendar.Moment × Bool :=
  ((channel.1.name, channel.1.instruments, channel.1.delivered, channel.1.failed),
    channel.2.timepiece)

theorem on_outlets_keeps {α : Type} {action : Action Outlets α}
    (inner : Keeps Outlets.timepiece action) :
    Keeps settled (onOutlets action) := by
  intro channel
  rw [onOutlets, ending_on, settled, settled, inner]

theorem note_keeps (level : Level) (event : String) (fields : List (String × Value)) :
    Keeps settled (onOutlets (Outlets.note level event fields)) :=
  on_outlets_keeps fun _ => rfl

theorem print_keeps (line : String) : Keeps settled (onOutlets (Outlets.print line)) := by
  refine on_outlets_keeps (Keeps.read fun outlets => ?_)
  dsimp only
  split_ifs
  · rfl
  · rfl

theorem deliver_to_file_keeps (path : FilePath) (form : FileForm) (appends : Bool)
    (events : List Value) : Keeps settled (deliverToFile path form appends events) := by
  refine Keeps.read fun channel => ?_
  obtain ⟨sink, outlets⟩ := channel
  rw [ending_bind, ending_set]
  cases (writeEvents outlets.files path form appends events).2 with
  | none => rfl
  | some failure =>
      simp only
      split_ifs
      · exact Keeps.bind (note_keeps _ _ _) (fun _ => Keeps.pure _) _
      · rfl
      · exact Keeps.bind (note_keeps _ _ _) (fun _ => Keeps.pure _) _

theorem print_event_keeps (format includeTimestamp event : Value) :
    Keeps settled (printEvent format includeTimestamp event) := by
  apply Keeps.bind Keeps.get
  intro channel
  obtain ⟨sink, outlets⟩ := channel
  apply Keeps.tryCatch
  · apply Keeps.bind (Keeps.lift _)
    intro line
    apply Keeps.bind (print_keeps line)
    intro _
    exact Keeps.pure _
  · intro failure
    dsimp only
    split_ifs
    · exact Keeps.bind (Keeps.throw _) fun _ => Keeps.bind (Keeps.lift _) fun _ =>
        Keeps.bind (note_keeps _ _ _) fun _ => Keeps.pure _
    · exact Keeps.bind (Keeps.lift _) fun _ =>
        Keeps.bind (note_keeps _ _ _) fun _ => Keeps.pure _

theorem rehearse_keeps (cues : List Cue) (events : List Value) :
    Keeps settled (rehearse cues events) := by
  refine Keeps.bind (Keeps.modify fun _ => rfl) fun _ => ?_
  cases cues.headD .succeed with
  | succeed => exact Keeps.pure _
  | fail => exact Keeps.pure _
  | breakDown => exact Keeps.throw _
  | stayEmpty => exact Keeps.pure _

theorem deliver_keeps (events : List Value) : Keeps settled (deliver events) := by
  apply Keeps.bind Keeps.get
  intro channel
  obtain ⟨sink, outlets⟩ := channel
  dsimp only
  cases sink.medium with
  | console format includeTimestamp =>
      exact Keeps.mapM (print_event_keeps format includeTimestamp) events
  | file path form appends => exact deliver_to_file_keeps path form appends events
  | rehearsal cues => exact rehearse_keeps cues events

/-- A delivery ends with a receipt, whatever goes wrong. -/
theorem deliver_result_answers (result : SpreadResult) (channel : Channel) :
    ∃ receipt next, (deliverResult result).ending channel = (.ok receipt, next) ∧
      settled next = settled channel := by
  have keeps : Keeps settled (deliverResult result) := by
    refine Keeps.tryCatch ?_ fun failure => Keeps.pure _
    apply Keeps.bind (Keeps.lift _)
    intro event
    apply Keeps.bind (deliver_keeps [event])
    intro receipts
    cases receipts with
    | nil => exact Keeps.pure _
    | cons receipt rest => exact Keeps.pure _
  have succeeds : Fails (fun _ => False) (deliverResult result) :=
    Fails.tryCatch fun failure => Fails.pure _
  have kept := keeps channel
  have ended := succeeds channel
  generalize (deliverResult result).ending channel = ending at kept ended ⊢
  obtain ⟨failure | receipt, next⟩ := ending
  · exact absurd rfl (ended failure)
  · exact ⟨receipt, next, rfl, kept⟩

structure Offered (result : SpreadResult) (sink next : Sink) : Prop where
  name : next.name = sink.name
  instruments : next.instruments = sink.instruments
  tally : next.tally = sink.tally + (sink.wants result.pair.instrument).toNat

def identity (sink : Sink) : Value × Value := (sink.name, sink.instruments)

theorem offered_identities {result : SpreadResult} {sinks next : List Sink}
    (offered : List.Forall₂ (Offered result) sinks next) :
    next.map identity = sinks.map identity := by
  induction offered with
  | nil => rfl
  | cons first _ induction =>
      rw [List.map_cons, List.map_cons, induction, identity, identity, first.name,
        first.instruments]

structure Counted (receipt : Receipt) (sink next : Sink) : Prop where
  name : next.name = sink.name
  instruments : next.instruments = sink.instruments
  delivered : next.delivered = sink.delivered + receipt.isSuccess.toNat
  failed : next.failed = sink.failed + (!receipt.isSuccess).toNat

theorem counted_count (sink : Sink) (receipt : Receipt) :
    Counted receipt sink (sink.count receipt) := by
  unfold count
  cases success : receipt.isSuccess with
  | false => exact ⟨rfl, rfl, by rw [success]; rfl, by rw [success]; rfl⟩
  | true => exact ⟨rfl, rfl, by rw [success]; rfl, by rw [success]; rfl⟩

theorem Counted.tally {receipt : Receipt} {sink next : Sink} (counted : Counted receipt sink next) :
    next.tally = sink.tally + 1 := by
  rw [Sink.tally, Sink.tally, counted.delivered, counted.failed]
  cases receipt.isSuccess with
  | false => rfl
  | true => exact Nat.add_right_comm _ _ _

theorem publish_passes_over {result : SpreadResult} {sink : Sink}
    (unwanted : sink.accepts result.pair.instrument = .ok false) (outlets : Outlets) :
    (publish result).ending (sink, outlets) = (.ok none, (sink, outlets)) := by
  rw [publish, ending_bind_ok (ending_get _)]
  dsimp only
  rw [unwanted, ending_bind_ok (ending_lift _ _)]
  rfl

theorem publish_counts {result : SpreadResult} {sink : Sink}
    (wanted : sink.accepts result.pair.instrument = .ok true) (outlets : Outlets) :
    ∃ receipt next nextOutlets,
      (publish result).ending (sink, outlets) = (.ok (some receipt), (next, nextOutlets)) ∧
        Counted receipt sink next ∧ nextOutlets.timepiece = outlets.timepiece := by
  obtain ⟨receipt, ⟨middle, middleOutlets⟩, delivered, kept⟩ :=
    deliver_result_answers result (sink, outlets)
  simp only [settled, Prod.mk.injEq] at kept
  obtain ⟨⟨name, instruments, deliveredKept, failedKept⟩, time⟩ := kept
  have counts := counted_count middle receipt
  have counted : Counted receipt sink (middle.count receipt) :=
    ⟨counts.name.trans name, counts.instruments.trans instruments,
      deliveredKept ▸ counts.delivered, failedKept ▸ counts.failed⟩
  rw [publish, ending_bind_ok (ending_get _)]
  dsimp only
  rw [wanted, ending_bind_ok (ending_lift _ _)]
  simp only [Bool.not_true, Bool.false_eq_true, if_false]
  rw [ending_bind_ok delivered, ending_bind_ok (ending_modify _ _)]
  cases success : receipt.isSuccess with
  | true => exact ⟨receipt, _, middleOutlets, rfl, counted, time⟩
  | false => exact ⟨receipt, _, _, rfl, counted, time⟩

theorem publish_offers {result : SpreadResult} {sink : Sink} {wanted : Bool}
    (answer : sink.accepts result.pair.instrument = .ok wanted) (outlets : Outlets) :
    ∃ receipt next nextOutlets,
      (publish result).ending (sink, outlets) = (.ok receipt, (next, nextOutlets)) ∧
        Offered result sink next ∧ nextOutlets.timepiece = outlets.timepiece := by
  have wants : sink.wants result.pair.instrument = wanted := by
    rw [Sink.wants, answer]
  cases wanted with
  | false =>
      refine ⟨none, sink, outlets, publish_passes_over answer outlets, ⟨rfl, rfl, ?_⟩, rfl⟩
      rw [wants]
      rfl
  | true =>
      obtain ⟨receipt, next, nextOutlets, published, counted, time⟩ := publish_counts answer outlets
      refine ⟨some receipt, next, nextOutlets, published,
        ⟨counted.name, counted.instruments, ?_⟩, time⟩
      rw [counted.tally, wants]
      rfl

theorem publish_refuses {result : SpreadResult} {sink : Sink} {failure : Failure}
    (refused : sink.accepts result.pair.instrument = .error failure) (outlets : Outlets) :
    (publish result).ending (sink, outlets) = (.error failure, (sink, outlets)) := by
  rw [publish, ending_bind_ok (ending_get _)]
  dsimp only
  rw [refused]
  rfl

/-- Publishing passes over sinks that can be asked, and offers the result to each. -/
theorem publish_each_passes {result : SpreadResult} {earlier : List Sink}
    (answers : ∀ sink ∈ earlier, ∃ wanted, sink.accepts result.pair.instrument = .ok wanted)
    (behind : List Sink) (outlets : Outlets) :
    ∃ next nextOutlets,
      publishEach result (earlier ++ behind) outlets =
        ((publishEach result behind nextOutlets).1,
          next ++ (publishEach result behind nextOutlets).2.1,
          (publishEach result behind nextOutlets).2.2) ∧
      List.Forall₂ (Offered result) earlier next ∧ nextOutlets.timepiece = outlets.timepiece := by
  induction earlier generalizing outlets with
  | nil => exact ⟨[], outlets, rfl, .nil, rfl⟩
  | cons sink rest induction =>
      obtain ⟨wanted, answer⟩ := answers sink (by simp)
      obtain ⟨receipt, first, firstOutlets, published, offered, firstTime⟩ :=
        publish_offers answer outlets
      obtain ⟨next, nextOutlets, restPublished, restOffered, restTime⟩ :=
        induction (fun other member => answers other (by simp [member])) firstOutlets
      refine ⟨first :: next, nextOutlets, ?_, .cons offered restOffered, restTime.trans firstTime⟩
      have opened : (publish result).run (sink, outlets) = (.ok receipt, (first, firstOutlets)) :=
        published
      simp only [List.cons_append, publishEach, opened, restPublished]

theorem publish_each_offers {result : SpreadResult} {sinks : List Sink}
    (answers : ∀ sink ∈ sinks, ∃ wanted, sink.accepts result.pair.instrument = .ok wanted)
    (outlets : Outlets) :
    ∃ next nextOutlets, publishEach result sinks outlets = (.ok (), next, nextOutlets) ∧
      List.Forall₂ (Offered result) sinks next ∧ nextOutlets.timepiece = outlets.timepiece := by
  obtain ⟨next, nextOutlets, published, offered, time⟩ := publish_each_passes answers [] outlets
  simp only [List.append_nil, publishEach] at published
  exact ⟨next, nextOutlets, published, offered, time⟩

/-- A sink that cannot be asked ends publishing. Itself and those behind it are as they were. -/
theorem publish_each_stops {result : SpreadResult} {earlier : List Sink} {refusing : Sink}
    {failure : Failure}
    (answers : ∀ sink ∈ earlier, ∃ wanted, sink.accepts result.pair.instrument = .ok wanted)
    (refused : refusing.accepts result.pair.instrument = .error failure) (later : List Sink)
    (outlets : Outlets) :
    ∃ next nextOutlets,
      publishEach result (earlier ++ refusing :: later) outlets =
        (.error failure, next ++ refusing :: later, nextOutlets) ∧
      List.Forall₂ (Offered result) earlier next ∧ nextOutlets.timepiece = outlets.timepiece := by
  obtain ⟨next, nextOutlets, published, offered, time⟩ :=
    publish_each_passes answers (refusing :: later) outlets
  have opened : (publish result).run (refusing, nextOutlets) =
      (.error failure, (refusing, nextOutlets)) := publish_refuses refused nextOutlets
  simp only [publishEach, opened] at published
  exact ⟨next, nextOutlets, published, offered, time⟩

theorem accepts_failure {sink : Sink} {instrument : String} {failure : Failure}
    (refused : sink.accepts instrument = .error failure) : ∃ text, failure = .wrongType text := by
  unfold accepts at refused
  split at refused
  · cases refused
  · unfold Value.hasMember at refused
    split at refused <;> cases refused <;> exact ⟨_, rfl⟩

/-- Of sinks that cannot all be asked, the first that cannot. -/
theorem first_refusing {sinks : List Sink} {instrument : String}
    (refuses : ¬ ∀ sink ∈ sinks, ∃ wanted, sink.accepts instrument = .ok wanted) :
    ∃ earlier refusing later text, sinks = earlier ++ refusing :: later ∧
      (∀ sink ∈ earlier, ∃ wanted, sink.accepts instrument = .ok wanted) ∧
      refusing.accepts instrument = .error (.wrongType text) := by
  induction sinks with
  | nil => simp at refuses
  | cons sink rest induction =>
      cases answer : sink.accepts instrument with
      | error failure =>
          obtain ⟨text, rfl⟩ := accepts_failure answer
          exact ⟨[], sink, rest, text, rfl, by simp, answer⟩
      | ok wanted =>
          have later : ¬ ∀ other ∈ rest, ∃ wanted, other.accepts instrument = .ok wanted := by
            intro others
            exact refuses (List.forall_mem_cons.mpr ⟨⟨wanted, answer⟩, others⟩)
          obtain ⟨earlier, refusing, behind, text, rfl, answers, refused⟩ := induction later
          exact ⟨sink :: earlier, refusing, behind, text, rfl,
            List.forall_mem_cons.mpr ⟨⟨wanted, answer⟩, answers⟩, refused⟩

end Sink

end SpreadWatch
