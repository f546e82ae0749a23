import SpreadWatch.Proofs.Failure
import SpreadWatch.Proofs.Sink.Publish

/-!
The filters of sinks. A filter stands in a sink as the configuration gives it, of whatever type it
is, and is asked when a result is published, before anything that turns a failure into a receipt. So
publishing fails exactly if the filter is a value that cannot be asked for members.
-/

namespace SpreadWatch

/-! ### Filters of destinations -/

def Value.holdsMembers (value : Value) : Bool :=
  match value.opened with
  | .dict _ | .list _ | .set _ | .pair .. | .text _ => true
  | _ => false

theorem Value.has_member_answers_iff (value : Value) (name : String) :
    (∃ found, value.hasMember name = .ok found) ↔ value.holdsMembers = true := by
  unfold Value.hasMember Value.holdsMembers
  split <;> simp_all

namespace Config

/-- Whether a value can stand as a filter. Null is never asked. -/
def isFilter : Value → Bool
  | .null => true
  | wanted => wanted.holdsMembers

def Destination.identity (destination : Destination) : Value × Value :=
  (destination.name, destination.instruments)

def Delivery.active (delivery : Delivery) : List Destination :=
  if delivery.enabled.isTruthy then
    delivery.destinations.filter fun destination => destination.enabled.isTruthy
  else []

theorem entry_filter {method : Method} {name : Value} {options : Entries}
    {enabled instruments : Value} {destination : Destination}
    (read : Destination.ofEntry method name options enabled instruments = .ok destination) :
    destination.instruments = instruments := by
  obtain ⟨-, -, afterShared⟩ := bind_eq_ok read
  obtain ⟨plain, -, built⟩ := bind_eq_ok afterShared
  cases built
  rfl

theorem fields_filter {fields : Entries} {destination : Destination}
    (read : Destination.ofFields fields = .ok destination) :
    destination.instruments = Entries.get fields "instruments_filter" := by
  unfold Destination.ofFields at read
  split at read
  · obtain ⟨options, -, afterOptions⟩ := bind_eq_ok read
    split at afterOptions
    · obtain ⟨text, -, refused⟩ := bind_eq_ok afterOptions
      cases refused
    · dsimp only [bind, Except.bind, pure, Except.pure] at afterOptions
      split at afterOptions
      · split at afterOptions <;> cases afterOptions
      · exact entry_filter afterOptions
  · obtain ⟨text, -, refused⟩ := bind_eq_ok read
    cases refused

/-- No filter is looked at when a destination is read. -/
theorem destination_filter {entry : Value} {destination : Destination}
    (read : Destination.ofValue entry = .ok destination) :
    ∃ fields, entry.entries? = some fields ∧
      destination.instruments = Entries.get fields "instruments_filter" := by
  unfold Destination.ofValue at read
  split at read
  · rename_i fields mapping
    exact ⟨fields, mapping, fields_filter read⟩
  · obtain ⟨text, -, refused⟩ := bind_eq_ok read
    cases refused

end Config

namespace Sink

open SpreadWatch.Action
open SpreadWatch.Config (isFilter)

variable {result : SpreadResult} {sink : Sink} {outlets : Outlets}

/-! ### Publishing -/

theorem accepts_answers_iff (sink : Sink) (instrument : String) :
    (∃ wanted, sink.accepts instrument = .ok wanted) ↔ isFilter sink.instruments = true := by
  unfold accepts
  cases sink.instruments
  case null => simp [isFilter]
  all_goals exact Value.has_member_answers_iff _ instrument

/-- Publishing as it should end: an unwanted result changes nothing, and a wanted one is counted as
the receipt says that publishing answers with. -/
inductive Published (result : SpreadResult) (sink : Sink) (outlets : Outlets) :
    Except Failure (Option Receipt) × Channel → Prop
  | passedOver (unwanted : sink.accepts result.pair.instrument = .ok false) :
      Published result sink outlets (.ok none, (sink, outlets))
  | counted {receipt : Receipt} {next : Sink} {nextOutlets : Outlets}
      (wanted : sink.accepts result.pair.instrument = .ok true)
      (counted : Counted receipt sink next) :
      Published result sink outlets (.ok (some receipt), (next, nextOutlets))

theorem publish_refused (unfit : ¬ isFilter sink.instruments = true) (result : SpreadResult)
    (outlets : Outlets) : ∃ text,
      (publish result).ending (sink, outlets) = (.error (.wrongType text), (sink, outlets)) := by
  cases answer : sink.accepts result.pair.instrument with
  | ok wanted => exact absurd ((accepts_answers_iff _ _).mp ⟨wanted, answer⟩) unfit
  | error failure =>
      obtain ⟨text, rfl⟩ := accepts_failure answer
      exact ⟨text, publish_refuses answer outlets⟩

theorem publish_published_iff (result : SpreadResult) (sink : Sink) (outlets : Outlets) :
    Published result sink outlets ((publish result).ending (sink, outlets)) ↔
      isFilter sink.instruments = true := by
  constructor
  · intro published
    by_contra unfit
    obtain ⟨text, refused⟩ := publish_refused unfit result outlets
    rw [refused] at published
    cases published
  · intro fit
    obtain ⟨wanted, answer⟩ := (accepts_answers_iff sink result.pair.instrument).mpr fit
    cases wanted with
    | false =>
        rw [publish_passes_over answer]
        exact .passedOver answer
    | true =>
        obtain ⟨receipt, next, nextOutlets, published, counted, -⟩ := publish_counts answer outlets
        rw [published]
        exact .counted answer counted

/-! ### The sinks of a configuration -/

theorem create_identity {destination : Config.Destination} {files after : Files}
    (created : create destination files = .ok (sink, after)) :
    sink.identity = destination.identity := by
  obtain ⟨text, -, afterName⟩ := bind_eq_ok created
  dsimp only at afterName
  split at afterName
  · cases afterName
    rfl
  · obtain ⟨⟨medium, made⟩, -, built⟩ := bind_eq_ok afterName
    cases built
    rfl

theorem create_each_identities {destinations : List Config.Destination} {files after : Files}
    {sinks : List Sink} (created : createEach destinations files = .ok (sinks, after)) :
    sinks.map identity = destinations.map Config.Destination.identity := by
  induction destinations generalizing files sinks with
  | nil =>
      cases created
      rfl
  | cons destination rest induction =>
      obtain ⟨⟨sink, middle⟩, first, afterFirst⟩ := bind_eq_ok created
      obtain ⟨⟨others, last⟩, later, built⟩ := bind_eq_ok afterFirst
      cases built
      rw [List.map_cons, List.map_cons, create_identity first, induction later]

/-- There is a sink for each active destination, and its filter is the destination's. -/
theorem create_all_identities {delivery : Config.Delivery} {files after : Files}
    {sinks : List Sink} (created : createAll delivery files = .ok (sinks, after)) :
    sinks.map identity = delivery.active.map Config.Destination.identity := by
  unfold createAll at created
  unfold Config.Delivery.active
  split_ifs at created ⊢
  · exact create_each_identities created
  · cases created
    rfl

end Sink

end SpreadWatch
