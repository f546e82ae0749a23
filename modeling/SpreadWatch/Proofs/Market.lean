import SpreadWatch.Market
import SpreadWatch.Proofs.Decimal.Text
import SpreadWatch.Proofs.Json.RoundTrip
import SpreadWatch.Value.Access

/-!
The events that sinks receive. The event of a whole result is a value that both JSON writers can
write, and the decimals of the result can be read off it.
-/

namespace SpreadWatch

def SpreadResult.prices (result : SpreadResult) : List (Option Decimal) :=
  [result.entry, result.exit, result.longQuote.bind Quote.ask, result.longQuote.bind Quote.bid,
    result.shortQuote.bind Quote.ask, result.shortQuote.bind Quote.bid]

/-- A result with both quotes and both spreads, whose decimals are in the range of decimals. -/
structure SpreadResult.Whole (result : SpreadResult) : Prop where
  longQuote : ∃ long, result.longQuote = some long
  shortQuote : ∃ short, result.shortQuote = some short
  entry : ∃ entry, result.entry = some entry
  exit : ∃ exit, result.exit = some exit
  inRange : ∀ d, some d ∈ result.prices → d.inRange = true

def Value.told : Value → Except Failure (Option Decimal)
  | .null => .ok none
  | .text spelled => (liftDecimal (Decimal.ofText spelled)).map some
  | other => .error (.wrongType other.typeName)

/-- The decimals in an event, in the order of `SpreadResult.prices`. -/
def Value.prices (event : Value) : Except Failure (List (Option Decimal)) := do
  let long ← event.member "long_quote"
  let short ← event.member "short_quote"
  let members := [← event.member "entry_spread", ← event.member "exit_spread",
    ← long.member "ask", ← long.member "bid", ← short.member "ask", ← short.member "bid"]
  members.mapM Value.told

theorem told_decimals {decimals : List (Option Decimal)}
    (fits : ∀ d, some d ∈ decimals → d.inRange = true) :
    (decimals.map decimalOrNull).mapM Value.told = .ok decimals := by
  induction decimals with
  | nil => rfl
  | cons first rest induction =>
      have told : (decimalOrNull first).told = .ok first := by
        cases first with
        | none => rfl
        | some d =>
            simp only [decimalOrNull, Value.ofOption, Value.told,
              Decimal.of_text_to_text (fits d (by simp))]
            rfl
      have others := induction fun d member => fits d (by simp [member])
      rw [List.map_cons, List.mapM_cons, told, others]
      rfl

theorem decimal_plain (d : Option Decimal) : Json.Plain 0 (decimalOrNull d) := by
  cases d with
  | none => exact .null
  | some d => exact .text _

/-- A mapping with fixed distinct names whose values are plain. -/
theorem fields_plain {room : ℕ} {fields : List (String × Value)}
    (distinct : (fields.map (·.1)).Nodup) (each : ∀ field ∈ fields, Json.Plain room field.2) :
    Json.Plain (room + 1) (.ofFields fields) := by
  refine .dict ?_ ?_ ?_
  · intro entry member
    obtain ⟨field, -, rfl⟩ := List.mem_map.mp member
    exact ⟨field.1, rfl⟩
  · have keys : (fields.map fun field => (Value.text field.1, field.2)).map (·.1) =
        (fields.map (·.1)).map .text := by simp
    rw [keys]
    exact distinct.map fun _ _ same => Value.text.inj same
  · intro entry member
    obtain ⟨field, held, rfl⟩ := List.mem_map.mp member
    exact each field held

theorem get_of_fields (fields : List (String × Value)) (name : String) :
    Entries.get? (fields.map fun field => (Value.text field.1, field.2)) name =
      fields.lookup name := by
  induction fields with
  | nil => rfl
  | cons field rest induction =>
      rw [List.map_cons, List.lookup_cons, Entries.get?, Entries.find?, List.find?_cons,
        Value.sameKey, Bool.beq_comm]
      cases name == field.1 with
      | true => rfl
      | false => exact induction

theorem member_of_fields (fields : List (String × Value)) (name : String) :
    (Value.ofFields fields).member name =
      match fields.lookup name with
      | some found => .ok found
      | none => .error (.missingKey name) := by
  cases listed : fields.lookup name with
  | none => simp only [Value.member, Value.ofFields, Value.opened, get_of_fields, listed]
  | some found => simp only [Value.member, Value.ofFields, Value.opened, get_of_fields, listed]

theorem quote_event_plain (quote : Quote) : Json.Plain 1 quote.toEvent := by
  apply fields_plain (by simp)
  have time : Json.Plain 0 (Value.ofOption (fun m => .text m.toIso) quote.time) := by
    cases quote.time with
    | none => exact .null
    | some time => exact .text _
  simp [decimal_plain, time]

/-- The event of a whole result can be written, and tells the decimals of the result. -/
theorem event_of_whole {result : SpreadResult} (whole : result.Whole) :
    ∃ event, result.toEvent = .ok event ∧ Json.Plain 2 event ∧
      event.prices = .ok result.prices := by
  obtain ⟨long, longQuote⟩ := whole.longQuote
  obtain ⟨short, shortQuote⟩ := whole.shortQuote
  obtain ⟨entry, entrySpread⟩ := whole.entry
  obtain ⟨exit, exitSpread⟩ := whole.exit
  refine ⟨_, by rw [SpreadResult.toEvent, longQuote, shortQuote]; rfl, ?_, ?_⟩
  · apply fields_plain (by simp)
    intro field member
    simp only [List.mem_cons, List.not_mem_nil, or_false] at member
    rcases member with rfl | rfl | rfl | rfl | rfl | rfl | rfl
    · exact .text _
    · exact .text _
    · exact .text _
    · exact quote_event_plain long
    · exact quote_event_plain short
    · exact .text _
    · exact .text _
  · rw [← told_decimals whole.inRange]
    simp only [Value.prices, Quote.toEvent, member_of_fields, List.lookup, String.reduceBEq, bind,
      Except.bind, SpreadResult.prices, longQuote, shortQuote, entrySpread, exitSpread]
    rfl

end SpreadWatch
