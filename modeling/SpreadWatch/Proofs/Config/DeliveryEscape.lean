import SpreadWatch.Proofs.Config.Accepted
import SpreadWatch.Proofs.Config.Escape

/-!
Which failures escape from the reading of the delivery section, and from that of the configuration
as a whole. The destinations are read one after the other, so the first that is not accepted
decides. Its refusal is reported where the message about it can be written, but a section or options
of the wrong type are not refused as such.
-/

namespace SpreadWatch

theorem Value.failing_display {value : Value} :
    Failing value.display ↔ value.isWritable = false := by
  unfold Value.display
  split_ifs with writable <;> simp [writable]

namespace Config

variable {α β : Type} {part entry : Value} {fields : Entries}

/-! ### Reports of several steps -/

theorem unreported_display (value : Value) : Unreported value.display := by
  unfold Value.display
  split_ifs
  · exact .ok _
  · exact .error id

theorem reported_bind_iff {x : Except Failure α} {f : α → Except Failure β}
    (rest : ∀ a, Reported (f a)) : Reported (x >>= f) ↔ Reported x := by
  cases x with
  | error failure => exact ⟨fun h => .error (h failure rfl), fun h => .error (h failure rfl)⟩
  | ok a => exact iff_of_true (rest a) (.ok a)

theorem first_of_cons {first : α} {rest : List α} {taken good : α → Prop} :
    (∀ earlier item later, first :: rest = earlier ++ item :: later →
      (∀ other ∈ earlier, taken other) → good item) ↔
    good first ∧ (taken first → ∀ earlier item later, rest = earlier ++ item :: later →
      (∀ other ∈ earlier, taken other) → good item) := by
  constructor
  · intro each
    refine ⟨each [] first rest rfl nofun, fun took earlier item later same before => ?_⟩
    exact each (first :: earlier) item later (by rw [same, List.cons_append])
      (List.forall_mem_cons.mpr ⟨took, before⟩)
  · rintro ⟨here, others⟩ earlier item later same before
    cases earlier with
    | nil =>
        obtain ⟨rfl, -⟩ := List.cons.inj same
        exact here
    | cons head tail =>
        obtain ⟨rfl, split⟩ := List.cons.inj same
        obtain ⟨took, before⟩ := List.forall_mem_cons.mp before
        exact others took tail item later split before

/-- Of items that are read one after the other, the first that is not taken decides. -/
theorem reported_map_all_iff {items : List α} {f : α → Except Failure β} :
    Reported (items.mapM f) ↔ ∀ earlier item later, items = earlier ++ item :: later →
      (∀ other ∈ earlier, ∃ b, f other = .ok b) → Reported (f item) := by
  induction items with
  | nil =>
      refine iff_of_true (.ok _) fun earlier item later same => ?_
      simp at same
  | cons first rest induction =>
      rw [List.mapM_cons, first_of_cons, ← induction]
      cases f first with
      | error failure =>
          constructor
          · intro reported
            exact ⟨.error (reported failure rfl), nofun⟩
          · rintro ⟨reported, -⟩
            exact .error (reported failure rfl)
      | ok b =>
          have others : Reported (Except.ok b >>= fun first =>
              rest.mapM f >>= fun others => pure (first :: others)) ↔ Reported (rest.mapM f) :=
            reported_bind_iff fun _ => .ok _
          rw [others, and_iff_right (.ok b), forall_prop_of_true ⟨b, rfl⟩]

/-! ### One destination -/

theorem unknown_option_wrong_type {method : Method} {options : Entries} {failure : Failure}
    (unknown : unknownOption? method options = some failure) : WrongType failure := by
  obtain ⟨⟨key, value⟩, -, found⟩ := List.exists_of_findSome?_eq_some unknown
  dsimp only at found
  split at found
  · cases found
    exact ⟨_, rfl⟩
  · split_ifs at found
    cases found
    exact ⟨_, rfl⟩
  · cases found

theorem entry_fails_with (method : Method) (name : Value) (options : Entries)
    (enabled instruments : Value) :
    FailsWith WrongType (Destination.ofEntry method name options enabled instruments) := by
  refine .bind (.for_in fun shared state => ?_) fun _ _ => .bind ?_ fun _ _ => .ok _
  · exact .guard ⟨_, rfl⟩ (.ok _)
  · unfold Destination.ofOptions
    refine .guard ⟨_, rfl⟩ <| .guard ⟨_, rfl⟩ ?_
    dsimp only
    split
    · rename_i unknown
      exact .error (unknown_option_wrong_type unknown)
    · exact .ok _

theorem unreported_items (value : Value) : Unreported (itemsOf value) := by
  unfold itemsOf
  split <;> first | exact .ok _ | exact .error id

theorem unreported_pair (index : ℕ) (item : Value) : Unreported (pairOfItems index item) := by
  unfold pairOfItems
  split
  · exact .error id
  · split_ifs
    · exact .ok _
    · exact .error id
  · exact .error id

theorem unreported_entries (items : List Value) :
    ∀ (index : ℕ) (known : Entries), Unreported (entriesOfItems index known items) := by
  induction items with
  | nil => exact fun _ _ => .ok _
  | cons item rest induction =>
      intro index known
      exact .bind (unreported_pair index item) fun pair _ => induction _ _

theorem unreported_options (value : Value) : Unreported (optionEntries value) := by
  unfold optionEntries
  split_ifs
  · exact .ok _
  · split
    · exact .ok _
    · exact .bind (unreported_items value) fun items _ => unreported_entries items _ _

def nameIn (fields : Entries) (method : Method) : Value :=
  (fields.get? "name").getD (.text method.name)

/-- Whether the method does not take the options: without a path for a file, or with a member that
it does not know. -/
def RefusesOptions (fields : Entries) (method : Method) (options : Entries) : Prop :=
  (method = .file ∧ options.contains "output_path" = false) ∨
    Failing (Destination.ofEntry method (nameIn fields method) options
      ((fields.get? "enabled").getD (.bool true)) (fields.get "instruments_filter"))

inductive FieldsEscape (fields : Entries) : Prop
  | method (unknown : Method.ofValue? (fields.get "method") = none)
      (unwritable : (fields.get "method").isWritable = false)
  | options {method : Method} (known : Method.ofValue? (fields.get "method") = some method)
      (fail : Failing (optionEntries (fields.get "config")))
  | refusal {method : Method} {options : Entries}
      (known : Method.ofValue? (fields.get "method") = some method)
      (given : optionEntries (fields.get "config") = .ok options)
      (refuses : RefusesOptions fields method options)
      (unwritable : (nameIn fields method).isWritable = false)

theorem unknown_escape_iff (unknown : Method.ofValue? (fields.get "method") = none) :
    FieldsEscape fields ↔ Failing (fields.get "method").display := by
  rw [Value.failing_display]
  constructor
  · rintro (⟨-, unwritable⟩ | ⟨known⟩ | ⟨known⟩)
    · exact unwritable
    all_goals cases unknown.symm.trans known
  · exact .method unknown

theorem known_escape_iff {method : Method} {options : Entries}
    (known : Method.ofValue? (fields.get "method") = some method)
    (given : optionEntries (fields.get "config") = .ok options) :
    FieldsEscape fields ↔
      RefusesOptions fields method options ∧ Failing (nameIn fields method).display := by
  rw [Value.failing_display]
  constructor
  · rintro (⟨unknown, -⟩ | ⟨other, failure, fail⟩ | ⟨other, same, refuses, unwritable⟩)
    · cases known.symm.trans unknown
    · cases given.symm.trans fail
    · cases known.symm.trans other
      cases given.symm.trans same
      exact ⟨refuses, unwritable⟩
  · rintro ⟨refuses, unwritable⟩
    exact .refusal known given refuses unwritable

theorem fields_reported_iff : Reported (Destination.ofFields fields) ↔ ¬ FieldsEscape fields := by
  unfold Destination.ofFields
  cases known : Method.ofValue? (fields.get "method") with
  | none =>
      rw [unknown_escape_iff known]
      exact refusal_reported_iff (unreported_display _) fun text => ⟨_, rfl, trivial⟩
  | some method =>
      dsimp only
      cases given : optionEntries (fields.get "config") with
      | error failure =>
          refine iff_of_false ?_ (not_not_intro (.options known ⟨failure, given⟩))
          exact not_reported_of_failing ⟨failure, rfl⟩
            (.error (unreported_options _ failure given))
      | ok options =>
          have unwrapped : (Except.ok options : Except Failure Entries) = pure options := rfl
          rw [known_escape_iff known given, unwrapped, pure_bind]
          split
          · rename_i pathless
            have refuses : RefusesOptions fields method options :=
              .inl ⟨pathless.1, Bool.eq_false_iff.mpr pathless.2⟩
            rw [and_iff_right refuses]
            exact refusal_reported_iff (unreported_display _) fun text => ⟨_, rfl, trivial⟩
          · rename_i withPath
            cases made : Destination.ofEntry method ((fields.get? "name").getD (.text method.name))
                options ((fields.get? "enabled").getD (.bool true))
                (fields.get "instruments_filter") with
            | error failure =>
                have refuses : RefusesOptions fields method options := .inr ⟨failure, made⟩
                obtain ⟨text, rfl⟩ := entry_fails_with _ _ _ _ _ failure made
                rw [and_iff_right refuses]
                exact refusal_reported_iff (unreported_display _) fun text => ⟨_, rfl, trivial⟩
            | ok destination =>
                refine iff_of_true (.ok _) ?_
                rintro ⟨⟨file, pathless⟩ | ⟨failure, refused⟩, -⟩
                · exact withPath ⟨file, Bool.eq_false_iff.mp pathless⟩
                · cases made.symm.trans refused

/-- What escapes from the reading of an entry: it is no mapping and cannot be written into the
message, or its fields cannot be read. -/
inductive EntryEscape (entry : Value) : Prop
  | unmapped (missing : entry.entries? = none) (unwritable : entry.isWritable = false)
  | fields {fields : Entries} (mapping : entry.entries? = some fields)
      (escape : FieldsEscape fields)

theorem entry_reported_iff : Reported (Destination.ofValue entry) ↔ ¬ EntryEscape entry := by
  unfold Destination.ofValue
  cases mapping : entry.entries? with
  | none =>
      have escape : EntryEscape entry ↔ Failing entry.display := by
        rw [Value.failing_display]
        constructor
        · rintro (⟨-, unwritable⟩ | ⟨other⟩)
          · exact unwritable
          · cases mapping.symm.trans other
        · exact .unmapped mapping
      rw [escape]
      exact refusal_reported_iff (unreported_display _) fun text => ⟨_, rfl, trivial⟩
  | some fields =>
      have escape : EntryEscape entry ↔ FieldsEscape fields := by
        constructor
        · rintro (⟨missing, -⟩ | ⟨other, escape⟩)
          · cases mapping.symm.trans missing
          · cases mapping.symm.trans other
            exact escape
        · exact .fields mapping
      rw [escape]
      exact fields_reported_iff

/-! ### The section -/

/-- What escapes from the reading of a list of destinations: it is no list, or the first entry that
is not accepted is not reported. -/
inductive ListEscape (listed : Value) : Prop
  | unlisted (fail : Failing (itemsOf listed))
  | entry {earlier later : List Value} {entry : Value}
      (items : itemsOf listed = .ok (earlier ++ entry :: later))
      (accepted : ∀ other ∈ earlier, ∃ destination, Destination.ofValue other = .ok destination)
      (escape : EntryEscape entry)

theorem list_reported_iff {listed : Value} :
    Reported (itemsOf listed >>= fun items => items.mapM Destination.ofValue) ↔
      ¬ ListEscape listed := by
  cases items : itemsOf listed with
  | error failure =>
      refine iff_of_false ?_ (not_not_intro (.unlisted ⟨failure, items⟩))
      exact not_reported_of_failing ⟨failure, rfl⟩ (.error (unreported_items _ failure items))
  | ok all =>
      have each : Reported (Except.ok all >>= fun items => items.mapM Destination.ofValue) ↔
          Reported (all.mapM Destination.ofValue) := Iff.rfl
      rw [each, reported_map_all_iff]
      constructor
      · rintro reported (⟨failure, fail⟩ | ⟨same, accepted, escape⟩)
        · cases items.symm.trans fail
        · cases items.symm.trans same
          exact entry_reported_iff.mp (reported _ _ _ rfl accepted) escape
      · intro none earlier item later same accepted
        rw [entry_reported_iff]
        intro escape
        exact none (.entry (items.trans (congrArg _ same)) accepted escape)

structure Lists (part listed : Value) : Prop where
  given : part.isTruthy = true
  held : held? part "destinations" = some listed
  filled : listed.isTruthy = true

inductive DeliveryEscape (part : Value) : Prop
  | unmapped (given : part.isTruthy = true) (missing : part.entries? = none)
  | listed {listed : Value} (lists : Lists part listed) (escape : ListEscape listed)

theorem lists_reported_iff {listed : Value} (mapping : part.entries? = some fields)
    (lists : Lists part listed) :
    Reported (Delivery.ofValue part) ↔
      Reported (itemsOf listed >>= fun items => items.mapM Destination.ofValue) := by
  unfold Delivery.ofValue
  simp only [member_or_of_entries mapping, pure_bind, lists.held, Option.getD_some, lists.given,
    lists.filled, if_true, Bool.not_true, Bool.false_eq_true, if_false]
  rw [← bind_assoc]
  exact reported_bind_iff fun _ => .ok _

/-- Where nothing is listed, there is nothing to refuse. -/
theorem unlisted_reported (mapping : part.entries? = some fields)
    (nothing : ∀ listed, ¬ Lists part listed) : Reported (Delivery.ofValue part) := by
  unfold Delivery.ofValue
  cases given : part.isTruthy with
  | false => exact .ok _
  | true =>
      have empty : ((held? part "destinations").getD (.list [])).isTruthy = false := by
        cases held : held? part "destinations" with
        | none => rfl
        | some listed =>
            exact Bool.eq_false_iff.mpr fun filled => nothing listed { given, held, filled }
      simp only [member_or_of_entries mapping, pure_bind, empty]
      exact .ok _

theorem unmapped_reported_iff (missing : part.entries? = none) :
    Reported (Delivery.ofValue part) ↔ ¬ DeliveryEscape part := by
  unfold Delivery.ofValue
  cases given : part.isTruthy with
  | false =>
      refine iff_of_true (.ok _) ?_
      rintro (⟨other, -⟩ | ⟨⟨other, -, -⟩, -⟩) <;> cases given.symm.trans other
  | true =>
      refine iff_of_false ?_ (not_not_intro (.unmapped given missing))
      rw [member_or_of_unmapped missing]
      exact not_reported_of_failing ⟨_, rfl⟩ (.error id)

theorem delivery_reported_iff : Reported (Delivery.ofValue part) ↔ ¬ DeliveryEscape part := by
  cases mapping : part.entries? with
  | none => exact unmapped_reported_iff mapping
  | some fields =>
      by_cases listing : ∃ listed, Lists part listed
      · obtain ⟨listed, lists⟩ := listing
        have escape : DeliveryEscape part ↔ ListEscape listed := by
          constructor
          · rintro (⟨-, missing⟩ | ⟨other, escape⟩)
            · cases mapping.symm.trans missing
            · cases lists.held.symm.trans other.held
              exact escape
          · exact .listed lists
        rw [escape, lists_reported_iff mapping lists, list_reported_iff]
      · have nothing := not_exists.mp listing
        refine iff_of_true (unlisted_reported mapping nothing) ?_
        rintro (⟨-, missing⟩ | ⟨lists, -⟩)
        · cases mapping.symm.trans missing
        · exact nothing _ lists

/-! ### The whole configuration -/

section Loading

variable {loader : Loader} {overrides : Value}

theorem merged_of_mapping {entries : Entries} (file : loader.fileEntries = .ok entries)
    (mapping : overrides = .null ∨ ∃ given, overrides.entries? = some given) :
    ∃ config, loader.merged overrides = .ok config := by
  rw [Loader.merged, file]
  simp only [bind, Except.bind]
  split_ifs with untrue
  · exact ⟨_, rfl⟩
  · rcases mapping with rfl | ⟨given, mapping⟩
    · exact absurd rfl untrue
    · rw [mapping]
      exact ⟨_, rfl⟩

end Loading

/-- A section that is there but empty, as a file has it whose lines under the name are commented
out. -/
def emptyQuotes : Value := .ofFields [("quotes", .null)]

def emptyQuotesConfig : Entries :=
  Entries.insert Settings.default.toEntries (.text "quotes") .null

theorem empty_quotes_merged : bareLoader.merged emptyQuotes = .ok emptyQuotesConfig := by
  rw [Loader.merged, bare_loader_entries]
  simp [emptyQuotes, emptyQuotesConfig, Value.ofFields, Value.isTruthy, Value.entries?,
    Value.opened, merge, Settings.toEntries, Settings.default, Entries.find?, Entries.insert,
    Value.sameKey, bind, Except.bind, pure, Except.pure]

end Config

end SpreadWatch
