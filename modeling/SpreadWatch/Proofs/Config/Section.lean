import Mathlib
import SpreadWatch.Config.Loader
import SpreadWatch.Proofs.Failure

/-!
Sections of a configuration. Of a mapping, a check looks at the values under the names it knows, and
the section is built from the same values. So what an empty list of findings says of a value holds
of the value in the section, which is the given one or else the default.
-/

namespace SpreadWatch

namespace Value

theorem opened_of_entries {value : Value} {entries : Entries}
    (mapping : value.entries? = some entries) : value.opened = .dict entries := by
  unfold entries? at mapping
  split at mapping
  · rename_i opened
    cases mapping
    exact opened
  · cases mapping

theorem member_of_entries {value : Value} {entries : Entries}
    (mapping : value.entries? = some entries) (name : String) :
    value.member? name = .ok (Entries.get? entries name) := by
  have has : value.hasMember name = .ok (Entries.get? entries name).isSome := by
    rw [hasMember, opened_of_entries mapping]
    rfl
  cases found : Entries.get? entries name with
  | none =>
      rw [found] at has
      rw [member?, has]
      rfl
  | some held =>
      have read : value.member name = .ok held := by
        rw [member, opened_of_entries mapping]
        simp only [found]
      rw [found] at has
      rw [member?, has]
      simp only [bind, Except.bind, Option.isSome_some, if_true, read]
      rfl

end Value

namespace Config

variable {part value default : Value} {entries : Entries} {findings : List Finding} {name : String}

/-! ### Findings on fields -/

theorem finding_unless_nil {accepted : Bool} {field message : String}
    (nothing : findingUnless accepted field message value = []) : accepted = true := by
  unfold findingUnless at nothing
  split_ifs at nothing with fine
  exact fine

theorem finding_unless_nil_iff {accepted : Bool} {field message : String} :
    findingUnless accepted field message value = [] ↔ accepted = true := by
  refine ⟨finding_unless_nil, ?_⟩
  rintro rfl
  rfl

theorem check_member_of_entries (mapping : part.entries? = some entries) (name : String)
    (check : Value → Except Failure (List Finding)) :
    checkMember name part check =
      match Entries.get? entries name with
      | some value => check value
      | none => .ok [] := by
  rw [checkMember, Value.member_of_entries mapping]
  cases Entries.get? entries name <;> rfl

/-- A property that a check grants and that the default has holds of the value in the section. -/
theorem value_or_of_check (holds : Value → Prop) {check : Value → Except Failure (List Finding)}
    (mapping : part.entries? = some entries) (checked : checkMember name part check = .ok [])
    (granted : ∀ value, check value = .ok [] → holds value) (byDefault : holds default) :
    holds (valueOr entries name default) := by
  rw [check_member_of_entries mapping] at checked
  rw [valueOr]
  cases found : Entries.get? entries name with
  | none => exact byDefault
  | some value =>
      rw [found] at checked
      exact granted value checked

/-- The same for checks that find fault with every value but the accepted ones. -/
theorem value_or_accepted {accepted : Value → Bool} {field message : String}
    (mapping : part.entries? = some entries)
    (checked : checkMember name part (fun value =>
      return findingUnless (accepted value) field message value) = .ok [])
    (byDefault : accepted default = true) : accepted (valueOr entries name default) = true :=
  value_or_of_check (fun value => accepted value = true) mapping checked
    (fun _ granted => finding_unless_nil (Except.ok.inj granted)) byDefault

/-- The check of a section is the check of its value, also where the section is absent. -/
theorem check_of_section {config : Entries} {check : Value → Except Failure (List Finding)}
    (checked : checkMember name (.dict config) check = .ok []) (empty : check (.dict []) = .ok []) :
    check (valueOr config name (.dict [])) = .ok [] := by
  have mapping : (Value.dict config).entries? = some config := rfl
  exact value_or_of_check (fun value => check value = .ok []) mapping checked
    (fun _ granted => granted) empty

/-! ### Sections from named values -/

abbrev WrongType (failure : Failure) : Prop := ∃ text, failure = .wrongType text

theorem named_values_mapping {kind : String} {names : List String} {found : Entries}
    (named : namedValues kind names part = .ok found) : part.entries? = some found := by
  unfold namedValues at named
  cases mapping : part.entries? with
  | none =>
      rw [mapping] at named
      cases named
  | some entries =>
      rw [mapping] at named
      dsimp only at named
      split_ifs at named
      · cases named
      · obtain ⟨_, -, same⟩ := bind_eq_ok named
        cases same
        rfl

/-! ### The whole configuration -/

theorem checks_of_all {config : Value} (checked : checkAll config = .ok []) :
    checkMember "quotes" config checkQuotes = .ok [] ∧
    checkMember "fees" config checkFees = .ok [] ∧
    checkMember "summary" config checkSummary = .ok [] ∧
    checkMember "logging" config checkLogging = .ok [] ∧
    checkMember "trade_combinations" config (fun value => return checkCombinations value) =
      .ok [] := by
  obtain ⟨quotes, quotesChecked, afterQuotes⟩ := bind_eq_ok checked
  obtain ⟨fees, feesChecked, afterFees⟩ := bind_eq_ok afterQuotes
  obtain ⟨summary, summaryChecked, afterSummary⟩ := bind_eq_ok afterFees
  obtain ⟨logging, loggingChecked, afterLogging⟩ := bind_eq_ok afterSummary
  obtain ⟨combinations, combinationsChecked, all⟩ := bind_eq_ok afterLogging
  obtain ⟨four, rfl⟩ := List.append_eq_nil_iff.mp (Except.ok.inj all)
  obtain ⟨three, rfl⟩ := List.append_eq_nil_iff.mp four
  obtain ⟨two, rfl⟩ := List.append_eq_nil_iff.mp three
  obtain ⟨rfl, rfl⟩ := List.append_eq_nil_iff.mp two
  exact ⟨quotesChecked, feesChecked, summaryChecked, loggingChecked, combinationsChecked⟩

/-- Settings come out of a configuration with which no check has found fault. -/
theorem accepted_iff {loader : Loader} {overrides : Value} {settings : Settings} :
    loader.settings overrides = .ok settings ↔ ∃ config, loader.merged overrides = .ok config ∧
      checkAll (.dict config) = .ok [] ∧ Settings.ofEntries config = .ok settings := by
  constructor
  · intro accepted
    obtain ⟨config, merged, afterMerge⟩ := bind_eq_ok accepted
    obtain ⟨findings, checked, afterChecks⟩ := bind_eq_ok afterMerge
    dsimp only at afterChecks
    cases findings with
    | cons first rest =>
        obtain ⟨_, -, refused⟩ := bind_eq_ok afterChecks
        cases refused
    | nil =>
        refine ⟨config, merged, checked, ?_⟩
        cases result : Settings.ofEntries config with
        | ok other =>
            simp only [result] at afterChecks
            exact afterChecks
        | error failure =>
            simp only [result] at afterChecks
            cases failure <;> cases afterChecks
  · rintro ⟨config, merged, checked, built⟩
    rw [Loader.settings, merged]
    simp only [bind, Except.bind, checked, built]
    rfl

end Config

end SpreadWatch
