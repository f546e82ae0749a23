import SpreadWatch.Config.Check
import SpreadWatch.Proofs.Config.Escape

/-!
Whether the check of a configuration agrees with the loading of it. Both lay the same mappings over
each other and ask the same checks, which look at the names they know only. The loading also builds
the sections, and there a name that a section does not have is refused.
-/

namespace SpreadWatch.Config

variable {loader : Loader} {config entries : Entries} {part : Value} {kind : String}
  {names : List String}

/-! ### Sections that can be built -/

def Fits (names : List String) (part : Value) : Prop :=
  ∃ entries, part.entries? = some entries ∧ ∀ entry ∈ entries, ∃ name ∈ names, entry.1 = .text name

def sectionNames : List (String × List String) :=
  [("quotes", (windowFields defaultWindow).map (·.1)), ("fees", (feeFields {}).map (·.1)),
    ("summary", (summaryFields {}).map (·.1)), ("logging", (loggingFields {}).map (·.1))]

def AllFit (config : Entries) : Prop :=
  ∀ known ∈ sectionNames, ∀ part, config.get? known.1 = some part → Fits known.2 part

theorem fits_of_entries (mapping : part.entries? = some entries) :
    Fits names part ↔ ∀ entry ∈ entries, ∃ name ∈ names, entry.1 = .text name := by
  simp [Fits, mapping]

theorem fits_empty (names : List String) : Fits names (.dict []) := ⟨[], rfl, by simp⟩

theorem has_text_keys_iff :
    hasTextKeys entries = true ↔ ∀ entry ∈ entries, ∃ name, entry.1 = .text name := by
  rw [hasTextKeys, List.all_eq_true]
  refine forall₂_congr ?_
  rintro ⟨key, value⟩ -
  cases key <;> simp

/-- A key that is no text, or else the first that is not among the names, ends the building of a
section. -/
theorem failing_named_values (own : "self" ∉ names) :
    Failing (namedValues kind names part) ↔ ¬ Fits names part := by
  unfold namedValues
  cases mapping : part.entries? with
  | none => simp [Fits, mapping]
  | some entries =>
      rw [fits_of_entries mapping]
      dsimp only
      cases texts : hasTextKeys entries with
      | false =>
          refine iff_of_true ⟨notKeywords, rfl⟩ fun named => ?_
          have all := has_text_keys_iff.mpr fun entry member =>
            (named entry member).imp fun _ => And.right
          cases texts.symm.trans all
      | true =>
          refine failing_bind_pure.trans ((failing_for_each ?_).trans ?_)
          · rintro ⟨key, value⟩
            dsimp only
            split
            · split_ifs <;> first | exact .inl ⟨_, rfl⟩ | exact .inr rfl
            · exact .inr rfl
          · rw [has_text_keys_iff] at texts
            push Not
            refine exists_congr fun entry => and_congr_right fun member => ?_
            obtain ⟨name, same⟩ := texts entry member
            obtain ⟨key, value⟩ := entry
            cases same
            by_cases known : name ∈ names
            · have other : name ≠ "self" := fun same => own (same ▸ known)
              simp [known, other]
            · have unknown : ∀ other ∈ names, Value.text name ≠ .text other := by
                rintro other among ⟨⟩
                exact known among
              refine iff_of_true ?_ unknown
              simp only [List.contains_eq_mem, known, decide_false, Bool.not_false, if_true]
              split_ifs <;> exact ⟨_, rfl⟩

theorem failing_section {α : Type} {build : Entries → α} (own : "self" ∉ names) :
    Failing (namedValues kind names part >>= fun entries => pure (build entries)) ↔
      ¬ Fits names part :=
  failing_bind_pure.trans (failing_named_values own)

theorem fits_value_or_iff {place : String} :
    Fits names (valueOr config place (.dict [])) ↔
      ∀ part, config.get? place = some part → Fits names part := by
  rw [valueOr]
  cases config.get? place <;> simp [fits_empty]

theorem all_fit_iff : AllFit config ↔ ∀ known ∈ sectionNames,
    Fits known.2 (valueOr config known.1 (.dict [])) :=
  forall₂_congr fun _ _ => fits_value_or_iff.symm

theorem failing_settings_of_entries : Failing (Settings.ofEntries config) ↔ ¬ AllFit config := by
  have steps : Failing (Settings.ofEntries config) ↔
      Failing (windowOf (valueOr config "quotes" (.dict []))) ∨
      Failing (feesOf (valueOr config "fees" (.dict []))) ∨
      Failing (summaryOf (valueOr config "summary" (.dict []))) ∨
      Failing (loggingOf (valueOr config "logging" (.dict []))) :=
    failing_bind fun quotes => failing_bind fun fees => failing_bind fun summary =>
      failing_bind_pure
  rw [steps, all_fit_iff, windowOf, feesOf, summaryOf, loggingOf,
    failing_section (by decide), failing_section (by decide), failing_section (by decide),
    failing_section (by decide), ← not_and_or, ← not_and_or, ← not_and_or]
  simp [sectionNames, windowFields, feeFields, summaryFields, loggingFields]

/-! ### Checking and loading -/

def Passes (loader : Loader) : Prop := ∃ report, check loader = .ok report ∧ report.exitCode = 0

def Loads (loader : Loader) : Prop :=
  (∃ settings, loader.settings .null = .ok settings) ∧ ∃ pairs, loader.pairs .null = .ok pairs

structure Faultless (loader : Loader) (config : Entries) : Prop where
  merged : loader.merged .null = .ok config
  checked : checkAll (.dict config) = .ok []

theorem combinations_of_checked (checked : checkAll (.dict config) = .ok [])
    (given : (config.get "trade_combinations").isTruthy = true) :
    checkCombinations (config.get "trade_combinations") = [] := by
  obtain ⟨-, -, -, -, combinationsChecked⟩ := checks_of_all checked
  have mapping : (Value.dict config).entries? = some config := rfl
  rw [check_member_of_entries mapping] at combinationsChecked
  rw [Entries.get] at given ⊢
  cases found : config.get? "trade_combinations" with
  | none =>
      rw [found] at given
      cases given
  | some value =>
      rw [found] at combinationsChecked
      exact Except.ok.inj combinationsChecked

/-- The pairs are checked like all of the configuration, except that what counts as false stands for
no pairs at all. -/
theorem pairs_of_faultless (faultless : Faultless loader config) :
    ∃ pairs, loader.pairs .null = .ok pairs := by
  have nothing : checkCombinations (if (config.get "trade_combinations").isTruthy then
      config.get "trade_combinations" else .list []) = [] := by
    split_ifs with given
    · exact combinations_of_checked faultless.checked given
    · rfl
  rw [Loader.pairs, faultless.merged]
  simp only [bind, Except.bind, nothing]
  exact ⟨_, rfl⟩

theorem settings_of_faultless (faultless : Faultless loader config) :
    loader.settings .null = match Settings.ofEntries config with
      | .error (.wrongType text) => throw (refused ("Invalid configuration: " ++ text) [])
      | result => result := by
  rw [Loader.settings, faultless.merged]
  simp only [bind, Except.bind, faultless.checked]
  rfl

/-- Of a configuration without fault, the settings are loaded if and only if every section can be
built; else the configuration is refused. -/
theorem settings_of_faultless_iff (faultless : Faultless loader config) :
    (AllFit config ↔ ∃ settings, loader.settings .null = .ok settings) ∧
      Reported (loader.settings .null) := by
  rw [settings_of_faultless faultless]
  refine ⟨?_, built_reported config⟩
  rw [← not_iff_not, ← failing_settings_of_entries]
  cases built : Settings.ofEntries config with
  | ok settings => simp
  | error failure =>
      obtain ⟨text, rfl⟩ := settings_of_entries_fail_with config failure built
      refine iff_of_true (failing_error _) ?_
      rintro ⟨settings, loaded⟩
      cases loaded

theorem faultless_of_settings {settings : Settings}
    (loaded : loader.settings .null = .ok settings) : ∃ config, Faultless loader config := by
  obtain ⟨config, merged, checked, -⟩ := accepted_iff.mp loaded
  exact ⟨config, merged, checked⟩

theorem passes_iff : Passes loader ↔ ∃ config, Faultless loader config := by
  constructor
  · rintro ⟨report, checked, success⟩
    unfold check at checked
    cases merged : loader.merged .null with
    | error failure =>
        rw [merged] at checked
        cases failure
        case engine error =>
          dsimp only at checked
          split at checked <;> cases checked
          cases success
        all_goals cases checked
    | ok config =>
        simp only [merged] at checked
        obtain ⟨findings, found, afterChecks⟩ := bind_eq_ok checked
        cases findings with
        | nil => exact ⟨config, merged, found⟩
        | cons first rest =>
            obtain ⟨_, -, refused⟩ := bind_eq_ok afterChecks
            cases refused
            cases success
  · rintro ⟨config, faultless⟩
    obtain ⟨pairs, loaded⟩ := pairs_of_faultless faultless
    rw [Passes, check, faultless.merged]
    simp only [bind, Except.bind, faultless.checked, loaded]
    exact ⟨_, rfl, rfl⟩

theorem loads_iff : Loads loader ↔ ∃ config, Faultless loader config ∧ AllFit config := by
  constructor
  · rintro ⟨⟨settings, loaded⟩, -⟩
    obtain ⟨config, faultless⟩ := faultless_of_settings loaded
    exact ⟨config, faultless, (settings_of_faultless_iff faultless).1.mpr ⟨settings, loaded⟩⟩
  · rintro ⟨config, faultless, fit⟩
    exact ⟨(settings_of_faultless_iff faultless).1.mp fit, pairs_of_faultless faultless⟩

def Overlooks (loader : Loader) : Prop := ∃ config, Faultless loader config ∧ ¬ AllFit config

/-- Whatever the file is: what can be loaded passes the check, and both agree unless the check
overlooks a section that cannot be built. Then it ends with code zero all the same, and the settings
are refused as bad configuration, although the pairs can be loaded. -/
theorem check_agrees_iff (loader : Loader) :
    (Loads loader → Passes loader) ∧
    ((Passes loader ↔ Loads loader) ↔ ¬ Overlooks loader) ∧
    (Overlooks loader → Passes loader ∧ (∃ pairs, loader.pairs .null = .ok pairs) ∧
      ∃ failure, loader.settings .null = .error failure ∧ IsReport failure) := by
  have stricter : Loads loader → Passes loader := by
    rw [loads_iff, passes_iff]
    exact Exists.imp fun _ => And.left
  have overlooked (overlooks : Overlooks loader) : Passes loader ∧ ¬ Loads loader := by
    obtain ⟨config, faultless, unfit⟩ := overlooks
    refine ⟨passes_iff.mpr ⟨config, faultless⟩, fun loads => unfit ?_⟩
    exact (settings_of_faultless_iff faultless).1.mpr loads.1
  refine ⟨stricter, ⟨?_, ?_⟩, ?_⟩
  · intro agree overlooks
    exact (overlooked overlooks).2 (agree.mp (overlooked overlooks).1)
  · intro none
    refine ⟨fun passes => ?_, stricter⟩
    obtain ⟨config, faultless⟩ := passes_iff.mp passes
    refine loads_iff.mpr ⟨config, faultless, ?_⟩
    by_contra unfit
    exact none ⟨config, faultless, unfit⟩
  · intro overlooks
    obtain ⟨config, faultless, unfit⟩ := overlooks
    refine ⟨passes_iff.mpr ⟨config, faultless⟩, pairs_of_faultless faultless, ?_⟩
    obtain ⟨loaded, reported⟩ := settings_of_faultless_iff faultless
    cases settings : loader.settings .null with
    | ok found => exact absurd (loaded.mpr ⟨found, settings⟩) unfit
    | error failure => exact ⟨failure, rfl, reported failure settings⟩

/-! ### A misspelled name -/

/-- A directory whose file gives a limit of the quotes under a name that they do not have. -/
def misspelled : Loader where
  files := { entries := [(["spread.yaml"], .file "quotes:\n  max_age: 5\n")] }
  directory := .ofText ""

def misspelledEntries : Entries := [(.text "quotes", .ofFields [("max_age", .int 5)])]

def isMisspelled : Entries → Bool
  | [(.text place, .dict [(.text name, .int limit)])] =>
      place == "quotes" && name == "max_age" && limit == 5
  | _ => false

theorem misspelled_file : misspelled.fileEntries = .ok misspelledEntries := by
  have read : misspelled.fileEntries.toOption.any isMisspelled = true := by
    decide +kernel
  refine ok_of_test read fun entries written => ?_
  unfold isMisspelled at written
  split at written
  · simp only [Bool.and_eq_true, beq_iff_eq] at written
    obtain ⟨⟨rfl, rfl⟩, rfl⟩ := written
    rfl
  · cases written

def misspelledConfig : Entries :=
  Entries.insert Settings.default.toEntries (.text "quotes")
    (.ofFields (windowFields defaultWindow ++ [("max_age", .int 5)]))

theorem misspelled_merged : misspelled.merged .null = .ok misspelledConfig := by
  rw [Loader.merged, misspelled_file]
  simp [misspelledEntries, misspelledConfig, Value.ofFields, Value.isTruthy, Value.entries?,
    Value.opened, merge, Settings.toEntries, Settings.default, windowFields, Entries.find?,
    Entries.insert, Value.sameKey, bind, Except.bind, pure, Except.pure]

theorem misspelled_faultless : Faultless misspelled misspelledConfig :=
  ⟨misspelled_merged, ok_nil_of_length (by decide +kernel)⟩

/-- The check does not know the name, so it calls the configuration valid. -/
theorem misspelled_passes_only :
    check misspelled = .ok {
      lines := ["Validating spread.yaml...", "Configuration is valid, 0 trade combinations:"]
      exitCode := 0 } ∧
    misspelled.settings .null = .error (refused ("Invalid configuration: " ++
      "QuoteParams.__init__() got an unexpected keyword argument 'max_age'") []) ∧
    ¬ (Passes misspelled ↔ Loads misspelled) := by
  have checked : check misspelled = .ok {
      lines := ["Validating spread.yaml...", "Configuration is valid, 0 trade combinations:"]
      exitCode := 0 } := by
    rw [check, misspelled_merged]
    simp only [bind, Except.bind, misspelled_faultless.checked]
    rw [Loader.pairs, misspelled_merged]
    rfl
  have refused : misspelled.settings .null = .error (refused ("Invalid configuration: " ++
      "QuoteParams.__init__() got an unexpected keyword argument 'max_age'") []) := by
    rw [settings_of_faultless misspelled_faultless]
    rfl
  refine ⟨checked, refused, fun agree => ?_⟩
  obtain ⟨⟨settings, loaded⟩, -⟩ := agree.mp ⟨_, checked, rfl⟩
  cases refused.symm.trans loaded

end SpreadWatch.Config
