import SpreadWatch.Proofs.Config.Accepted
import SpreadWatch.Proofs.Config.Agreement
import SpreadWatch.Proofs.Config.Layers

/-!
Settings that are laid over the overrides they came from. What is loaded then, from the same file,
are the same settings: each section has the names it had, under every name the value that was
loaded, and the checks find no more fault with it than before.
-/

namespace SpreadWatch.Config

open Value

variable {loader : Loader} {below given : Option Value}
  {config base override upper entries : Entries} {settings : Settings} {names : List String}
  {fields : List (String × Value)} {key value : Value}

/-! ### The names in a section -/

def Named (names : List String) (entries : Entries) : Prop :=
  ∀ entry ∈ entries, ∃ name ∈ names, entry.1 = .text name

theorem Named.keyed (named : Named names entries) : entries.Keyed := by
  intro entry member
  obtain ⟨name, -, same⟩ := named entry member
  rw [same]
  trivial

theorem named_insert_iff : Named names (entries.insert key value) ↔
    Named names entries ∧ ∃ name ∈ names, key = .text name := by
  induction entries with
  | nil => simp [Named, Entries.insert]
  | cons entry rest induction =>
      obtain ⟨known, old⟩ := entry
      simp only [Named, List.forall_mem_cons, and_assoc] at induction ⊢
      rw [Entries.insert]
      split_ifs with here
      · rw [List.forall_mem_cons]
        refine and_congr_right ?_
        rintro ⟨name, among, rfl⟩
        have same := text_same_key_iff.mp here
        exact (and_iff_left ⟨name, among, same⟩).symm
      · rw [List.forall_mem_cons, induction]

theorem named_merge_iff :
    Named names (merge base override) ↔ Named names base ∧ Named names override := by
  induction override generalizing base with
  | nil => simp [merge_nil, Named]
  | cons entry rest induction =>
      obtain ⟨key, value⟩ := entry
      rw [merge_cons, induction, named_insert_iff, and_assoc]
      simp only [Named, List.forall_mem_cons]

/-- Of two layers that are a section together, each has its names only. -/
theorem named_of_fits (above : NestedBelow Plain given)
    (fits : Fits names ((layered below given).getD (.dict []))) :
    Named names (within below) ∧ Named names (within given) := by
  obtain ⟨entries, mapping, named⟩ := fits
  rw [entries_of_layered above mapping] at named
  exact named_merge_iff.mp named

def entriesOf (fields : List (String × Value)) : Entries :=
  fields.map fun (name, value) => (.text name, value)

theorem named_entries_of (fields : List (String × Value)) :
    Named (fields.map (·.1)) (entriesOf fields) := by
  intro entry member
  obtain ⟨field, listed, rfl⟩ := List.mem_map.mp member
  exact ⟨field.1, List.mem_map_of_mem listed, rfl⟩

theorem get_entries_of (distinct : (entriesOf fields).Distinct) :
    ∀ field ∈ fields, (entriesOf fields).get? field.1 = some field.2 := fun _ member =>
  distinct.find_member (named_entries_of fields).keyed (List.mem_map_of_mem member)
    (by simp [sameKey])

structure HasFields (entries : Entries) (fields : List (String × Value)) : Prop where
  named : Named (fields.map (·.1)) entries
  held : ∀ field ∈ fields, entries.get? field.1 = some field.2

/-- A section that is written out and laid over both its layers again has its names only, and under
each of them the value that both layers leave as it is. -/
theorem section_relaid (above : NestedBelow Plain given)
    (fits : Fits (fields.map (·.1)) ((layered below given).getD (.dict [])))
    (distinct : (entriesOf fields).Distinct)
    (kept : ∀ field ∈ fields, laid ((within below).get? field.1)
      (laid ((within given).get? field.1) field.2) = field.2) :
    ∃ entries, laid below (laid given (.ofFields fields)) = .dict entries ∧
      HasFields entries fields := by
  obtain ⟨namedBelow, namedGiven⟩ := named_of_fits above fits
  have named := named_merge_iff.mpr ⟨namedGiven, named_entries_of fields⟩
  have distinctGiven : (merge (within given) (entriesOf fields)).Distinct :=
    merge_distinct above.within.distinct
  refine ⟨merge (within below) (merge (within given) (entriesOf fields)), ?_,
    named_merge_iff.mpr ⟨namedBelow, named⟩, fun field member => ?_⟩
  · rw [← laid_dict distinctGiven, ← laid_dict distinct]
    rfl
  · rw [get_layered namedBelow.keyed named.keyed distinctGiven,
      get_layered namedGiven.keyed (named_entries_of fields).keyed distinct,
      get_entries_of distinct field member]
    exact congrArg some (kept field member)

/-! ### Settings written out -/

def Settings.sections (settings : Settings) : List (String × List (String × Value)) :=
  [("quotes", windowFields settings.quotes), ("fees", feeFields settings.fees),
    ("summary", summaryFields settings.summary), ("logging", loggingFields settings.logging)]

theorem entries_of_sections (settings : Settings) : settings.toEntries =
    entriesOf (settings.sections.map fun (place, fields) => (place, .ofFields fields)) := rfl

theorem section_names_eq (settings : Settings) :
    sectionNames = settings.sections.map fun (place, fields) => (place, fields.map (·.1)) := rfl

theorem leaf_of_check_fee {field : Except Failure String}
    (checked : checkFee field value = .ok []) : value.entries? = none := by
  obtain ⟨fraction, found, rest⟩ := bind_eq_ok checked
  cases fraction with
  | none =>
      obtain ⟨_, -, named⟩ := bind_eq_ok rest
      cases named
  | some fee => cases value <;> first | rfl | cases found

theorem leaf_of_bool (accepted : isBool value = true) : value.entries? = none := by
  cases value <;> first | rfl | cases accepted

/-- All fields that the checks let pass are leaves, but the mapping of the fees of their own. -/
theorem Settings.Checked.leaves (checked : settings.Checked) :
    ∀ known ∈ settings.sections, ∀ field ∈ known.2, field.2.entries? = none ∨
      known.1 = "fees" ∧ field = ("fee_overrides", settings.fees.overrides) := by
  obtain ⟨age, ageGiven⟩ := int_of_bound checked.age
  obtain ⟨skew, skewGiven⟩ := int_of_bound checked.skew
  obtain ⟨time, _, timeGiven, -⟩ := time_of_check checked.time
  obtain ⟨zone, _, zoneGiven, -⟩ := zone_of_check checked.zone
  obtain ⟨level, levelGiven, -⟩ := level_of_check checked.level
  simp only [Settings.sections, windowFields, feeFields, summaryFields, loggingFields,
    List.forall_mem_cons, ageGiven, skewGiven, timeGiven, zoneGiven, levelGiven,
    leaf_of_check_fee checked.defaultFee, leaf_of_bool checked.enabled,
    leaf_of_bool checked.format, leaf_of_bool checked.stamp]
  simp [entries?, opened]

theorem Settings.Checked.overrides_leaves (checked : settings.Checked) :
    ∀ own, settings.fees.overrides.entries? = some own →
      ∀ entry ∈ own, entry.2.entries? = none := by
  obtain ⟨own, known, ownChecked⟩ := checked.overrides
  rintro other again entry member
  cases known.symm.trans again
  obtain ⟨field, feeChecked⟩ := checks_of_fees ownChecked entry member
  exact leaf_of_check_fee feeChecked

theorem Settings.Checked.nested (checked : settings.Checked)
    (fees : settings.fees.overrides.Nested Proper) :
    ∀ known ∈ settings.sections, (Value.ofFields known.2).Nested Proper := by
  intro known member
  refine nested_of_fields ?_ fun field inside => ?_
  · have names : ∀ known ∈ sectionNames, known.2.Nodup := by decide
    rw [section_names_eq settings] at names
    exact names _ (List.mem_map_of_mem member)
  · rcases checked.leaves known member field inside with leaf | ⟨-, rfl⟩
    · exact .leaf leaf
    · exact fees

theorem Settings.Checked.entries_nested (checked : settings.Checked)
    (fees : settings.fees.overrides.Nested Proper) :
    (Value.dict settings.toEntries).Nested Proper := by
  have places : ((settings.sections.map fun (place, fields) =>
      (place, Value.ofFields fields)).map (·.1)).Nodup :=
    (by decide : (sectionNames.map (·.1)).Nodup)
  refine nested_of_fields places ?_
  rw [List.forall_mem_map]
  exact checked.nested fees

theorem HasFields.values (has : HasFields entries fields) (own : "self" ∉ fields.map (·.1))
    (kind : String) : namedValues kind (fields.map (·.1)) (.dict entries) = .ok entries := by
  cases values : namedValues kind (fields.map (·.1)) (.dict entries) with
  | error failure =>
      have unfit := (failing_named_values own).mp ⟨failure, values⟩
      exact absurd ((fits_of_entries rfl).mpr has.named) unfit
  | ok found =>
      cases named_values_mapping values
      rfl

theorem HasFields.window {window : Freshness.Window}
    (has : HasFields entries (windowFields window)) : windowOf (.dict entries) = .ok window := by
  have values := has.values (by simp [windowFields]) "QuoteParams"
  have held := has.held
  simp only [windowFields, List.forall_mem_cons, List.map_cons, List.map_nil] at values held
  simp [windowOf, values, valueOr, held, bind, Except.bind, pure, Except.pure]

theorem HasFields.fees {fees : FeeParams} (has : HasFields entries (feeFields fees)) :
    feesOf (.dict entries) = .ok fees := by
  have values := has.values (by simp [feeFields]) "FeeParams"
  have held := has.held
  simp only [feeFields, List.forall_mem_cons, List.map_cons, List.map_nil] at values held
  simp [feesOf, values, valueOr, held, bind, Except.bind, pure, Except.pure]

theorem HasFields.summary {summary : SummaryParams}
    (has : HasFields entries (summaryFields summary)) :
    summaryOf (.dict entries) = .ok summary := by
  have values := has.values (by simp [summaryFields]) "SummaryParams"
  have held := has.held
  simp only [summaryFields, List.forall_mem_cons, List.map_cons, List.map_nil] at values held
  simp [summaryOf, values, valueOr, held, bind, Except.bind, pure, Except.pure]

theorem HasFields.logging {logging : LoggingParams}
    (has : HasFields entries (loggingFields logging)) :
    loggingOf (.dict entries) = .ok logging := by
  have values := has.values (by simp [loggingFields]) "LoggingParams"
  have held := has.held
  simp only [loggingFields, List.forall_mem_cons, List.map_cons, List.map_nil] at values held
  simp [loggingOf, values, valueOr, held, bind, Except.bind, pure, Except.pure]

def Shows (config : Entries) (settings : Settings) : Prop :=
  ∀ known ∈ settings.sections, ∃ entries, config.get? known.1 = some (.dict entries) ∧
    HasFields entries known.2

theorem Shows.built (shows : Shows config settings) :
    Settings.ofEntries config = .ok settings := by
  simp only [Shows, Settings.sections, List.forall_mem_cons] at shows
  obtain ⟨⟨quotes, quotesGiven, quotesHeld⟩, ⟨fees, feesGiven, feesHeld⟩,
    ⟨summary, summaryGiven, summaryHeld⟩, ⟨logging, loggingGiven, loggingHeld⟩, -⟩ := shows
  simp only [Settings.ofEntries, valueOr, quotesGiven, feesGiven, summaryGiven, loggingGiven,
    Option.getD_some, quotesHeld.window, feesHeld.fees, summaryHeld.summary, loggingHeld.logging]
  rfl

theorem check_member_dict (entries : Entries) (name : String)
    (check : Value → Except Failure (List Finding)) :
    checkMember name (.dict entries) check =
      match Entries.get? entries name with
      | some value => check value
      | none => .ok [] :=
  check_member_of_entries rfl name check

/-- Settings that have passed the checks pass them again where they are shown. -/
theorem Shows.checked (shows : Shows config settings) (checked : settings.Checked)
    (combinations : checkMember "trade_combinations" (.dict config)
      (fun value => return checkCombinations value) = .ok []) :
    checkAll (.dict config) = .ok [] := by
  simp only [Shows, Settings.sections, List.forall_mem_cons] at shows
  obtain ⟨⟨quotes, quotesGiven, -, quotesHeld⟩, ⟨fees, feesGiven, -, feesHeld⟩,
    ⟨summary, summaryGiven, -, summaryHeld⟩, ⟨logging, loggingGiven, -, loggingHeld⟩, -⟩ := shows
  simp only [windowFields, feeFields, summaryFields, loggingFields, List.forall_mem_cons]
    at quotesHeld feesHeld summaryHeld loggingHeld
  have quotesChecked : checkQuotes (.dict quotes) = .ok [] := by
    simp [checkQuotes, check_member_dict, quotesHeld, findingUnless, checked.age, checked.skew]
    rfl
  have feesChecked : checkFees (.dict fees) = .ok [] := by
    obtain ⟨entries, overriding, othersChecked⟩ := checked.overrides
    simp [checkFees, check_member_dict, feesHeld, checked.defaultFee, memberOr, entries_of_dict,
      overriding, othersChecked, bind, Except.bind]
    rfl
  have summaryChecked : checkSummary (.dict summary) = .ok [] := by
    simp [checkSummary, check_member_dict, summaryHeld, findingUnless, checked.enabled,
      checked.time, checked.zone]
  have loggingChecked : checkLogging (.dict logging) = .ok [] := by
    simp [checkLogging, check_member_dict, loggingHeld, findingUnless, checked.level,
      checked.format, checked.stamp]
    rfl
  rw [checkAll, combinations]
  simp only [check_member_dict, quotesGiven, feesGiven, summaryGiven, loggingGiven,
    quotesChecked, feesChecked, summaryChecked, loggingChecked]
  rfl

/-! ### Settings laid back -/

theorem fits_of_built (built : Settings.ofEntries config = .ok settings) :
    ∀ known ∈ settings.sections,
      Fits (known.2.map (·.1)) ((config.get? known.1).getD (.dict [])) := by
  have fit : AllFit config := by
    by_contra unfit
    obtain ⟨failure, failed⟩ := failing_settings_of_entries.mpr unfit
    cases failed.symm.trans built
  rw [all_fit_iff, section_names_eq settings, List.forall_mem_map] at fit
  exact fit

theorem overrides_of_built (built : Settings.ofEntries config = .ok settings) :
    ∃ entries, ((config.get? "fees").getD (.dict [])).entries? = some entries ∧
      settings.fees.overrides = (Entries.get? entries "fee_overrides").getD (.dict []) := by
  obtain ⟨window, -, afterWindow⟩ := bind_eq_ok built
  obtain ⟨params, paramsBuilt, afterParams⟩ := bind_eq_ok afterWindow
  obtain ⟨report, -, afterReport⟩ := bind_eq_ok afterParams
  obtain ⟨log, -, same⟩ := bind_eq_ok afterReport
  obtain ⟨entries, named, sameFees⟩ := bind_eq_ok paramsBuilt
  cases same
  cases sameFees
  exact ⟨entries, named_values_mapping named, rfl⟩

section Relaid

variable (keyed : base.Keyed) (nested : (Value.dict upper).Nested Plain)
  (built : Settings.ofEntries (merge base upper) = .ok settings) (checked : settings.Checked)
  (fees : settings.fees.overrides.Nested Proper)

include keyed nested built

theorem fits_layered : ∀ known ∈ settings.sections, Fits (known.2.map (·.1))
    ((layered (base.get? known.1) (upper.get? known.1)).getD (.dict [])) := by
  intro known member
  rw [← get_layered keyed nested.keys nested.distinct]
  exact fits_of_built built known member

/-- The fees of their own come of two layers as the whole configuration does. -/
theorem overrides_layered : settings.fees.overrides =
    (layered ((within (base.get? "fees")).get? "fee_overrides")
      ((within (upper.get? "fees")).get? "fee_overrides")).getD (.dict []) := by
  have above : NestedBelow Plain (upper.get? "fees") := fun _ found => nested.found found
  have fits := fits_layered keyed nested built ("fees", feeFields settings.fees)
    (by simp [Settings.sections])
  obtain ⟨entries, mapping, overriding⟩ := overrides_of_built built
  rw [get_layered keyed nested.keys nested.distinct] at mapping
  rwa [entries_of_layered above mapping, get_layered (named_of_fits above fits).1.keyed
    above.within.keys above.within.distinct] at overriding

include checked fees

/-- Both layers of the fees of their own leave these as they are. -/
theorem overrides_kept :
    laid ((within (base.get? "fees")).get? "fee_overrides")
      (laid ((within (upper.get? "fees")).get? "fee_overrides") settings.fees.overrides) =
      settings.fees.overrides := by
  have above : NestedBelow Plain (upper.get? "fees") := fun _ found => nested.found found
  refine laid_back (fun _ found => above.within.found found)
    (overrides_layered keyed nested built) fees ?_
  exact checked.overrides_leaves

/-- Laid over both layers of the configuration they came from, settings are shown again. -/
theorem relaid_shows : Shows (merge base (merge upper settings.toEntries)) settings := by
  have written := checked.entries_nested fees
  intro known member
  have above : NestedBelow Plain (upper.get? known.1) := fun _ found => nested.found found
  have kept : ∀ field ∈ known.2, laid ((within (base.get? known.1)).get? field.1)
      (laid ((within (upper.get? known.1)).get? field.1) field.2) = field.2 := by
    intro field inside
    rcases checked.leaves known member field inside with leaf | ⟨inFees, rfl⟩
    · rw [laid_leaf leaf, laid_leaf leaf]
    · rw [inFees]
      exact overrides_kept keyed nested built checked fees
  obtain ⟨entries, same, has⟩ := section_relaid above (fits_layered keyed nested built known member)
    (checked.nested fees known member).distinct kept
  have given : settings.toEntries.get? known.1 = some (.ofFields known.2) := by
    have distinct := written.distinct
    rw [entries_of_sections] at distinct ⊢
    exact get_entries_of distinct (known.1, .ofFields known.2) (List.mem_map_of_mem member)
  refine ⟨entries, ?_, has⟩
  rw [get_relaid keyed nested written.plain, given]
  exact congrArg some same

end Relaid

/-! ### The fees of their own -/

/-- Where the file and the defaults have a knot of a mapping for fees of their own, this holds
itself. -/
theorem knotted_fees {file : Entries} {label : ℕ} (keyed : (Value.dict file).WellKeyed Plain)
    (knot : (within ((merge Settings.default.toEntries file).get? "fees")).get? "fee_overrides" =
      some (.knot label (.dict entries))) :
    Entries.get? (fillEntries label (.knot label (.dict entries)) entries) "fee_overrides" =
      some (.knot label (.dict entries)) := by
  have tiers : (merge Settings.default.toEntries file).get? "fees" =
      layered (some (.dict (entriesOf (feeFields {})))) (file.get? "fees") :=
    get_layered default_nested.plain.keys keyed.inside.1 keyed.inside.2.1 "fees"
  have inner {own : Entries} (ownKeyed : (Value.dict own).WellKeyed Plain) :
      (merge (entriesOf (feeFields {})) own).get? "fee_overrides" =
        layered (some (.dict [])) (own.get? "fee_overrides") :=
    get_layered (named_entries_of _).keyed ownKeyed.inside.1 ownKeyed.inside.2.1 "fee_overrides"
  rw [tiers] at knot
  cases given : file.get? "fees" with
  | none =>
      rw [given] at knot
      cases knot
  | some part =>
      rw [given, layered] at knot
      cases keyed.found given with
      | leaf leaf =>
          rw [laid_leaf leaf, within, Option.bind_some, leaf] at knot
          cases knot
      | @mapping own keys distinct values =>
          have came := inner (.mapping keys distinct values)
          rw [laid_over_mapping] at knot
          rcases layered_over_mapping (came.symm.trans knot) with ⟨_, mapping⟩ | ⟨-, unknotted⟩
          · cases mapping
          · exact absurd rfl (unknotted _ _)
      | @knot tied own body =>
          have came := inner body
          rw [laid_knot rfl, fill] at knot
          have filled := (get_filled _ _ _ _).symm.trans knot
          obtain ⟨value, has, knotted⟩ := Option.map_eq_some_iff.mp filled
          rcases knot_of_filled knotted with ⟨rfl, same⟩ | ⟨old, rfl⟩
          · cases same
            rcases layered_over_mapping (came.symm.trans has) with ⟨_, mapping⟩ | ⟨back, -⟩
            · cases mapping
            · rw [get_filled, back, Option.map_some, fill, if_pos rfl]
          · rcases layered_over_mapping (came.symm.trans has) with ⟨_, mapping⟩ | ⟨-, unknotted⟩
            · cases mapping
            · exact absurd rfl (unknotted _ _)

/-- Every fee of its own is found again under its key; under a NaN nothing is. -/
def Settings.FeesFound (settings : Settings) : Prop :=
  ∀ own, settings.fees.overrides.entries? = some own →
    ∀ entry ∈ own, entry.1.sameKey entry.1 = true

/-- Fees of their own with which the checks find no fault are written as a mapping of leaves. -/
theorem overrides_nested {file : Entries} (keyed : (Value.dict file).WellKeyed Plain)
    (nested : (Value.dict upper).Nested Plain)
    (built :
      Settings.ofEntries (merge (merge Settings.default.toEntries file) upper) = .ok settings)
    (checked : settings.Checked) (found : settings.FeesFound) :
    settings.fees.overrides.Nested Proper := by
  have lower := well_keyed_merge default_nested.plain.well_keyed keyed
  have whole := well_keyed_merge lower nested.well_keyed
  have layers := overrides_layered lower.inside.1 nested built
  obtain ⟨entries, mapping, overriding⟩ := overrides_of_built built
  have ownKeyed : settings.fees.overrides.WellKeyed Plain := by
    rw [overriding]
    exact ((whole.member "fees").of_entries mapping).member "fee_overrides"
  obtain ⟨own, known, -⟩ := checked.overrides
  have leaves := checked.overrides_leaves own known
  have foundOwn := found own known
  generalize settings.fees.overrides = value at *
  cases ownKeyed with
  | leaf leaf => cases leaf.symm.trans known
  | mapping keys distinct values =>
      cases known
      exact .mapping (fun entry member => ⟨keys entry member, foundOwn entry member⟩) distinct
        fun entry member => .leaf (leaves entry member)
  | @knot label inside body =>
      -- a knot can only come from the file, and there it holds itself, which is no fee
      have above : NestedBelow Plain (upper.get? "fees") := fun _ found => nested.found found
      have lowest := knot_of_layered (fun _ found => above.within.found found) layers.symm
      obtain ⟨entry, first, itself⟩ := Option.map_eq_some_iff.mp (knotted_fees keyed lowest)
      rw [entries_of_knot] at known
      cases known
      have leaf := leaves entry (List.mem_of_find?_eq_some first)
      rw [itself, entries_of_knot] at leaf
      cases leaf

section FixedPoint

variable {overrides : Option Entries} (nested : (Value.dict (overrides.getD [])).Nested Plain)
  (accepted : loader.settings (.ofOption .dict overrides) = .ok settings)

include nested accepted

theorem accepted_overrides_nested (found : settings.FeesFound) :
    settings.fees.overrides.Nested Proper := by
  obtain ⟨config, merged, checkedAll, built⟩ := accepted_iff.mp accepted
  obtain ⟨file, read, -⟩ := bind_eq_ok merged
  cases merged.symm.trans (merged_eq read overrides)
  exact overrides_nested (file_keyed read) nested built (checked_of_built checkedAll built) found

/-- Accepted settings, laid over the overrides they came with, are accepted again. -/
theorem settings_relaid (fees : settings.fees.overrides.Nested Proper) :
    loader.settings (.dict (merge (overrides.getD []) settings.toEntries)) = .ok settings ∧
      (Value.dict (merge (overrides.getD []) settings.toEntries)).Nested Plain := by
  obtain ⟨config, merged, checkedAll, built⟩ := accepted_iff.mp accepted
  obtain ⟨file, read, -⟩ := bind_eq_ok merged
  have tiers := merged_eq read
  cases merged.symm.trans (tiers overrides)
  have keyed : (merge Settings.default.toEntries file).Keyed :=
    merge_keyed default_nested.plain.keys (file_keyed read).inside.1
  have checked := checked_of_built checkedAll built
  have written := checked.entries_nested fees
  have shows := relaid_shows keyed nested built checked fees
  obtain ⟨-, -, -, -, combinations⟩ := checks_of_all checkedAll
  have same : (merge (merge Settings.default.toEntries file)
      (merge (overrides.getD []) settings.toEntries)).get? "trade_combinations" =
      (merge (merge Settings.default.toEntries file) (overrides.getD [])).get?
        "trade_combinations" := by
    rw [get_relaid keyed nested written.plain, get_layered keyed nested.keys nested.distinct]
    rfl
  rw [check_member_dict, ← same, ← check_member_dict] at combinations
  exact ⟨accepted_iff.mpr ⟨_, tiers (some _), shows.checked checked combinations, shows.built⟩,
    nested_merge nested written.plain⟩

/-- Whatever the file is: where a configuration is accepted, the same file with the settings laid
over the overrides is accepted with the same settings, and so is every further reading with the
settings laid over the overrides once more. -/
theorem effective_fixed_point (found : settings.FeesFound) (n : ℕ) :
    loader.settings (.dict
      ((fun upper => merge upper settings.toEntries)^[n + 1] (overrides.getD []))) =
      .ok settings := by
  have fees := accepted_overrides_nested nested accepted found
  suffices kept : ∀ n, ∀ upper,
      (fun upper => merge upper settings.toEntries)^[n + 1] (overrides.getD []) = upper →
      loader.settings (.dict upper) = .ok settings ∧ (Value.dict upper).Nested Plain from
    (kept n _ rfl).1
  rintro n _ rfl
  induction n with
  | zero => exact settings_relaid nested accepted fees
  | succ n induction =>
      obtain ⟨again, nestedAgain⟩ := induction
      rw [Function.iterate_succ_apply']
      exact settings_relaid (show (Value.dict ((some _).getD [])).Nested Plain from nestedAgain)
        again fees

end FixedPoint

def krakenSettings : Settings where
  quotes := { maxAge := .int 5, maxSkew := .int 30 }
  fees := {
    defaultFee := .text "0.001"
    overrides := .ofFields [("kraken", .text "0.0026")] }
  summary := {}
  logging := {}

theorem kraken_accepted :
    krakenLoader.settings (.ofOption .dict (some shorterAge)) = .ok krakenSettings := by
  have merged : krakenLoader.merged (.ofOption .dict (some shorterAge)) =
      .ok krakenSettings.toEntries := by
    rw [merged_eq kraken_file]
    simp [krakenFile, shorterAge, krakenSettings, ofFields, merge, Settings.toEntries,
      Settings.default, windowFields, feeFields, defaultWindow, entries?, opened, Entries.find?,
      Entries.insert, sameKey]
    exact merge_into_nothing (List.pairwise_singleton _ _)
  exact accepted_iff.mpr ⟨_, merged, ok_nil_of_length (by decide +kernel), rfl⟩

theorem kraken_settings_kept :
    krakenLoader.settings (.ofOption .dict (some shorterAge)) = .ok krakenSettings ∧
    krakenLoader.settings (.dict
      (merge (merge shorterAge krakenSettings.toEntries) krakenSettings.toEntries)) =
      .ok krakenSettings := by
  have given : (Value.dict ((some shorterAge).getD [])).Nested Plain := shorter_age_nested.plain
  have found : krakenSettings.FeesFound := by
    rintro own ⟨⟩ entry member
    obtain rfl := List.mem_singleton.mp member
    rfl
  exact ⟨kraken_accepted, effective_fixed_point given kraken_accepted found 1⟩

end SpreadWatch.Config
