import SpreadWatch.Log.Setup
import SpreadWatch.Proofs.Config.Section
import SpreadWatch.Proofs.Desk.Fees
import SpreadWatch.Proofs.Freshness
import SpreadWatch.Proofs.Spread.Exact
import SpreadWatch.Proofs.Value.ForeignText
import SpreadWatch.Report.Reporter

/-!
Configurations that are accepted. The checks look at texts of values where the application later
takes the values themselves, and they look at given values only, not at defaults. All the same,
settings that come out of a configuration that is accepted can be used: fees are fractions, the
window has whole limits, the time of day and the zone are texts that can be read, and the level of
the log is known.
-/

namespace SpreadWatch

open SpreadWatch.Action

namespace Config

variable {loader : Loader} {overrides : Value} {settings : Settings}

def IsFee (value : Value) : Prop :=
  ∃ fee, value.toDecimalByText = .ok fee ∧ isFraction fee = true

structure Settings.Sound (settings : Settings) : Prop where
  quotes : settings.quotes.Whole
  defaultFee : IsFee settings.fees.defaultFee
  overrides : ∃ entries : Entries, settings.fees.overrides.entries? = some entries ∧
    ∀ entry ∈ entries, IsFee entry.2
  time : ∃ word time, settings.summary.reportTime = .text word ∧
    Report.TimeOfDay.ofText word = .ok time
  zone : ∃ word zone, settings.summary.timezone = .text word ∧
    Calendar.zoneNamed word = .ok zone
  level : ∃ word, settings.logging.level = .text word ∧
    levelNames.contains (Text.capitals word) = true

/-! ### Fees -/

theorem fee_of_fraction {value : Value} {fee : Decimal}
    (fraction : feeFraction? value = .ok (some fee)) : IsFee value := by
  unfold feeFraction? at fraction
  split at fraction
  case h_5 => cases fraction
  all_goals
    unfold IsFee Value.toDecimalByText
    cases written : Value.written _ with
    | error failure =>
        rw [written] at fraction
        cases fraction
    | ok text =>
        rw [written] at fraction
        have filtered : (Decimal.ofText text).toOption.filter isFraction = some fee :=
          Except.ok.inj fraction
        obtain ⟨read, inside⟩ := Option.filter_eq_some_iff.mp filtered
        refine ⟨fee, ?_, inside⟩
        cases readText : Decimal.ofText text with
        | error signal =>
            rw [readText] at read
            cases read
        | ok number =>
            rw [readText] at read
            cases read
            simp only [bind, Except.bind, readText]
            rfl

theorem fee_of_check {field : Except Failure String} {value : Value}
    (checked : checkFee field value = .ok []) : IsFee value := by
  obtain ⟨fraction, found, rest⟩ := bind_eq_ok checked
  cases fraction with
  | some fee => exact fee_of_fraction found
  | none =>
      obtain ⟨_, -, named⟩ := bind_eq_ok rest
      cases named

theorem checks_of_fees {entries : Entries} (checked : checkFeeEntries entries = .ok []) :
    ∀ entry ∈ entries, ∃ field, checkFee field entry.2 = .ok [] := by
  induction entries with
  | nil => simp
  | cons entry rest induction =>
      obtain ⟨exchange, fee⟩ := entry
      obtain ⟨first, firstChecked, afterFirst⟩ := bind_eq_ok checked
      obtain ⟨others, othersChecked, both⟩ := bind_eq_ok afterFirst
      obtain ⟨rfl, rfl⟩ := List.append_eq_nil_iff.mp (Except.ok.inj both)
      exact List.forall_mem_cons.mpr ⟨⟨_, firstChecked⟩, induction othersChecked⟩

theorem charged_of_fraction {fee : Decimal} (fraction : isFraction fee = true) :
    Spread.Charged fee := by
  simp only [isFraction, Bool.and_eq_true] at fraction
  obtain ⟨⟨finite, nonneg⟩, below⟩ := fraction
  cases fee with
  | finite negative coefficient exponent =>
      have zero : Decimal.zero = .finite false 0 0 := rfl
      have one : Decimal.one = .finite false 1 0 := rfl
      rw [zero, Decimal.compare_finite_eq, ← zero, Decimal.to_rat_zero] at nonneg
      rw [one, Decimal.compare_finite_eq, ← one, Decimal.to_rat_one] at below
      refine ⟨rfl, ?_, ?_⟩
      · by_contra negative
        rw [not_le] at negative
        simp [negative.cmp_eq_lt] at nonneg
      · simpa [cmp_eq_lt_iff] using below
  | infinite => cases finite
  | nan => cases finite

/-- Any source with configured fees only, whatever is in its cache, gets a fee from them. -/
theorem Settings.Sound.fetch (sound : settings.Sound) {source : FeeSource}
    (params : source.params = settings.fees) (fetcher : source.fetcher = none)
    (request : FeeRequest) :
    ∃ fee, ((FeeSource.fetch request).ending source).1 = .ok (some fee) ∧ Spread.Charged fee := by
  obtain ⟨entries, mapping, fees⟩ := sound.overrides
  obtain ⟨value, replied, fee, converted, fraction⟩ : ∃ value,
      FeeSource.FeeParams.feeOf source.params request.exchange = .ok value ∧ IsFee value := by
    have replied : FeeSource.FeeParams.feeOf source.params request.exchange =
        .ok ((Entries.get? entries request.exchange).getD settings.fees.defaultFee) := by
      rw [params, FeeSource.FeeParams.feeOf, Value.memberOr, mapping]
    refine ⟨_, replied, ?_⟩
    unfold Entries.get? Entries.find?
    cases found : List.find? (fun entry : Value × Value =>
        entry.1.sameKey (.text request.exchange)) entries with
    | none => exact sound.defaultFee
    | some entry => exact fees entry (List.mem_of_find?_eq_some found)
  refine ⟨fee, ?_, charged_of_fraction fraction⟩
  rw [FeeSource.fetch_replies (FeeSource.replies_of_params fetcher), replied]
  have given : FeeSource.feeIn value = .ok (some fee) := by
    unfold FeeSource.feeIn
    split
    · cases converted
    · rw [converted]
      rfl
  exact given

/-! ### The report, the log and the quotes -/

theorem Settings.Sound.reporter (sound : settings.Sound) :
    ∃ reporter, Report.Reporter.ofParams settings.summary = .ok reporter := by
  obtain ⟨timeWord, time, timeGiven, timeRead⟩ := sound.time
  obtain ⟨zoneWord, zone, zoneGiven, zoneNamed⟩ := sound.zone
  refine ⟨{ time, zone := .named zone, enabled := settings.summary.enabled }, ?_⟩
  simp only [Report.Reporter.ofParams, timeGiven, zoneGiven, Report.TimeOfDay.ofValue, timeRead,
    Report.zoneOfValue, Report.zoneOf, zoneNamed, bind, Except.bind]
  rfl

theorem threshold_of_level {name : String} (known : levelNames.contains name = true) :
    ∃ threshold, Log.thresholdNamed? name = some threshold := by
  simp only [levelNames, List.contains_cons, List.contains_nil, Bool.or_false, Bool.or_eq_true,
    beq_iff_eq] at known
  rcases known with rfl | rfl | rfl | rfl | rfl
  · exact ⟨10, rfl⟩
  · exact ⟨20, rfl⟩
  · exact ⟨30, rfl⟩
  · exact ⟨40, rfl⟩
  · exact ⟨50, rfl⟩

theorem Settings.Sound.log (sound : settings.Sound) (setup : Log.Setup) :
    ∃ next, (Log.Setup.configure (.ofParams settings.logging)).ending setup = (.ok (), next) := by
  obtain ⟨word, given, known⟩ := sound.level
  obtain ⟨threshold, named⟩ := threshold_of_level known
  have level : Log.thresholdOf (Log.Options.ofParams settings.logging).level =
      .ok (.ok threshold) := by
    simp only [Log.Options.ofParams, given, Log.thresholdOf, named]
  obtain ⟨middle, chosen⟩ : ∃ middle,
      (Log.Setup.chooseThreshold (.ok threshold)).ending setup = (.ok (), middle) := by
    rw [Log.Setup.chooseThreshold, ending_bind_ok (ending_get setup)]
    cases set : setup.isSet <;> exact ⟨_, rfl⟩
  unfold Log.Setup.configure
  rw [level, ending_bind_ok (ending_lift _ _), ending_bind_ok chosen]
  exact ⟨_, rfl⟩

/-- Whatever the quote and the clock, if both their times have a reading in UTC. -/
theorem Settings.Sound.state (sound : settings.Sound) {book : QuoteBook}
    (window : book.window = settings.quotes) (quote : Option Quote) (reading : Calendar.Moment)
    (timely : ∀ given time, quote = some given → given.time = some time → time.toUtc? ≠ none)
    (readable : reading.toUtc? ≠ none) : ∃ state, book.stateOf quote (.ok reading) = .ok state := by
  unfold QuoteBook.stateOf
  split
  · rename_i ask bid time
    cases verdict : book.window.contains time (.ok reading) with
    | ok fresh => exact ⟨_, rfl⟩
    | error failure =>
        have undecided := (Freshness.contains_error_iff _ _ _).mp ⟨failure, verdict⟩
        rw [window] at undecided
        rcases Freshness.undecided_of_whole sound.quotes undecided with
          outside | ⟨_, stopped⟩ | ⟨other, same, outside⟩
        · exact absurd outside (timely _ time rfl rfl)
        · cases stopped
        · cases same
          exact absurd outside readable
  · exact ⟨_, rfl⟩
  · exact ⟨_, rfl⟩

/-! ### What the checks grant -/

theorem checked_window {part : Value} {window : Freshness.Window}
    (checked : checkQuotes part = .ok []) (built : windowOf part = .ok window) :
    isIntWhere (0 < ·) window.maxAge = true ∧ isIntWhere (0 ≤ ·) window.maxSkew = true := by
  obtain ⟨entries, named, same⟩ := bind_eq_ok built
  have mapping := named_values_mapping named
  obtain ⟨age, ageChecked, afterAge⟩ := bind_eq_ok checked
  obtain ⟨skew, skewChecked, both⟩ := bind_eq_ok afterAge
  obtain ⟨rfl, rfl⟩ := List.append_eq_nil_iff.mp (Except.ok.inj both)
  cases same
  exact ⟨value_or_accepted mapping ageChecked (by decide),
    value_or_accepted mapping skewChecked (by decide)⟩

theorem int_of_bound {bound : ℤ → Bool} {value : Value} (accepted : isIntWhere bound value = true) :
    ∃ i : ℤ, value = .int i := by
  cases value <;> first | exact ⟨_, rfl⟩ | cases accepted

theorem checked_fees {part : Value} {fees : FeeParams} (checked : checkFees part = .ok [])
    (built : feesOf part = .ok fees) : checkFee (.ok "default_fee") fees.defaultFee = .ok [] ∧
      ∃ entries : Entries, fees.overrides.entries? = some entries ∧
        checkFeeEntries entries = .ok [] := by
  obtain ⟨entries, named, same⟩ := bind_eq_ok built
  have mapping := named_values_mapping named
  obtain ⟨default, defaultChecked, afterDefault⟩ := bind_eq_ok checked
  obtain ⟨overrides, given, afterGiven⟩ := bind_eq_ok afterDefault
  have overridden : overrides = valueOr entries "fee_overrides" (.dict []) := by
    rw [Value.memberOr, mapping] at given
    exact (Except.ok.inj given).symm
  cases same
  cases overriding : overrides.entries? with
  | none =>
      rw [overriding] at afterGiven
      have findings := Except.ok.inj afterGiven
      simp [findingUnless] at findings
  | some fees =>
      rw [overriding] at afterGiven
      obtain ⟨others, othersChecked, both⟩ := bind_eq_ok afterGiven
      obtain ⟨rfl, rfl⟩ := List.append_eq_nil_iff.mp (Except.ok.inj both)
      rw [overridden] at overriding
      have standard : checkFee (.ok "default_fee") (.text "0.0020") = .ok [] :=
        ok_nil_of_length (by decide +kernel)
      exact ⟨value_or_of_check (fun fee => checkFee (.ok "default_fee") fee = .ok []) mapping
        defaultChecked (fun _ granted => granted) standard, fees, overriding, othersChecked⟩

/-- Only a text is taken for a time of day, although the check looks at the text of any value. -/
theorem time_of_check {value : Value} (checked : isReportTime value = .ok true) :
    ∃ word time, value = .text word ∧ Report.TimeOfDay.ofText word = .ok time := by
  obtain ⟨time, read⟩ : ∃ time, value.written.bind Report.TimeOfDay.ofText = .ok time := by
    unfold isReportTime at checked
    split at checked
    · rename_i time read
      exact ⟨time, read⟩
    · cases checked
    · cases checked
    · cases checked
  obtain ⟨text, written, spelled⟩ := bind_eq_ok read
  rcases value.text_or_foreign with ⟨word, rfl⟩ | foreign
  · cases written
    exact ⟨word, time, rfl, spelled⟩
  · rw [Value.written] at written
    split_ifs at written
    cases written
    obtain ⟨failure, refused⟩ := Report.time_of_foreign foreign
    rw [refused] at spelled
    cases spelled

theorem zone_of_check {value : Value} (checked : isZoneName value = true) :
    ∃ word zone, value = .text word ∧ Calendar.zoneNamed word = .ok zone := by
  have writable : value.isWritable = true := by
    by_contra unwritable
    simp [isZoneName, Value.written, unwritable, Except.toOption] at checked
  rw [isZoneName, Value.written, if_pos writable] at checked
  cases named : Calendar.zoneNamed value.toText with
  | error failure =>
      simp [Except.toOption, named, Except.isOk, Except.toBool] at checked
  | ok zone =>
      rcases value.text_or_foreign with ⟨word, rfl⟩ | foreign
      · exact ⟨word, zone, rfl, named⟩
      · obtain ⟨failure, refused⟩ := Calendar.zone_of_foreign foreign
        rw [refused] at named
        cases named

theorem checked_summary {part : Value} {summary : SummaryParams}
    (checked : checkSummary part = .ok []) (built : summaryOf part = .ok summary) :
    isBool summary.enabled = true ∧ isReportTime summary.reportTime = .ok true ∧
      isZoneName summary.timezone = true := by
  obtain ⟨entries, named, same⟩ := bind_eq_ok built
  have mapping := named_values_mapping named
  obtain ⟨enabled, enabledChecked, afterEnabled⟩ := bind_eq_ok checked
  obtain ⟨time, timeChecked, afterTime⟩ := bind_eq_ok afterEnabled
  obtain ⟨zone, zoneChecked, all⟩ := bind_eq_ok afterTime
  obtain ⟨both, rfl⟩ := List.append_eq_nil_iff.mp (Except.ok.inj all)
  obtain ⟨rfl, rfl⟩ := List.append_eq_nil_iff.mp both
  have midnight : isReportTime (.text "00:00") = .ok true := by rfl
  cases same
  refine ⟨value_or_accepted mapping enabledChecked rfl, ?_,
    value_or_accepted mapping zoneChecked (by decide)⟩
  refine value_or_of_check (fun value => isReportTime value = .ok true) mapping timeChecked ?_
    midnight
  intro value granted
  obtain ⟨accepted, looked, nothing⟩ := bind_eq_ok granted
  rw [looked, finding_unless_nil (Except.ok.inj nothing)]

theorem checked_logging {part : Value} {logging : LoggingParams}
    (checked : checkLogging part = .ok []) (built : loggingOf part = .ok logging) :
    isLevelName logging.level = true ∧ isBool logging.formatJson = true ∧
      isBool logging.includeTimestamp = true := by
  obtain ⟨entries, named, same⟩ := bind_eq_ok built
  have mapping := named_values_mapping named
  obtain ⟨level, levelChecked, afterLevel⟩ := bind_eq_ok checked
  obtain ⟨format, formatChecked, afterFormat⟩ := bind_eq_ok afterLevel
  obtain ⟨stamp, stampChecked, all⟩ := bind_eq_ok afterFormat
  obtain ⟨both, rfl⟩ := List.append_eq_nil_iff.mp (Except.ok.inj all)
  obtain ⟨rfl, rfl⟩ := List.append_eq_nil_iff.mp both
  cases same
  exact ⟨value_or_accepted mapping levelChecked (by decide),
    value_or_accepted mapping formatChecked rfl, value_or_accepted mapping stampChecked rfl⟩

theorem level_of_check {value : Value} (known : isLevelName value = true) :
    ∃ word, value = .text word ∧ levelNames.contains (Text.capitals word) = true := by
  unfold isLevelName at known
  split at known
  · rename_i name
    exact ⟨name, rfl, known⟩
  · cases known

structure Settings.Checked (settings : Settings) : Prop where
  age : isIntWhere (0 < ·) settings.quotes.maxAge = true
  skew : isIntWhere (0 ≤ ·) settings.quotes.maxSkew = true
  defaultFee : checkFee (.ok "default_fee") settings.fees.defaultFee = .ok []
  overrides : ∃ entries : Entries, settings.fees.overrides.entries? = some entries ∧
    checkFeeEntries entries = .ok []
  enabled : isBool settings.summary.enabled = true
  time : isReportTime settings.summary.reportTime = .ok true
  zone : isZoneName settings.summary.timezone = true
  level : isLevelName settings.logging.level = true
  format : isBool settings.logging.formatJson = true
  stamp : isBool settings.logging.includeTimestamp = true

/-- What is asked of the values given in a configuration holds of the settings that are built, where
defaults take the place of absent values. -/
theorem checked_of_built {config : Entries} (checked : checkAll (.dict config) = .ok [])
    (built : Settings.ofEntries config = .ok settings) : settings.Checked := by
  obtain ⟨quotesChecked, feesChecked, summaryChecked, loggingChecked, -⟩ := checks_of_all checked
  obtain ⟨window, windowBuilt, afterWindow⟩ := bind_eq_ok built
  obtain ⟨params, paramsBuilt, afterParams⟩ := bind_eq_ok afterWindow
  obtain ⟨report, reportBuilt, afterReport⟩ := bind_eq_ok afterParams
  obtain ⟨log, logBuilt, same⟩ := bind_eq_ok afterReport
  cases same
  obtain ⟨age, skew⟩ := checked_window (check_of_section quotesChecked rfl) windowBuilt
  obtain ⟨defaultFee, overrides⟩ := checked_fees (check_of_section feesChecked rfl) paramsBuilt
  obtain ⟨enabled, time, zone⟩ := checked_summary (check_of_section summaryChecked rfl) reportBuilt
  obtain ⟨level, format, stamp⟩ := checked_logging (check_of_section loggingChecked rfl) logBuilt
  exact { age, skew, defaultFee, overrides, enabled, time, zone, level, format, stamp }

theorem Settings.Checked.sound (checked : settings.Checked) : settings.Sound := by
  obtain ⟨maxAge, ageGiven⟩ := int_of_bound checked.age
  obtain ⟨maxSkew, skewGiven⟩ := int_of_bound checked.skew
  obtain ⟨entries, overriding, fees⟩ := checked.overrides
  exact {
    quotes := ⟨maxAge, maxSkew, ageGiven, skewGiven⟩
    defaultFee := fee_of_check checked.defaultFee
    overrides := ⟨entries, overriding, fun entry member =>
      (checks_of_fees fees entry member).elim fun _ => fee_of_check⟩
    time := time_of_check checked.time
    zone := zone_of_check checked.zone
    level := level_of_check checked.level }

theorem settings_sound (accepted : loader.settings overrides = .ok settings) : settings.Sound := by
  obtain ⟨config, -, checked, built⟩ := accepted_iff.mp accepted
  exact (checked_of_built checked built).sound

/-- Whatever the file and the overrides are: if they are accepted, the settings are safe to run. A
source with the configured fees gets for every request a fee in [0, 1) that the calculation accepts,
the reporter and the log can be set up, and every quote can be checked whose time, like the clock's,
has a reading in UTC. That the record of a stale quote can be written is not part of this. -/
theorem accepted_settings_run (accepted : loader.settings overrides = .ok settings) :
    (∀ (source : FeeSource) (request : FeeRequest), source.params = settings.fees →
      source.fetcher = none → ∃ fee,
        ((FeeSource.fetch request).ending source).1 = .ok (some fee) ∧ fee.isFinite = true ∧
          0 ≤ fee.toRat ∧ fee.toRat < 1 ∧ ∀ name, Spread.checkFee name (some fee) = .ok ()) ∧
    (∃ reporter, Report.Reporter.ofParams settings.summary = .ok reporter) ∧
    (∀ setup : Log.Setup, ∃ next,
      (Log.Setup.configure (.ofParams settings.logging)).ending setup = (.ok (), next)) ∧
    ∀ (book : QuoteBook) (quote : Option Quote) (reading : Calendar.Moment),
      book.window = settings.quotes →
      (∀ given time, quote = some given → given.time = some time → time.toUtc? ≠ none) →
      reading.toUtc? ≠ none → ∃ state, book.stateOf quote (.ok reading) = .ok state := by
  have sound := settings_sound accepted
  refine ⟨?_, sound.reporter, sound.log, ?_⟩
  · intro source request params fetcher
    obtain ⟨fee, fetched, charged⟩ := sound.fetch params fetcher request
    exact ⟨fee, fetched, charged.finite, charged.nonneg, charged.below,
      Spread.check_fee_passes charged⟩
  · intro book quote reading window timely readable
    exact sound.state window quote reading timely readable

def bareLoader : Loader := { files := {}, directory := .ofText "/config" }

def sampleOverrides : Value := .ofFields [
  ("fees", .ofFields [("default_fee", .int 0)]),
  ("summary", .ofFields [("report_time", .text "23:30"), ("timezone", .text "Asia/Tokyo")]),
  ("logging", .ofFields [("level", .text "debug")])]

def sampleConfig : Entries := Settings.toEntries {
  quotes := defaultWindow
  fees := { defaultFee := .int 0 }
  summary := { reportTime := .text "23:30", timezone := .text "Asia/Tokyo" }
  logging := { level := .text "debug" } }

theorem bare_loader_entries : bareLoader.fileEntries = .ok [] := by
  have absent : bareLoader.files.contains bareLoader.path = false := by decide +kernel
  rw [Loader.fileEntries, absent]
  rfl

theorem sample_merged : bareLoader.merged sampleOverrides = .ok sampleConfig := by
  rw [Loader.merged, bare_loader_entries]
  simp [sampleOverrides, sampleConfig, Value.ofFields, Value.isTruthy, Value.entries?, Value.opened,
    merge, Settings.toEntries, Settings.default, windowFields, feeFields, summaryFields,
    loggingFields, Entries.find?, Entries.insert, Value.sameKey, bind, Except.bind, pure,
    Except.pure]

theorem sample_settings_run : ∃ settings, bareLoader.settings sampleOverrides = .ok settings ∧
    ∃ reporter, Report.Reporter.ofParams settings.summary = .ok reporter := by
  have fine : (bareLoader.settings sampleOverrides).isOk = true := by
    rw [Loader.settings, sample_merged]
    decide +kernel
  cases accepted : bareLoader.settings sampleOverrides with
  | error failure =>
      rw [accepted] at fine
      cases fine
  | ok settings => exact ⟨settings, rfl, (accepted_settings_run accepted).2.1⟩

end Config

end SpreadWatch
