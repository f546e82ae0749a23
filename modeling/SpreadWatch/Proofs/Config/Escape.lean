import SpreadWatch.Proofs.Config.Section

/-!
Which failures escape from the reading of a configuration. Everything that is wrong with a
configuration should be refused as such, with an engine error whose cause is the configuration. But
sections are asked for members before they are known to be mappings, and a value is written into the
message that refuses it although it may hold an integer that is too long to be written.
-/

namespace SpreadWatch

/-! ### Results that fail -/

def Failing {α : Type} (result : Except Failure α) : Prop := ∃ failure, result = .error failure

section Failing

variable {α β : Type}

@[simp] theorem failing_error (failure : Failure) : Failing (.error failure : Except Failure α) :=
  ⟨failure, rfl⟩

@[simp] theorem not_failing_ok (a : α) : ¬ Failing (.ok a : Except Failure α) := by
  rintro ⟨failure, failed⟩
  cases failed

@[simp] theorem not_failing_pure (a : α) : ¬ Failing (pure a : Except Failure α) :=
  not_failing_ok a

/-- Of two steps the second of which fails whatever the first answers, or never. -/
theorem failing_bind {x : Except Failure α} {f : α → Except Failure β} {later : Prop}
    (second : ∀ a, Failing (f a) ↔ later) : Failing (x >>= f) ↔ Failing x ∨ later := by
  cases x with
  | error failure => simp [Failing, bind, Except.bind]
  | ok a =>
      have rest : Failing (Except.ok a >>= f) ↔ later := second a
      simp [rest]

theorem failing_bind_pure {x : Except Failure α} {f : α → β} :
    Failing (x >>= fun a => pure (f a)) ↔ Failing x := by
  cases x <;> simp [Failing, bind, Except.bind, pure, Except.pure]

theorem failing_map {x : Except Failure α} (f : α → β) : Failing (x.map f) ↔ Failing x := by
  cases x <;> simp [Failing, Except.map]

theorem failing_map_all {items : List α} {f : α → Except Failure β} :
    Failing (items.mapM f) ↔ ∃ item ∈ items, Failing (f item) := by
  induction items with
  | nil => simp
  | cons item rest induction =>
      rw [List.mapM_cons, List.exists_mem_cons_iff, ← induction]
      exact failing_bind fun b => failing_bind_pure

/-- A loop without a state, every turn of which fails or lets the next one follow. -/
theorem failing_for_each {items : List α} {step : α → PUnit → Except Failure (ForInStep PUnit)}
    (goesOn : ∀ item, Failing (step item ⟨⟩) ∨ step item ⟨⟩ = .ok (.yield ⟨⟩)) :
    Failing (forIn items PUnit.unit step) ↔ ∃ item ∈ items, Failing (step item ⟨⟩) := by
  induction items with
  | nil => simp
  | cons item rest induction =>
      rw [List.forIn_cons, List.exists_mem_cons_iff, ← induction]
      rcases goesOn item with ⟨failure, failed⟩ | next
      · rw [failed]
        exact iff_of_true (failing_error _) (.inl (failing_error _))
      · rw [next, or_iff_right (not_failing_ok _)]
        rfl

end Failing

theorem Value.failing_written {value : Value} :
    Failing value.written ↔ value.isWritable = false := by
  unfold Value.written
  split_ifs with writable <;> simp [writable]

namespace Config

variable {part value : Value} {config entries : Entries} {name : String}

/-! ### Members of anything -/

def held? (part : Value) (name : String) : Option Value :=
  part.entries?.bind fun entries => Entries.get? entries name

/-- No mapping, and not known to be without the name: it may be no container at all, or one whose
members cannot be read by name. -/
def Stumbles (part : Value) (name : String) : Prop :=
  part.entries? = none ∧ part.hasMember name ≠ .ok false

theorem held_of_entries (mapping : part.entries? = some entries) (name : String) :
    held? part name = Entries.get? entries name := by
  rw [held?, mapping, Option.bind_some]

theorem member_or_of_entries (mapping : part.entries? = some entries) (name : String)
    (default : Value) : part.memberOr name default = pure ((held? part name).getD default) := by
  rw [Value.memberOr, mapping, held_of_entries mapping]
  rfl

theorem member_or_of_unmapped (missing : part.entries? = none) (name : String) (default : Value) :
    part.memberOr name default = .error (.noMember part "get") := by
  rw [Value.memberOr, missing]

theorem not_stumbles_of_entries (mapping : part.entries? = some entries) (name : String) :
    ¬ Stumbles part name := by
  rintro ⟨missing, -⟩
  rw [mapping] at missing
  cases missing

theorem failing_member (unmapped : part.entries? = none) (name : String) :
    Failing (part.member name) := by
  unfold Value.member
  split
  · rename_i opened
    simp [Value.entries?, opened] at unmapped
  all_goals exact failing_error _

theorem failing_check_member {check : Value → Except Failure (List Finding)} :
    Failing (checkMember name part check) ↔
      Stumbles part name ∨ ∃ value, held? part name = some value ∧ Failing (check value) := by
  cases mapping : part.entries? with
  | some entries =>
      rw [check_member_of_entries mapping, held_of_entries mapping]
      cases Entries.get? entries name <;> simp [not_stumbles_of_entries mapping]
  | none =>
      obtain ⟨failure, failed⟩ := failing_member mapping name
      cases has : part.hasMember name with
      | error early => simp [checkMember, Value.member?, has, Stumbles, mapping, bind, Except.bind]
      | ok found =>
          cases found <;>
            simp [checkMember, Value.member?, has, failed, Stumbles, mapping, held?, bind,
              Except.bind, pure, Except.pure]

/-- A check that always answers. -/
theorem failing_check_plain {answer : Value → List Finding} :
    Failing (checkMember name part fun value => return answer value) ↔ Stumbles part name := by
  rw [failing_check_member]
  simp

theorem failing_check_section {check : Value → Except Failure (List Finding)} :
    Failing (checkMember name (.dict config) check) ↔
      ∃ part, config.get? name = some part ∧ Failing (check part) := by
  have mapping : (Value.dict config).entries? = some config := rfl
  rw [failing_check_member, held_of_entries mapping,
    or_iff_right (not_stumbles_of_entries mapping _)]

/-! ### The checks -/

theorem failing_check_quotes : Failing (checkQuotes part) ↔
    Stumbles part "max_age_seconds" ∨ Stumbles part "max_future_skew_seconds" := by
  rw [← failing_check_plain, ← failing_check_plain]
  exact failing_bind fun age => failing_bind_pure

theorem failing_check_logging : Failing (checkLogging part) ↔
    Stumbles part "level" ∨ Stumbles part "format_json" ∨ Stumbles part "include_timestamp" := by
  rw [← failing_check_plain, ← failing_check_plain, ← failing_check_plain]
  exact failing_bind fun level => failing_bind fun format => failing_bind_pure

/-- An hour or minute so large that its range is not even looked at. -/
def IsFarTime (value : Value) : Prop :=
  value.written.bind Report.TimeOfDay.ofText = .error .outOfRange

def IsTimeFailure (failure : Failure) : Prop :=
  failure = .outOfRange ∨ ∃ problem, failure = .reportTime problem

theorem time_fails_with (text : String) :
    FailsWith IsTimeFailure (Report.TimeOfDay.ofText text) := by
  have refused (problem : ReportTimeProblem) : IsTimeFailure (.reportTime problem) :=
    .inr ⟨problem, rfl⟩
  have digits (word : List Char) : FailsWith IsTimeFailure (Report.readDigits word) := by
    unfold Report.readDigits
    split_ifs
    · exact .error (refused _)
    · split
      · exact .ok _
      · exact .error (refused _)
  exact .guard (refused _) <| .bind (digits _) fun hour _ => .bind (digits _) fun minute _ =>
    .guard (.inl rfl) <| .guard (refused _) <| .guard (refused _) <| .ok _

/-- A text that is no time of day is found fault with; only a far time is not looked at. -/
theorem report_time_fails_with (value : Value) :
    FailsWith (fun failure => failure = .outOfRange) (isReportTime value) := by
  intro failure failed
  unfold isReportTime at failed
  split at failed
  case h_4 other notTime notBad read =>
    cases failed
    rcases bind_eq_error read with unwritten | ⟨text, -, unread⟩
    · rw [Value.written] at unwritten
      split_ifs at unwritten
      cases unwritten
      exact absurd rfl (notBad _)
    · rcases time_fails_with text failure unread with far | ⟨problem, refused⟩
      · exact far
      · exact absurd refused (notTime problem)
  all_goals cases failed

theorem failing_report_time : Failing (isReportTime value) ↔ IsFarTime value := by
  constructor
  · rintro ⟨failure, failed⟩
    cases report_time_fails_with value failure failed
    unfold isReportTime at failed
    split at failed <;> cases failed
    assumption
  · intro far
    rw [isReportTime, far]
    exact failing_error _

theorem failing_check_summary : Failing (checkSummary part) ↔
    Stumbles part "enabled" ∨
      (Stumbles part "report_time" ∨
        ∃ value, held? part "report_time" = some value ∧ IsFarTime value) ∨
      Stumbles part "timezone" := by
  have time : Failing (checkMember "report_time" part fun value => do
      return findingUnless (← isReportTime value) "report_time"
        "Must be a wall-clock time formatted HH:MM" value) ↔
      Stumbles part "report_time" ∨
        ∃ value, held? part "report_time" = some value ∧ IsFarTime value := by
    rw [failing_check_member]
    simp only [failing_bind_pure, failing_report_time]
  rw [← time, ← failing_check_plain, ← failing_check_plain]
  exact failing_bind fun enabled => failing_bind fun time => failing_bind_pure

def IsLongFee (fee : Value) : Prop := ∃ i : ℤ, fee = .int i ∧ Value.integerBound ≤ i.natAbs

theorem failing_fee_fraction {fee : Value} : Failing (feeFraction? fee) ↔ IsLongFee fee := by
  cases fee <;>
    simp [feeFraction?, IsLongFee, failing_map, Value.failing_written, Value.isWritable]

/-- A fee of its own that cannot be checked, or that is refused under a name that cannot be
written. -/
def IsBadOverride (entry : Value × Value) : Prop :=
  IsLongFee entry.2 ∨ feeFraction? entry.2 = .ok none ∧ entry.1.isWritable = false

theorem failing_check_fee {field : Except Failure String} {fee : Value} :
    Failing (checkFee field fee) ↔
      IsLongFee fee ∨ feeFraction? fee = .ok none ∧ Failing field := by
  rw [← failing_fee_fraction]
  unfold checkFee
  cases fraction : feeFraction? fee with
  | error failure => simp [bind, Except.bind]
  | ok found =>
      cases found with
      | none =>
          simp only [bind, Except.bind]
          cases field <;> simp
      | some number => simp [bind, Except.bind]

theorem failing_check_fee_entries {fees : List (Value × Value)} :
    Failing (checkFeeEntries fees) ↔ ∃ entry ∈ fees, IsBadOverride entry := by
  induction fees with
  | nil => simp [checkFeeEntries]
  | cons entry rest induction =>
      have first : Failing (checkFee (entry.1.written.map ("fee_overrides." ++ ·)) entry.2) ↔
          IsBadOverride entry := by
        rw [failing_check_fee, failing_map, Value.failing_written, IsBadOverride]
      rw [List.exists_mem_cons_iff, ← induction, ← first]
      exact failing_bind fun findings => failing_bind_pure

inductive FeesFail (part : Value) : Prop
  | unmapped (missing : part.entries? = none)
  | long {fee : Value} (held : held? part "default_fee" = some fee) (long : IsLongFee fee)
  | override {overrides : Value} {fees : Entries} {entry : Value × Value}
      (held : held? part "fee_overrides" = some overrides)
      (mapping : overrides.entries? = some fees) (member : entry ∈ fees) (bad : IsBadOverride entry)

/-- Of a mapping, the check looks at the fees under both names. -/
theorem failing_check_fees_of_entries (mapping : part.entries? = some entries) :
    Failing (checkFees part) ↔
      (∃ fee, held? part "default_fee" = some fee ∧ IsLongFee fee) ∨
        ∃ overrides fees, held? part "fee_overrides" = some overrides ∧
          overrides.entries? = some fees ∧ ∃ entry ∈ fees, IsBadOverride entry := by
  have default : Failing (checkMember "default_fee" part (checkFee (.ok "default_fee"))) ↔
      ∃ fee, held? part "default_fee" = some fee ∧ IsLongFee fee := by
    rw [failing_check_member, or_iff_right (not_stumbles_of_entries mapping _)]
    simp only [failing_check_fee, not_failing_ok, and_false, or_false]
  rw [← default]
  unfold checkFees
  refine failing_bind fun findings => ?_
  rw [member_or_of_entries mapping, pure_bind]
  cases held? part "fee_overrides" with
  | none => simp [Value.entries?, Value.opened, checkFeeEntries]
  | some overrides =>
      simp only [Option.getD_some, Option.some.injEq, ↓existsAndEq, true_and]
      cases overrides.entries? with
      | none => simp
      | some fees =>
          simp only [Option.some.injEq, exists_eq_left']
          exact failing_bind_pure.trans failing_check_fee_entries

theorem failing_check_fees : Failing (checkFees part) ↔ FeesFail part := by
  cases mapping : part.entries? with
  | none =>
      refine iff_of_true ?_ (.unmapped mapping)
      refine (failing_bind fun findings => iff_true_intro ?_).mpr (.inr trivial)
      rw [member_or_of_unmapped mapping]
      exact failing_error _
  | some entries =>
      rw [failing_check_fees_of_entries mapping]
      constructor
      · rintro (⟨fee, held, long⟩ | ⟨overrides, fees, held, given, entry, member, bad⟩)
        · exact .long held long
        · exact .override held given member bad
      · rintro (missing | ⟨held, long⟩ | ⟨held, given, member, bad⟩)
        · cases mapping.symm.trans missing
        · exact .inl ⟨_, held, long⟩
        · exact .inr ⟨_, _, held, given, _, member, bad⟩

/-! ### All sections -/

def askedMembers : List (String × String) :=
  [("quotes", "max_age_seconds"), ("quotes", "max_future_skew_seconds"), ("summary", "enabled"),
    ("summary", "report_time"), ("summary", "timezone"), ("logging", "level"),
    ("logging", "format_json"), ("logging", "include_timestamp")]

inductive ChecksFail (config : Entries) : Prop
  | stumbling {place name : String} {part : Value} (asked : (place, name) ∈ askedMembers)
      (given : config.get? place = some part) (stumbles : Stumbles part name)
  | fees {part : Value} (given : config.get? "fees" = some part) (fail : FeesFail part)
  | time {part value : Value} (given : config.get? "summary" = some part)
      (held : held? part "report_time" = some value) (far : IsFarTime value)

theorem failing_check_all : Failing (checkAll (.dict config)) ↔ ChecksFail config := by
  have steps : Failing (checkAll (.dict config)) ↔
      Failing (checkMember "quotes" (.dict config) checkQuotes) ∨
      Failing (checkMember "fees" (.dict config) checkFees) ∨
      Failing (checkMember "summary" (.dict config) checkSummary) ∨
      Failing (checkMember "logging" (.dict config) checkLogging) ∨
      Failing (checkMember "trade_combinations" (.dict config) fun value =>
        return checkCombinations value) :=
    failing_bind fun quotes => failing_bind fun fees => failing_bind fun summary =>
      failing_bind fun logging => failing_bind_pure
  rw [steps]
  simp only [failing_check_section, failing_check_quotes, failing_check_fees,
    failing_check_summary, failing_check_logging, not_failing_pure, and_false, exists_false,
    or_false]
  constructor
  · rintro (⟨part, given, stumbles | stumbles⟩ | ⟨part, given, fail⟩ |
      ⟨part, given, stumbles | (stumbles | ⟨value, held, far⟩) | stumbles⟩ |
      ⟨part, given, stumbles | stumbles | stumbles⟩)
    case inr.inl => exact .fees given fail
    case inr.inr.inl.inr.inl.inr => exact .time given held far
    all_goals exact .stumbling (by decide) given stumbles
  · rintro (⟨asked, given, stumbles⟩ | ⟨given, fail⟩ | ⟨given, held, far⟩)
    · simp only [askedMembers, List.mem_cons, Prod.mk.injEq, List.not_mem_nil, or_false] at asked
      rcases asked with ⟨rfl, rfl⟩ | ⟨rfl, rfl⟩ | ⟨rfl, rfl⟩ | ⟨rfl, rfl⟩ | ⟨rfl, rfl⟩ |
        ⟨rfl, rfl⟩ | ⟨rfl, rfl⟩ | ⟨rfl, rfl⟩ <;> simp [given, stumbles]
    · exact .inr (.inl ⟨_, given, fail⟩)
    · exact .inr (.inr (.inl ⟨_, given, .inr (.inl (.inr ⟨_, held, far⟩))⟩))

/-! ### Reports -/

/-- A failure that refuses the configuration as such. -/
def IsReport : Failure → Prop
  | .engine { cause := .configuration _, .. } => True
  | _ => False

abbrev Reported {α : Type} (result : Except Failure α) : Prop := FailsWith IsReport result

abbrev Unreported {α : Type} (result : Except Failure α) : Prop :=
  FailsWith (fun failure => ¬ IsReport failure) result

theorem not_reported_of_failing {α : Type} {result : Except Failure α}
    (failing : Failing result) (unreported : Unreported result) : ¬ Reported result := by
  obtain ⟨failure, failed⟩ := failing
  intro reported
  exact unreported failure failed (reported failure failed)

/-- Whether a refusal is reported depends on whether its message can be written. -/
theorem refusal_reported_iff {α β : Type} {text : Except Failure α}
    {refuse : α → Except Failure β} (unreported : Unreported text)
    (refuses : ∀ a, ∃ report, refuse a = .error report ∧ IsReport report) :
    Reported (text >>= refuse) ↔ ¬ Failing text := by
  cases text with
  | error failure =>
      refine iff_of_false ?_ (not_not_intro (failing_error _))
      exact not_reported_of_failing ⟨failure, rfl⟩ (.error (unreported failure rfl))
  | ok a =>
      refine iff_of_true ?_ (not_failing_ok a)
      obtain ⟨report, refused, fine⟩ := refuses a
      have rest : Except.ok a >>= refuse = .error report := refused
      rw [rest]
      exact .error fine

theorem unreported_written (value : Value) : Unreported value.written := by
  unfold Value.written
  split_ifs
  · exact .ok _
  · exact .error id

theorem unreported_has_member (value : Value) (name : String) :
    Unreported (value.hasMember name) := by
  unfold Value.hasMember
  split <;> first | exact .ok _ | exact .error id

theorem unreported_member (value : Value) (name : String) : Unreported (value.member name) := by
  unfold Value.member
  split
  · split
    · exact .ok _
    · exact .error id
  all_goals exact .error id

theorem unreported_check_member {check : Value → Except Failure (List Finding)}
    (each : ∀ value, Unreported (check value)) : Unreported (checkMember name part check) := by
  refine .bind (.bind (unreported_has_member _ _) fun found _ => ?_) fun held _ => ?_
  · split
    · exact .bind (unreported_member _ _) fun value _ => .ok _
    · exact .ok _
  · cases held with
    | none => exact .ok _
    | some value => exact each value

theorem unreported_check_fee {field : Except Failure String} (named : Unreported field)
    (fee : Value) : Unreported (checkFee field fee) := by
  have fraction : Unreported (feeFraction? fee) := by
    unfold feeFraction?
    split
    case h_5 => exact .ok _
    all_goals exact .map (unreported_written _) _
  refine .bind fraction fun found _ => ?_
  split
  · exact .ok _
  · exact .bind named fun field _ => .ok _

theorem unreported_check_fee_entries (fees : List (Value × Value)) :
    Unreported (checkFeeEntries fees) := by
  induction fees with
  | nil => exact .ok _
  | cons entry rest induction =>
      have named : Unreported (entry.1.written.map ("fee_overrides." ++ ·)) :=
        .map (unreported_written _) _
      exact .bind (unreported_check_fee named entry.2) fun first _ =>
        .bind induction fun others _ => .ok _

theorem unreported_check_fees (part : Value) : Unreported (checkFees part) := by
  refine .bind (unreported_check_member (unreported_check_fee (.ok _))) fun default _ =>
    .bind ?_ fun overrides _ => ?_
  · unfold Value.memberOr
    split
    · exact .ok _
    · exact .error id
  · split
    · exact .bind (unreported_check_fee_entries _) fun others _ => .ok _
    · exact .ok _

theorem unreported_report_time (value : Value) : Unreported (isReportTime value) := by
  intro failure failed
  rw [report_time_fails_with value failure failed]
  exact id

theorem unreported_check_summary (part : Value) : Unreported (checkSummary part) :=
  .bind (unreported_check_member fun _ => .ok _) fun _ _ =>
    .bind (unreported_check_member fun value => .bind (unreported_report_time value) fun _ _ =>
      .ok _) fun _ _ =>
    .bind (unreported_check_member fun _ => .ok _) fun _ _ => .ok _

theorem unreported_check_all (config : Value) : Unreported (checkAll config) := by
  have plain {part : Value} {name : String} {answer : Value → List Finding} :
      Unreported (checkMember name part fun value => return answer value) :=
    unreported_check_member fun _ => .ok _
  exact .bind (unreported_check_member fun _ => .bind plain fun _ _ => .bind plain fun _ _ => .ok _)
    fun quotes _ => .bind (unreported_check_member unreported_check_fees)
    fun fees _ => .bind (unreported_check_member unreported_check_summary)
    fun summary _ => .bind (unreported_check_member fun _ => .bind plain fun _ _ =>
      .bind plain fun _ _ => .bind plain fun _ _ => .ok _)
    fun logging _ => .bind plain fun combinations _ => .ok _

/-! ### Settings -/

theorem named_values_fail_with (kind : String) (names : List String) (part : Value) :
    FailsWith WrongType (namedValues kind names part) := by
  unfold namedValues
  split
  · refine .guard ⟨_, rfl⟩ <| .bind (.for_in ?_) fun _ _ => .ok _
    rintro ⟨key, value⟩ state
    dsimp only
    split
    · exact .guard ⟨_, rfl⟩ <| .guard ⟨_, rfl⟩ <| .ok _
    · exact .ok _
  · exact .error ⟨_, rfl⟩

theorem settings_of_entries_fail_with (config : Entries) :
    FailsWith WrongType (Settings.ofEntries config) := by
  have built {α : Type} (kind : String) (names : List String) (part : Value) (f : Entries → α) :
      FailsWith WrongType (namedValues kind names part >>= fun entries => pure (f entries)) :=
    .bind (named_values_fail_with kind names part) fun _ _ => .ok _
  exact .bind (built _ _ _ _) fun quotes _ => .bind (built _ _ _ _) fun fees _ =>
    .bind (built _ _ _ _) fun summary _ => .bind (built _ _ _ _) fun logging _ => .ok _

/-- What escapes from the reading of the settings: a failure of the checks, or else the failure to
write a message about findings. -/
inductive SettingsEscape (config : Entries) : Prop
  | checks (fail : ChecksFail config)
  | message {findings : List Finding} {finding : Finding}
      (checked : checkAll (.dict config) = .ok findings) (member : finding ∈ findings)
      (unwritable : finding.value.isWritable = false)

/-- What building the sections objects to is reported. -/
theorem built_reported (config : Entries) : Reported (match Settings.ofEntries config with
    | .error (.wrongType text) => throw (refused ("Invalid configuration: " ++ text) [])
    | result => result) := by
  cases built : Settings.ofEntries config with
  | ok settings => exact .ok _
  | error failure =>
      obtain ⟨text, rfl⟩ := settings_of_entries_fail_with config failure built
      exact .error trivial

/-- Once the checks have passed, only the message can fail. -/
theorem settings_escape_iff {findings : List Finding}
    (checked : checkAll (.dict config) = .ok findings) :
    SettingsEscape config ↔ ∃ finding ∈ findings, finding.value.isWritable = false := by
  have passed : ¬ ChecksFail config := by
    rw [← failing_check_all, checked]
    exact not_failing_ok _
  constructor
  · rintro (fail | ⟨same, member, unwritable⟩)
    · exact absurd fail passed
    · cases checked.symm.trans same
      exact ⟨_, member, unwritable⟩
  · rintro ⟨finding, member, unwritable⟩
    exact .message checked member unwritable

theorem settings_reported_iff {loader : Loader} {overrides : Value}
    (merged : loader.merged overrides = .ok config) :
    Reported (loader.settings overrides) ↔ ¬ SettingsEscape config := by
  rw [Loader.settings, merged]
  cases checked : checkAll (.dict config) with
  | error failure =>
      have fail : ChecksFail config := failing_check_all.mp ⟨failure, checked⟩
      refine iff_of_false ?_ (not_not_intro (.checks fail))
      simp only [bind, Except.bind, checked]
      exact not_reported_of_failing ⟨failure, rfl⟩
        (.error (unreported_check_all _ failure checked))
  | ok findings =>
      rw [settings_escape_iff checked]
      cases findings with
      | nil =>
          refine iff_of_true ?_ (by simp)
          simp only [bind, Except.bind, checked]
          exact built_reported config
      | cons first rest =>
          have line (finding : Finding) : Failing (do
              return finding.field ++ ": " ++ finding.message ++ " (got: " ++
                (← finding.value.written) ++ ")") ↔ finding.value.isWritable = false :=
            failing_bind_pure.trans Value.failing_written
          simp only [← line]
          rw [← failing_map_all]
          simp only [bind, Except.bind, checked]
          exact refusal_reported_iff (.map_all fun finding => .bind (unreported_written _)
            fun text _ => .ok _) fun texts => ⟨_, rfl, trivial⟩

theorem pairs_reported {loader : Loader} {overrides : Value}
    (merged : loader.merged overrides = .ok config) : Reported (loader.pairs overrides) := by
  rw [Loader.pairs, merged]
  exact .guard trivial (.ok _)

end Config

end SpreadWatch
