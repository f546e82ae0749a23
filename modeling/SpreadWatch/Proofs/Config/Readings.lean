import SpreadWatch.Proofs.Config.Combinations
import SpreadWatch.Proofs.Value.Keys

/-!
The two readings of the trade combinations. The check of a configuration looks at the value as it is
given. The loading of the pairs asks the same check, but first takes every value that counts as
false for no combinations at all. So both find fault with the same configurations, except where such
a value is no list.
-/

namespace SpreadWatch

theorem Entries.get_erase (entries : Entries) (name other : String) :
    (entries.erase name).get? other = if other = name then none else entries.get? other := by
  rw [get?, get?, find?, find?, erase, List.find?_filter]
  split_ifs with same
  · subst same
    rw [Option.map_eq_none_iff, List.find?_eq_none]
    intro item _ found
    obtain ⟨dropped, kept⟩ := of_decide_eq_true found
    rw [kept] at dropped
    cases dropped
  · congr 2
    funext item
    have apart : item.1.sameKey (.text other) = true → item.1.sameKey (.text name) = false := by
      rw [Value.same_key_text_iff]
      intro found
      rw [found]
      exact beq_false_of_ne same
    cases found : item.1.sameKey (.text other) <;> simp [found, apart]

namespace Config

variable {loader : Loader} {overrides value : Value} {config : Entries} {name : String}
  {finding : Finding}

/-! ### The other sections -/

/-- Without its trade combinations, the configuration is found without fault. -/
def RestValid (config : Entries) : Prop :=
  checkAll (.dict (config.erase "trade_combinations")) = .ok []

theorem check_member_erase (other : name ≠ "trade_combinations")
    (check : Value → Except Failure (List Finding)) :
    checkMember name (.dict (config.erase "trade_combinations")) check =
      checkMember name (.dict config) check := by
  rw [check_member_of_entries rfl, check_member_of_entries rfl, Entries.get_erase, if_neg other]

/-- What is found then is found in the trade combinations. -/
theorem check_all_of_rest (valid : RestValid config) :
    checkAll (.dict config) =
      .ok (((config.get? "trade_combinations").map checkCombinations).getD []) := by
  obtain ⟨quotesChecked, feesChecked, summaryChecked, loggingChecked, -⟩ := checks_of_all valid
  rw [check_member_erase (by decide)] at quotesChecked feesChecked summaryChecked loggingChecked
  rw [checkAll, quotesChecked, feesChecked, summaryChecked, loggingChecked,
    check_member_of_entries rfl]
  cases config.get? "trade_combinations" <;> rfl

/-! ### The places of findings -/

def Finding.InCombinations (finding : Finding) : Prop :=
  "trade_combinations".toList <+: finding.field.toList

theorem in_combinations_of_unless {accepted : Bool} {field message : String}
    (begins : "trade_combinations".toList <+: field.toList)
    (member : finding ∈ findingUnless accepted field message value) : finding.InCombinations := by
  cases accepted with
  | true => cases member
  | false =>
      obtain rfl := List.mem_singleton.mp member
      exact begins

theorem check_combination_places (index : ℕ) (entry : Value) :
    ∀ finding ∈ checkCombination index entry, finding.InCombinations := by
  have place (rest : String) : "trade_combinations".toList <+:
      ("trade_combinations[" ++ Value.intText index ++ "]" ++ rest).toList := by
    simp only [String.toList_append, List.append_assoc]
    exact (List.prefix_append _ ['[']).trans (List.prefix_append _ _)
  have whole := place ""
  rw [String.append_empty] at whole
  intro finding member
  unfold checkCombination at member
  split at member
  · simp only [List.mem_append] at member
    rcases member with ((inside | inside) | inside) | inside
    · exact in_combinations_of_unless (place _) inside
    · exact in_combinations_of_unless (place _) inside
    · exact in_combinations_of_unless whole inside
    · exact in_combinations_of_unless (place _) inside
  · exact in_combinations_of_unless whole member

theorem check_combinations_places (value : Value) :
    ∀ finding ∈ checkCombinations value, finding.InCombinations := by
  intro finding member
  unfold checkCombinations at member
  split at member
  · obtain ⟨findings, listed, inside⟩ := List.mem_flatten.mp member
    obtain ⟨index, _, rfl⟩ := List.mem_mapIdx.mp listed
    exact check_combination_places _ _ _ inside
  · exact in_combinations_of_unless (List.prefix_refl _) member

/-! ### Two readings -/

section Readings

def IsBlamed (findings : List Finding) : Prop := ∃ finding ∈ findings, finding.InCombinations

def RefusesPairs (loader : Loader) (overrides : Value) : Prop :=
  ∃ failure, loader.pairs overrides = .error failure ∧ IsReport failure

/-- Trade combinations are given, but what is given is no list and counts as false. -/
structure GlossedOver (config : Entries) (value : Value) : Prop where
  given : config.get? "trade_combinations" = some value
  untrue : value.isTruthy = false
  unlisted : value.items? = none

theorem blamed_combinations_iff (value : Value) :
    IsBlamed (checkCombinations value) ↔ checkCombinations value ≠ [] := by
  rw [ne_eq, List.eq_nil_iff_forall_not_mem, not_forall_not]
  exact exists_congr fun finding => and_iff_left_of_imp (check_combinations_places value finding)

theorem refuses_pairs_iff (merged : loader.merged overrides = .ok config) :
    RefusesPairs loader overrides ↔ checkCombinations (considered config) ≠ [] := by
  constructor
  · rintro ⟨failure, refused, -⟩ nothing
    cases (pairs_of_checked merged nothing).symm.trans refused
  · intro found
    obtain ⟨message, refused⟩ := pairs_of_findings merged found
    exact ⟨_, refused, trivial⟩

theorem considered_of_untrue (untrue : (config.get "trade_combinations").isTruthy = false) :
    considered config = .list [] := by
  rw [considered, if_neg (by simp [untrue])]

/-- Of a value that is not glossed over, what is considered is found fault with alike. -/
theorem check_considered (given : config.get? "trade_combinations" = some value)
    (regarded : ¬ GlossedOver config value) :
    checkCombinations (considered config) = checkCombinations value := by
  have got := get_of_given given
  cases truthy : value.isTruthy with
  | true => rw [considered, got, if_pos truthy]
  | false =>
      rw [considered_of_untrue (got ▸ truthy)]
      cases listed : value.items? with
      | none => exact absurd ⟨given, truthy, listed⟩ regarded
      | some items =>
          rw [truthy_of_items listed, Bool.not_eq_false', List.isEmpty_iff] at truthy
          subst truthy
          rw [checkCombinations, checkCombinations, listed]
          rfl

theorem check_glossed_over (glossed : GlossedOver config value) : checkCombinations value =
    [{ field := "trade_combinations", message := "Must be a list", value }] := by
  rw [checkCombinations, glossed.unlisted]
  rfl

theorem GlossedOver.pairs (glossed : GlossedOver config value)
    (merged : loader.merged overrides = .ok config) : loader.pairs overrides = .ok [] := by
  have untrue : (config.get "trade_combinations").isTruthy = false :=
    get_of_given glossed.given ▸ glossed.untrue
  have nothing := considered_of_untrue untrue
  rw [pairs_of_checked merged (nothing ▸ rfl), nothing]
  rfl

/-- The other sections being valid, the two readings of the trade combinations agree unless the
given value is glossed over. Then the check finds fault with just this value, as no list, and the
pairs are loaded all the same, none of them. -/
theorem readings_agree_iff (merged : loader.merged overrides = .ok config)
    (valid : RestValid config) :
    ∃ findings, checkAll (.dict config) = .ok findings ∧
      ((IsBlamed findings ↔ RefusesPairs loader overrides) ↔
        ¬ ∃ value, GlossedOver config value) ∧
      ∀ value, GlossedOver config value →
        findings = [{ field := "trade_combinations", message := "Must be a list", value }] ∧
        loader.pairs overrides = .ok [] := by
  refine ⟨_, check_all_of_rest valid, ?_, fun value glossed => ?_⟩
  · rw [refuses_pairs_iff merged]
    cases given : config.get? "trade_combinations" with
    | none =>
        have untrue : (config.get "trade_combinations").isTruthy = false := by
          rw [Entries.get, given]
          rfl
        rw [considered_of_untrue untrue]
        refine iff_of_true (iff_of_false ?_ (not_not_intro rfl)) ?_
        · rintro ⟨finding, member, -⟩
          cases member
        · rintro ⟨value, glossed⟩
          cases given.symm.trans glossed.given
    | some value =>
        rw [Option.map_some, Option.getD_some, blamed_combinations_iff]
        constructor
        · rintro agree ⟨other, glossed⟩
          cases given.symm.trans glossed.given
          have untrue : (config.get "trade_combinations").isTruthy = false :=
            get_of_given given ▸ glossed.untrue
          refine agree.mp ?_ (considered_of_untrue untrue ▸ rfl)
          rw [check_glossed_over glossed]
          exact List.cons_ne_nil _ _
        · intro regarded
          rw [check_considered given fun glossed => regarded ⟨value, glossed⟩]
  · rw [glossed.given, Option.map_some, Option.getD_some]
    exact ⟨check_glossed_over glossed, glossed.pairs merged⟩

/-! ### A blank section -/

def blank : Loader where
  files := { entries := [(["spread.yaml"], .file "trade_combinations:\n")] }
  directory := .ofText ""

def blankConfig : Entries := Settings.default.toEntries ++ [(.text "trade_combinations", .null)]

def isBlankFile : Entries → Bool
  | [(.text place, .null)] => place == "trade_combinations"
  | _ => false

theorem blank_file : blank.fileEntries = .ok [(.text "trade_combinations", .null)] := by
  have read : blank.fileEntries.toOption.any isBlankFile = true := by
    decide +kernel
  refine ok_of_test read fun entries written => ?_
  unfold isBlankFile at written
  split at written
  · rw [eq_of_beq written]
  · cases written

theorem blank_merged : blank.merged .null = .ok blankConfig := by
  rw [Loader.merged, blank_file]
  simp [blankConfig, Value.isTruthy, merge, Settings.toEntries, Settings.default, Entries.find?,
    Entries.insert, Value.sameKey, bind, Except.bind, pure, Except.pure]

theorem blank_rest_valid : RestValid blankConfig :=
  ok_nil_of_length (by decide +kernel)

/-- The check calls the configuration invalid, while the pairs are loaded. -/
theorem blank_refused_by_check_only :
    blank.merged .null = .ok blankConfig ∧ RestValid blankConfig ∧
    checkAll (.dict blankConfig) = .ok
      [{ field := "trade_combinations", message := "Must be a list", value := .null }] ∧
    blank.pairs .null = .ok [] ∧
    ∀ findings, checkAll (.dict blankConfig) = .ok findings →
      ¬ (IsBlamed findings ↔ RefusesPairs blank .null) := by
  have checked : checkAll (.dict blankConfig) = .ok
      [{ field := "trade_combinations", message := "Must be a list", value := .null }] :=
    check_all_of_rest blank_rest_valid
  have loaded : blank.pairs .null = .ok [] := by
    rw [Loader.pairs, blank_merged]
    rfl
  refine ⟨blank_merged, blank_rest_valid, checked, loaded, fun findings again agree => ?_⟩
  cases checked.symm.trans again
  obtain ⟨failure, refused, -⟩ := agree.mp ⟨_, List.mem_singleton_self _, List.prefix_refl _⟩
  cases loaded.symm.trans refused

theorem blank_glossed_over :
    ∃ findings, checkAll (.dict blankConfig) = .ok findings ∧
      ¬ (IsBlamed findings ↔ RefusesPairs blank .null) ∧
      findings = [{ field := "trade_combinations", message := "Must be a list", value := .null }] ∧
      blank.pairs .null = .ok [] := by
  obtain ⟨findings, checked, agree, differ⟩ := readings_agree_iff blank_merged blank_rest_valid
  have glossed : GlossedOver blankConfig .null := ⟨rfl, rfl, rfl⟩
  exact ⟨findings, checked, fun readings => agree.mp readings ⟨.null, glossed⟩,
    differ .null glossed⟩

end Readings

end Config

end SpreadWatch
