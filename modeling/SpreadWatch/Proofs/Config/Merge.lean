import SpreadWatch.Config.Loader
import SpreadWatch.Proofs.Yaml.Assembled

/-!
Mappings laid over each other. A merge has the leaves of the mapping on top, and those of the one
below whose paths are missing from the one on top; nothing else. So every value of a configuration
comes from the overrides, or else from the file, or else from the defaults, at every depth, and
laying the same overrides over it again changes nothing.
-/

namespace SpreadWatch.Config

open Value

variable {allowed : Value → Prop} {base override rest : Entries} {key query value leaf : Value}
  {path : List Value}

def laid (below : Option Value) (value : Value) : Value :=
  match below.bind Value.entries?, value with
  | some inner, .dict entries => .dict (merge inner entries)
  | some inner, .knot label (.dict entries) =>
      Value.fill label (.knot label (.dict entries)) (.dict (merge inner entries))
  | _, value => value

theorem merge_nil : merge base [] = base := by
  rw [merge]

theorem merge_cons :
    merge base ((key, value) :: rest) =
      merge (base.insert key (laid (base.find? key) value)) rest := by
  conv_lhs => rw [merge.eq_def]
  rfl

theorem laid_over_nothing {below : Option Value} (nothing : below.bind Value.entries? = none) :
    laid below value = value := by
  unfold laid
  split
  case h_3 => rfl
  all_goals
    rename_i found
    rw [nothing] at found
    cases found

theorem laid_none : laid none value = value := laid_over_nothing rfl

theorem laid_leaf {below : Option Value} (leaf : value.entries? = none) :
    laid below value = value := by
  unfold laid
  split
  · cases leaf
  · simp [entries?, opened, fill] at leaf
  · rfl

theorem laid_mapping {below : Option Value} {inner entries : Entries}
    (found : below.bind Value.entries? = some inner) :
    laid below (.dict entries) = .dict (merge inner entries) := by
  unfold laid
  rw [found]

theorem laid_over_mapping {inner entries : Entries} :
    laid (some (.dict inner)) (.dict entries) = .dict (merge inner entries) :=
  laid_mapping rfl

def NestedBelow (allowed : Value → Prop) (below : Option Value) : Prop :=
  ∀ found, below = some found → found.Nested allowed

theorem NestedBelow.mapping {below : Option Value} {inner : Entries}
    (nested : NestedBelow allowed below) (inside : below.bind Value.entries? = some inner) :
    (Value.dict inner).Nested allowed := by
  obtain ⟨found, rfl, mapped⟩ := Option.bind_eq_some_iff.mp inside
  have foundNested := nested found rfl
  obtain rfl := foundNested.entries_eq mapped
  exact foundNested

/-- What a key of a merge has: what is on top, laid over what is below. -/
theorem find_merge (keyed : base.Keyed) (keyedToo : override.Keyed) (distinct : override.Distinct) :
    (merge base override).find? query =
      match override.find? query with
      | none => base.find? query
      | some value => some (laid (base.find? query) value) := by
  induction override generalizing base with
  | nil => rw [merge_nil]; rfl
  | cons entry rest induction =>
      obtain ⟨key, value⟩ := entry
      have distinctRest := (List.pairwise_cons.mp distinct).2
      rw [merge_cons, induction (keyed.insert keyedToo.head) keyedToo.tail distinctRest,
        Entries.find_insert keyed keyedToo.head, Entries.find_cons]
      cases same : key.sameKey query with
      | false => rfl
      | true =>
          rw [distinct.find_rest keyedToo same, Entries.find_congr keyed keyedToo.head same]
          rfl

/-- The leaves below a value that is laid over what another mapping has under its key. -/
theorem leaf_laid_iff {below : Option Value} (nested : value.Nested Plain)
    (nestedBelow : NestedBelow Plain below)
    (merged : ∀ {inner entries : Entries}, (Value.dict inner).Nested Plain →
      (Value.dict entries).Nested Plain → ((Value.dict (merge inner entries)).LeafAt path leaf ↔
        (Value.dict entries).LeafAt path leaf ∨
          (Value.dict entries).Missing path ∧ (Value.dict inner).LeafAt path leaf)) :
    (laid below value).LeafAt path leaf ↔
      value.LeafAt path leaf ∨
        value.Missing path ∧ ∃ found, below = some found ∧ found.LeafAt path leaf := by
  cases mapping : value.entries? with
  | none =>
      rw [laid_leaf mapping]
      simp [not_missing_of_leaf mapping]
  | some entries =>
      obtain rfl := nested.entries_eq mapping
      cases inside : below.bind Value.entries? with
      | some inner =>
          obtain ⟨found, rfl, mapped⟩ := Option.bind_eq_some_iff.mp inside
          obtain rfl := (nestedBelow found rfl).entries_eq mapped
          rw [laid_over_mapping, merged (nestedBelow _ rfl) nested]
          simp
      | none =>
          rw [laid_over_nothing inside]
          refine ⟨.inl, ?_⟩
          rintro (top | ⟨missing, found, rfl, led⟩)
          · exact top
          · -- what is found below is no mapping, so nothing of the path is left
            rw [led.nil_of_leaf inside] at missing
            exact absurd missing not_missing_nil

/-- The leaves of a merge are those on top, and those below whose paths are missing on top. -/
theorem leaf_merge_iff (below : (Value.dict base).Nested Plain)
    (above : (Value.dict override).Nested Plain) :
    (Value.dict (merge base override)).LeafAt path leaf ↔
      (Value.dict override).LeafAt path leaf ∨
        (Value.dict override).Missing path ∧ (Value.dict base).LeafAt path leaf := by
  induction path generalizing base override with
  | nil => simp [not_leaf_at_nil]
  | cons key rest induction =>
      rw [leaf_at_cons, leaf_at_cons, leaf_at_cons, missing_cons,
        find_merge below.keys above.keys above.distinct]
      cases top : Entries.find? override key with
      | none => simp
      | some value =>
          have nestedBelow : NestedBelow Plain (base.find? key) := fun _ found => below.found found
          have inner := leaf_laid_iff (above.found top) nestedBelow induction
          simpa using inner

/-! ### Merges of merges -/

theorem nested_merge_of_values (keys : ∀ entry ∈ override, allowed entry.1)
    (values : ∀ entry ∈ override, ∀ {below}, NestedBelow allowed below →
      (laid below entry.2).Nested allowed) (nested : (Value.dict base).Nested allowed) :
    (Value.dict (merge base override)).Nested allowed := by
  induction override generalizing base with
  | nil =>
      rw [merge_nil]
      exact nested
  | cons entry rest induction =>
      obtain ⟨key, value⟩ := entry
      obtain ⟨proper, properRest⟩ := List.forall_mem_cons.mp keys
      obtain ⟨inner, innerRest⟩ := List.forall_mem_cons.mp values
      rw [merge_cons]
      exact induction properRest innerRest
        (nested.insert proper (inner fun _ found => nested.found found))

theorem nested_laid (nested : value.Nested allowed) {below : Option Value}
    (nestedBelow : NestedBelow allowed below) : (laid below value).Nested allowed := by
  induction nested generalizing below with
  | leaf leaf =>
      rw [laid_leaf leaf]
      exact .leaf leaf
  | mapping keys distinct values induction =>
      cases inside : below.bind Value.entries? with
      | none =>
          rw [laid_over_nothing inside]
          exact .mapping keys distinct values
      | some inner =>
          rw [laid_mapping inside]
          exact nested_merge_of_values keys induction (nestedBelow.mapping inside)

theorem nested_merge (below : (Value.dict base).Nested allowed)
    (above : (Value.dict override).Nested allowed) :
    (Value.dict (merge base override)).Nested allowed :=
  nested_merge_of_values above.keys
    (fun entry member _ nestedBelow => nested_laid (above.values entry member) nestedBelow) below

/-- Laying entries over a mapping that has them changes nothing. -/
theorem merge_of_present (present : ∀ entry ∈ override, ∃ found,
    base.find? entry.1 = some found ∧ laid (some found) entry.2 = found) :
    merge base override = base := by
  induction override with
  | nil => rw [merge_nil]
  | cons entry rest induction =>
      obtain ⟨key, value⟩ := entry
      obtain ⟨⟨found, has, same⟩, presentRest⟩ := List.forall_mem_cons.mp present
      rw [merge_cons, has, same, Entries.insert_of_find has]
      exact induction presentRest

theorem merge_again_of_values (keyed : base.Keyed) (keys : ∀ entry ∈ override, Proper entry.1)
    (distinct : override.Distinct) (values : ∀ entry ∈ override,
      laid (some (laid (base.find? entry.1) entry.2)) entry.2 =
        laid (base.find? entry.1) entry.2) :
    merge (merge base override) override = merge base override := by
  have keyedToo : override.Keyed := fun entry member => (keys entry member).1
  apply merge_of_present
  intro entry member
  refine ⟨_, ?_, values entry member⟩
  rw [find_merge keyed keyedToo distinct,
    distinct.find_member keyedToo member (keys entry member).2]

/-- Laying a value over again changes nothing. -/
theorem laid_again (nested : value.Nested Proper) {below : Option Value}
    (nestedBelow : NestedBelow Plain below) :
    laid (some (laid below value)) value = laid below value := by
  induction nested generalizing below with
  | leaf leaf => rw [laid_leaf leaf, laid_leaf leaf]
  | @mapping entries keys distinct values induction =>
      cases inside : below.bind Value.entries? with
      | none =>
          have keyed : entries.Keyed := fun entry member => (keys entry member).1
          rw [laid_over_nothing inside, laid_over_mapping]
          congr 1
          apply merge_of_present
          intro entry member
          refine ⟨entry.2, distinct.find_member keyed member (keys entry member).2, ?_⟩
          have again := induction entry member
            (show NestedBelow Plain none from fun _ found => nomatch found)
          rwa [laid_none] at again
      | some inner =>
          have innerNested := nestedBelow.mapping inside
          rw [laid_mapping inside, laid_over_mapping]
          rw [merge_again_of_values innerNested.keys keys distinct fun entry member =>
            induction entry member fun _ found => innerNested.found found]

theorem merge_again (below : (Value.dict base).Nested Plain)
    (above : (Value.dict override).Nested Proper) :
    merge (merge base override) override = merge base override :=
  merge_again_of_values below.keys above.keys above.distinct fun entry member =>
    laid_again (above.values entry member) fun _ found => below.found found

/-! ### The three tiers of a configuration -/

theorem default_nested : (Value.dict Settings.default.toEntries).Nested Proper := by
  have sections : Value.dict Settings.default.toEntries = .ofFields
      [("quotes", .ofFields (windowFields Settings.default.quotes)),
        ("fees", .ofFields (feeFields Settings.default.fees)),
        ("summary", .ofFields (summaryFields Settings.default.summary)),
        ("logging", .ofFields (loggingFields Settings.default.logging))] := rfl
  have fees : (Value.ofFields (feeFields Settings.default.fees)).Nested Proper := by
    refine nested_of_fields (by decide) ?_
    simp only [feeFields, List.forall_mem_cons]
    exact ⟨.leaf rfl, .mapping (by simp) List.Pairwise.nil (by simp), by simp⟩
  rw [sections]
  refine nested_of_fields (by decide) ?_
  simp only [List.forall_mem_cons]
  refine ⟨nested_of_leaves (by decide) ?_, fees, nested_of_leaves (by decide) ?_,
    nested_of_leaves (by decide) ?_, by simp⟩
  all_goals
    simp [windowFields, summaryFields, loggingFields, Settings.default, defaultWindow, entries?,
      opened]

variable {loader : Loader} {file : Entries}

/-- Whatever a file holds, no mapping of it has a key twice. -/
theorem file_keyed (read : loader.fileEntries = .ok file) :
    (Value.dict file).WellKeyed Plain := by
  have empty : (Value.dict []).WellKeyed Plain := .mapping (by simp) List.Pairwise.nil (by simp)
  unfold Loader.fileEntries at read
  split_ifs at read
  · cases read
    exact empty
  · obtain ⟨text, -, answer⟩ := bind_eq_ok read
    split at answer
    · cases answer
    · cases answer
    · cases answer
      exact empty
    · rename_i value _ found
      split at answer
      · rename_i entries known
        cases answer
        exact (Yaml.read_keyed text value found).of_entries known
      · cases answer

/-- Overrides are a mapping or not given at all. -/
theorem merged_eq (read : loader.fileEntries = .ok file) (overrides : Option Entries) :
    loader.merged (.ofOption .dict overrides) =
      .ok (merge (merge Settings.default.toEntries file) (overrides.getD [])) := by
  rw [Loader.merged, read]
  rcases overrides with _ | _ | ⟨entry, rest⟩
  · rw [Option.getD_none, merge_nil]
    rfl
  · rw [Option.getD_some, merge_nil]
    rfl
  · rfl

/-- In a merge of nested mappings every leaf of the one on top is a leaf. A leaf of the one below
whose path is no leaf's path on top is a leaf exactly if the path is missing on top, and there are
no other leaves. So every leaf of a configuration comes from the overrides, or else from the file,
or else from the defaults, and laying the same overrides over again changes nothing. A file is
nested unless one of its mappings holds itself. -/
theorem merge_precedence :
    (∀ {base override : Entries}, (Value.dict base).Nested Plain →
      (Value.dict override).Nested Plain →
      (∀ path leaf, (Value.dict override).LeafAt path leaf →
        (Value.dict (merge base override)).LeafAt path leaf) ∧
      (∀ path leaf, (Value.dict base).LeafAt path leaf →
        (∀ other, ¬ (Value.dict override).LeafAt path other) →
        ((Value.dict (merge base override)).LeafAt path leaf ↔
          (Value.dict override).Missing path)) ∧
      (∀ path leaf, (Value.dict (merge base override)).LeafAt path leaf →
        (Value.dict override).LeafAt path leaf ∨
          (Value.dict base).LeafAt path leaf ∧
            ∀ other, ¬ (Value.dict override).LeafAt path other)) ∧
    (∀ {base override : Entries}, (Value.dict base).Nested Plain →
      (Value.dict override).Nested Proper →
      merge (merge base override) override = merge base override) ∧
    (∀ {loader : Loader} {file : Entries} {overrides : Option Entries},
      loader.fileEntries = .ok file → (Value.dict file).Untied →
      (Value.dict (overrides.getD [])).Nested Plain →
      ∃ config, loader.merged (.ofOption .dict overrides) = .ok config ∧
        (∀ path leaf, (Value.dict config).LeafAt path leaf ↔
          (Value.dict (overrides.getD [])).LeafAt path leaf ∨
            (Value.dict (overrides.getD [])).Missing path ∧
              ((Value.dict file).LeafAt path leaf ∨
                (Value.dict file).Missing path ∧
                  (Value.dict Settings.default.toEntries).LeafAt path leaf)) ∧
        ((Value.dict (overrides.getD [])).Nested Proper →
          merge config (overrides.getD []) = config)) := by
  have plain {value : Value} : value.Nested Proper → value.Nested Plain :=
    Nested.mono fun _ proper => proper.1
  refine ⟨?_, merge_again, ?_⟩
  · intro base override below above
    refine ⟨?_, ?_, ?_⟩
    · intro path leaf top
      exact (leaf_merge_iff below above).mpr (.inl top)
    · intro path leaf led others
      rw [leaf_merge_iff below above]
      simp [others leaf, led]
    · intro path leaf led
      rcases (leaf_merge_iff below above).mp led with top | ⟨missing, under⟩
      · exact .inl top
      · exact .inr ⟨under, fun _ => missing.not_leaf_at⟩
  · intro loader file overrides read untied nestedGiven
    have nestedFile := untied.nested (file_keyed read)
    have lower := nested_merge (plain default_nested) nestedFile
    refine ⟨_, merged_eq read overrides, ?_, merge_again lower⟩
    intro path leaf
    rw [leaf_merge_iff lower nestedGiven, leaf_merge_iff (plain default_nested) nestedFile]

def krakenLoader : Loader where
  files := { entries := [(["spread.yaml"],
    .file "fees:\n  default_fee: '0.0015'\n  fee_overrides:\n    kraken: '0.0026'\n")] }
  directory := .ofText ""

def krakenFile : Entries :=
  [(.text "fees", .ofFields [("default_fee", .text "0.0015"),
    ("fee_overrides", .ofFields [("kraken", .text "0.0026")])])]

def isKrakenFile : Entries → Bool
  | [(.text place, .dict [(.text name, .text fee),
      (.text overrides, .dict [(.text exchange, .text own)])])] =>
      place == "fees" && name == "default_fee" && fee == "0.0015" &&
        overrides == "fee_overrides" && exchange == "kraken" && own == "0.0026"
  | _ => false

theorem kraken_file : krakenLoader.fileEntries = .ok krakenFile := by
  have read : krakenLoader.fileEntries.toOption.any isKrakenFile = true := by
    decide +kernel
  refine ok_of_test read fun entries written => ?_
  unfold isKrakenFile at written
  split at written
  · simp only [Bool.and_eq_true, beq_iff_eq] at written
    obtain ⟨⟨⟨⟨⟨rfl, rfl⟩, rfl⟩, rfl⟩, rfl⟩, rfl⟩ := written
    rfl
  · cases written

def shorterAge : Entries :=
  [(.text "quotes", .ofFields [("max_age_seconds", .int 5)]),
    (.text "fees", .ofFields [("default_fee", .text "0.001")])]

theorem kraken_file_nested : (Value.dict krakenFile).Nested Proper := by
  have sections : Value.dict krakenFile = .ofFields [("fees", .ofFields
      [("default_fee", .text "0.0015"),
        ("fee_overrides", .ofFields [("kraken", .text "0.0026")])])] := rfl
  rw [sections]
  refine nested_of_fields (by decide) (List.forall_mem_singleton.mpr ?_)
  refine nested_of_fields (by decide) ?_
  simp only [List.forall_mem_cons]
  exact ⟨.leaf rfl, nested_of_leaves (by decide) (List.forall_mem_singleton.mpr rfl), by simp⟩

theorem shorter_age_nested : (Value.dict shorterAge).Nested Proper := by
  have sections : Value.dict shorterAge = .ofFields
      [("quotes", .ofFields [("max_age_seconds", .int 5)]),
        ("fees", .ofFields [("default_fee", .text "0.001")])] := rfl
  rw [sections]
  refine nested_of_fields (by decide) ?_
  simp only [List.forall_mem_cons]
  exact ⟨nested_of_leaves (by decide) (List.forall_mem_singleton.mpr rfl),
    nested_of_leaves (by decide) (List.forall_mem_singleton.mpr rfl), by simp⟩

/-- A value from each tier: the overrides give an age and a fee, the file the fee of an exchange,
and the defaults the skew. -/
theorem kraken_config_tiers :
    (∃ config, krakenLoader.merged (.ofOption .dict (some shorterAge)) = .ok config ∧
      (Value.dict config).LeafAt [.text "quotes", .text "max_age_seconds"] (.int 5) ∧
      (Value.dict config).LeafAt [.text "fees", .text "default_fee"] (.text "0.001") ∧
      (Value.dict config).LeafAt [.text "fees", .text "fee_overrides", .text "kraken"]
        (.text "0.0026") ∧
      (Value.dict config).LeafAt [.text "quotes", .text "max_future_skew_seconds"] (.int 30) ∧
      merge config shorterAge = config) ∧
    (Value.dict (merge krakenFile shorterAge)).LeafAt
      [.text "fees", .text "fee_overrides", .text "kraken"] (.text "0.0026") ∧
    merge (merge krakenFile shorterAge) shorterAge = merge krakenFile shorterAge := by
  obtain ⟨leaves, again, tiers⟩ := merge_precedence
  have file : (Value.dict krakenFile).Nested Plain :=
    kraken_file_nested.mono fun _ proper => proper.1
  have given : (Value.dict ((some shorterAge).getD [])).Nested Plain :=
    shorter_age_nested.mono fun _ proper => proper.1
  have unset : (Value.dict shorterAge).Missing
      [.text "fees", .text "fee_overrides", .text "kraken"] :=
    ⟨[.text "fees"], .text "fee_overrides", [.text "kraken"], _, rfl, rfl, rfl⟩
  have own : (Value.dict krakenFile).LeafAt
      [.text "fees", .text "fee_overrides", .text "kraken"] (.text "0.0026") := ⟨rfl, rfl⟩
  obtain ⟨config, merged, leafIff, same⟩ := tiers kraken_file file.untied given
  refine ⟨⟨config, merged, ?_, ?_, ?_, ?_, same shorter_age_nested⟩, ?_,
    again file shorter_age_nested⟩
  · exact (leafIff _ _).mpr (.inl ⟨rfl, rfl⟩)
  · exact (leafIff _ _).mpr (.inl ⟨rfl, rfl⟩)
  · exact (leafIff _ _).mpr (.inr ⟨unset, .inl own⟩)
  · refine (leafIff _ _).mpr (.inr ⟨?_, .inr ⟨?_, ⟨rfl, rfl⟩⟩⟩)
    · exact ⟨[.text "quotes"], .text "max_future_skew_seconds", [], _, rfl, rfl, rfl⟩
    · exact ⟨[], .text "quotes", [.text "max_future_skew_seconds"], _, rfl, rfl, rfl⟩
  · exact ((leaves file given).2.1 _ _ own fun _ => unset.not_leaf_at).mpr unset

end SpreadWatch.Config
