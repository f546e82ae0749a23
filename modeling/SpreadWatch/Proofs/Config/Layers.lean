import SpreadWatch.Proofs.Config.Merge

/-!
Values in layers. A value that is laid over what lies below may itself have been laid over something
given in between. Laying what came out of a merge over its upper layer, and this over the lower one
again, gives the same mapping: the upper layer has grown at its end by what it did not have, and
all of it was there already.
-/

namespace SpreadWatch

namespace Entries

variable {entries : Entries} {key query value : Value}

theorem insert_of_absent (absent : entries.find? key = none) :
    entries.insert key value = entries ++ [(key, value)] := by
  induction entries with
  | nil => rfl
  | cons entry rest induction =>
      obtain ⟨known, old⟩ := entry
      rw [find_cons] at absent
      split_ifs at absent with here
      rw [Entries.insert, if_neg here, induction absent, List.cons_append]

theorem keys_of_insert {P : Value → Prop} (all : ∀ entry ∈ entries.insert key value, P entry.1) :
    ∀ entry ∈ entries, P entry.1 := by
  induction entries with
  | nil => simp
  | cons entry rest induction =>
      obtain ⟨known, old⟩ := entry
      rw [Entries.insert] at all
      split_ifs at all with here
      · obtain ⟨head, tail⟩ := List.forall_mem_cons.mp all
        exact List.forall_mem_cons.mpr ⟨head, tail⟩
      · obtain ⟨head, tail⟩ := List.forall_mem_cons.mp all
        exact List.forall_mem_cons.mpr ⟨head, induction tail⟩

theorem find_append (first second : Entries) :
    find? (first ++ second) query = (first.find? query).or (second.find? query) := by
  rw [find?, List.find?_append, Option.map_or]
  rfl

end Entries

namespace Config

open Value

variable {allowed : Value → Prop} {base override first second : Entries} {key value : Value}
  {below given : Option Value}

/-! ### Merges in a row -/

theorem merge_append : merge base (first ++ second) = merge (merge base first) second := by
  induction first generalizing base with
  | nil => rw [List.nil_append, merge_nil]
  | cons entry rest induction =>
      obtain ⟨key, value⟩ := entry
      rw [List.cons_append, merge_cons, merge_cons, induction]

theorem merge_distinct (distinct : base.Distinct) : (merge base override).Distinct := by
  induction override generalizing base with
  | nil =>
      rw [merge_nil]
      exact distinct
  | cons entry rest induction =>
      obtain ⟨key, value⟩ := entry
      rw [merge_cons]
      exact induction distinct.insert

theorem merge_keyed (keyed : base.Keyed) (keyedToo : override.Keyed) :
    (merge base override).Keyed := by
  induction override generalizing base with
  | nil =>
      rw [merge_nil]
      exact keyed
  | cons entry rest induction =>
      obtain ⟨key, value⟩ := entry
      rw [merge_cons]
      exact induction (keyed.insert keyedToo.head) keyedToo.tail

theorem keys_of_lower {P : Value → Prop} (all : ∀ entry ∈ merge base override, P entry.1) :
    ∀ entry ∈ base, P entry.1 := by
  induction override generalizing base with
  | nil =>
      rw [merge_nil] at all
      exact all
  | cons entry rest induction =>
      obtain ⟨key, value⟩ := entry
      rw [merge_cons] at all
      exact Entries.keys_of_insert (induction all)

/-- If a mapping keeps what it has under the keys that are laid over it, it grows at its end only,
by the entries that it did not have. -/
theorem merge_grows (distinct : override.Distinct) (kept : ∀ entry ∈ override, ∀ found,
      base.find? entry.1 = some found → laid (some found) entry.2 = found) :
    merge base override = base ++ override.filter fun entry => (base.find? entry.1).isNone := by
  induction override generalizing base with
  | nil => rw [merge_nil, List.filter_nil, List.append_nil]
  | cons entry rest induction =>
      obtain ⟨key, value⟩ := entry
      obtain ⟨apart, distinctRest⟩ := List.pairwise_cons.mp distinct
      obtain ⟨keptHere, keptRest⟩ := List.forall_mem_cons.mp kept
      rw [merge_cons, List.filter_cons]
      cases has : base.find? key with
      | some found =>
          rw [keptHere found has, Entries.insert_of_find has]
          exact induction distinctRest keptRest
      | none =>
          have before : ∀ entry ∈ rest,
              Entries.find? (base ++ [(key, value)]) entry.1 = base.find? entry.1 := by
            intro entry member
            rw [Entries.find_append, Entries.find_cons, if_neg (by simp [apart entry member])]
            exact Option.or_none
          have unkept : (rest.filter fun entry =>
              (Entries.find? (base ++ [(key, value)]) entry.1).isNone) =
              rest.filter fun entry => (base.find? entry.1).isNone :=
            List.filter_congr fun entry member => by rw [before entry member]
          rw [laid_none, Entries.insert_of_absent has, induction distinctRest, unkept]
          · simp
          · intro entry member
            rw [before entry member]
            exact keptRest entry member

theorem merge_into_nothing (distinct : override.Distinct) : merge [] override = override := by
  have grown : merge [] override = _ := merge_grows distinct fun _ _ _ has => nomatch has
  simpa [Entries.find?] using grown

/-- The entries of what lies below, none if it is no mapping. -/
def within (below : Option Value) : Entries := (below.bind Value.entries?).getD []

theorem NestedBelow.within (nested : NestedBelow allowed below) :
    (Value.dict (within below)).Nested allowed := by
  rw [Config.within]
  cases inside : below.bind Value.entries? with
  | none => exact .mapping (by simp) List.Pairwise.nil (by simp)
  | some inner => exact nested.mapping inside

theorem laid_dict (distinct : override.Distinct) :
    laid below (.dict override) = .dict (merge (within below) override) := by
  rw [within]
  cases inside : below.bind Value.entries? with
  | none => rw [laid_over_nothing inside, Option.getD_none, merge_into_nothing distinct]
  | some inner => rw [laid_mapping inside, Option.getD_some]

/-- A merge whose values are leaves, laid over the upper of its two mappings and with it over the
lower one, comes out again. -/
theorem merge_back (above : (Value.dict override).Nested Plain)
    (nested : (Value.dict (merge base override)).Nested Proper)
    (leaves : ∀ entry ∈ merge base override, entry.2.entries? = none) :
    merge base (merge override (merge base override)) = merge base override := by
  have keyed : base.Keyed := keys_of_lower nested.plain.keys
  have found : ∀ entry ∈ merge base override,
      (merge base override).find? entry.1 = some entry.2 := fun entry member =>
    nested.distinct.find_member nested.plain.keys member (nested.keys entry member).2
  have kept : ∀ entry ∈ merge base override, ∀ upper,
      override.find? entry.1 = some upper → laid (some upper) entry.2 = upper := by
    intro entry member upper has
    have came := found entry member
    rw [find_merge keyed above.keys above.distinct, has] at came
    have leaf := leaves entry member
    rw [← Option.some.inj came] at leaf ⊢
    cases mapping : upper.entries? with
    | none => rw [laid_leaf mapping, laid_leaf mapping]
    | some entries =>
        obtain rfl := (above.found has).entries_eq mapping
        rw [laid_dict (above.found has).distinct] at leaf
        cases leaf
  rw [merge_grows nested.distinct kept, merge_append]
  apply merge_of_present
  intro entry member
  have old := List.mem_of_mem_filter member
  exact ⟨entry.2, found entry old, laid_leaf (leaves entry old)⟩

/-! ### Two layers below -/

/-- What comes of a value given over what lies below, if either is there. -/
def layered (below given : Option Value) : Option Value :=
  match given with
  | none => below
  | some value => some (laid below value)

theorem get_layered (keyed : base.Keyed) (keyedToo : override.Keyed)
    (distinct : override.Distinct) (name : String) :
    (merge base override).get? name = layered (base.get? name) (override.get? name) :=
  find_merge keyed keyedToo distinct

theorem get_relaid {top : Entries} (keyed : base.Keyed)
    (middle : (Value.dict override).Nested Plain) (above : (Value.dict top).Nested Plain)
    (name : String) :
    (merge base (merge override top)).get? name =
      layered (base.get? name) (layered (override.get? name) (top.get? name)) := by
  rw [get_layered keyed (merge_keyed middle.keys above.keys) (merge_distinct middle.distinct),
    get_layered middle.keys above.keys above.distinct]

/-- The entries of two layers that are a mapping together. -/
theorem entries_of_layered {entries : Entries} (above : NestedBelow Plain given)
    (mapping : ((layered below given).getD (.dict [])).entries? = some entries) :
    entries = merge (within below) (within given) := by
  cases given with
  | none =>
      have nothing : within none = [] := rfl
      rw [nothing, merge_nil]
      cases below with
      | none =>
          cases mapping
          rfl
      | some part =>
          have mapping : part.entries? = some entries := mapping
          rw [within, Option.bind_some, mapping, Option.getD_some]
  | some value =>
      have mapping : (laid below value).entries? = some entries := mapping
      cases known : value.entries? with
      | none =>
          rw [laid_leaf known, known] at mapping
          cases mapping
      | some upper =>
          obtain rfl := (above value rfl).entries_eq known
          rw [laid_dict (above _ rfl).distinct] at mapping
          cases mapping
          rfl

theorem laid_self (nested : value.Nested Proper) : laid (some value) value = value := by
  have nothing : NestedBelow Plain none := fun _ found => nomatch found
  have again := laid_again nested nothing
  rwa [laid_none] at again

/-- What came of two layers is laid over both of them again and comes out again, if it is a leaf or
a mapping of leaves. -/
theorem laid_back {otherwise : Value} (above : NestedBelow Plain given)
    (came : value = (layered below given).getD otherwise) (nested : value.Nested Proper)
    (leaves : ∀ entries, value.entries? = some entries →
      ∀ entry ∈ entries, entry.2.entries? = none) :
    laid below (laid given value) = value := by
  cases given with
  | none =>
      rw [laid_none]
      cases below with
      | none => exact laid_none
      | some found =>
          obtain rfl : value = found := came
          exact laid_self nested
  | some upper =>
      have came : value = laid below upper := came
      cases mapping : upper.entries? with
      | none =>
          obtain rfl : value = upper := came.trans (laid_leaf mapping)
          rw [laid_leaf mapping, laid_leaf mapping]
      | some entries =>
          obtain rfl := (above upper rfl).entries_eq mapping
          obtain rfl : value = .dict (merge (within below) entries) :=
            came.trans (laid_dict (above _ rfl).distinct)
          rw [laid_over_mapping, laid_dict (merge_distinct (above _ rfl).distinct),
            merge_back (above _ rfl) nested (leaves _ rfl)]

/-! ### Mappings that hold themselves -/

theorem laid_knot {label : ℕ} {inner entries : Entries}
    (inside : below.bind Value.entries? = some inner) :
    laid below (.knot label (.dict entries)) =
      fill label (.knot label (.dict entries)) (.dict (merge inner entries)) := by
  unfold laid
  rw [inside]

def KeyedBelow (allowed : Value → Prop) (below : Option Value) : Prop :=
  ∀ found, below = some found → found.WellKeyed allowed

theorem KeyedBelow.mapping {inner : Entries} (keyed : KeyedBelow allowed below)
    (inside : below.bind Value.entries? = some inner) : (Value.dict inner).WellKeyed allowed := by
  obtain ⟨found, rfl, mapped⟩ := Option.bind_eq_some_iff.mp inside
  exact (keyed found rfl).of_entries mapped

theorem well_keyed_merge_of_values (keys : ∀ entry ∈ override, allowed entry.1)
    (values : ∀ entry ∈ override, ∀ {below}, KeyedBelow allowed below →
      (laid below entry.2).WellKeyed allowed) (keyed : (Value.dict base).WellKeyed allowed) :
    (Value.dict (merge base override)).WellKeyed allowed := by
  induction override generalizing base with
  | nil =>
      rw [merge_nil]
      exact keyed
  | cons entry rest induction =>
      obtain ⟨key, value⟩ := entry
      obtain ⟨proper, properRest⟩ := List.forall_mem_cons.mp keys
      obtain ⟨inner, innerRest⟩ := List.forall_mem_cons.mp values
      rw [merge_cons]
      exact induction properRest innerRest
        (keyed.insert proper (inner fun _ found => keyed.found found))

theorem well_keyed_laid (keyed : value.WellKeyed allowed) (keyedBelow : KeyedBelow allowed below) :
    (laid below value).WellKeyed allowed := by
  induction keyed generalizing below with
  | leaf leaf =>
      rw [laid_leaf leaf]
      exact .leaf leaf
  | mapping keys distinct values induction =>
      cases inside : below.bind Value.entries? with
      | none =>
          rw [laid_over_nothing inside]
          exact .mapping keys distinct values
      | some inner =>
          rw [laid_mapping inside]
          exact well_keyed_merge_of_values keys induction (keyedBelow.mapping inside)
  | @knot label entries body induction =>
      have whole : (Value.knot label (.dict entries)).WellKeyed allowed := .knot body
      cases inside : below.bind Value.entries? with
      | none =>
          rw [laid_over_nothing inside]
          exact whole
      | some inner =>
          have merged := induction keyedBelow
          rw [laid_mapping inside] at merged
          rw [laid_knot inside]
          exact whole.fill merged

theorem well_keyed_merge (below : (Value.dict base).WellKeyed allowed)
    (above : (Value.dict override).WellKeyed allowed) :
    (Value.dict (merge base override)).WellKeyed allowed :=
  well_keyed_merge_of_values above.inside.1 (fun entry member _ keyedBelow =>
    well_keyed_laid (above.inside.2.2 entry member) keyedBelow) below

/-- A knot of a mapping comes of two layers only if it is the lower one. -/
theorem knot_of_layered {label : ℕ} {entries : Entries} (above : NestedBelow Plain given)
    (knot : (layered below given).getD (.dict []) = .knot label (.dict entries)) :
    below = some (.knot label (.dict entries)) := by
  cases given with
  | none =>
      cases below with
      | none => cases knot
      | some value => exact congrArg some knot
  | some value =>
      have knot : laid below value = .knot label (.dict entries) := knot
      cases mapping : value.entries? with
      | none =>
          rw [laid_leaf mapping] at knot
          rw [knot, entries_of_knot] at mapping
          cases mapping
      | some own =>
          obtain rfl := (above value rfl).entries_eq mapping
          rw [laid_dict (above _ rfl).distinct] at knot
          cases knot

/-- Over a mapping, a knot of a mapping is untied. -/
theorem layered_over_mapping {inner : Entries}
    (came : layered (some (.dict inner)) given = some value) :
    (∃ entries, value = .dict entries) ∨
      given = some value ∧ ∀ label entries, value ≠ .knot label (.dict entries) := by
  cases given with
  | none =>
      cases came
      exact .inl ⟨_, rfl⟩
  | some upper =>
      replace came : laid (some (.dict inner)) upper = value := Option.some.inj came
      unfold laid at came
      split at came
      · exact .inl ⟨_, came.symm⟩
      · rw [fill] at came
        exact .inl ⟨_, came.symm⟩
      · rename_i other
        subst came
        exact .inr ⟨rfl, fun label entries => other inner label entries rfl⟩

end Config

end SpreadWatch
