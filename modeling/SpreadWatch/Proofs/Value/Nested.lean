import SpreadWatch.Proofs.Value.Keys

/-!
Mappings inside of mappings, and the paths of keys through them. A path leads to a leaf if the value
at its end is no mapping. It is missing from a mapping if some key of it is, where the keys before
this one lead to a mapping.
-/

namespace SpreadWatch

namespace Value

/-- A value with mappings inside of each other to some depth, with keys of a certain kind. No key is
given twice, and no mapping holds itself. -/
inductive Nested (allowed : Value → Prop) : Value → Prop
  | leaf {value : Value} (leaf : value.entries? = none) : Nested allowed value
  | mapping {entries : Entries} (keys : ∀ entry ∈ entries, allowed entry.1)
      (distinct : entries.Distinct) (values : ∀ entry ∈ entries, Nested allowed entry.2) :
      Nested allowed (.dict entries)

/-- A key that is found where it was put. -/
def Proper (key : Value) : Prop := key.Plain ∧ key.sameKey key = true

def at? : Value → List Value → Option Value
  | value, [] => some value
  | value, key :: rest => (value.entries?.bind (Entries.find? · key)).bind (at? · rest)

def LeafAt (value : Value) (path : List Value) (leaf : Value) : Prop :=
  value.at? path = some leaf ∧ leaf.entries? = none

/-- Some key of a path is missing from the mapping that the keys before it lead to. -/
def Missing (value : Value) (path : List Value) : Prop :=
  ∃ before key after entries, path = before ++ key :: after ∧
    (value.at? before).bind entries? = some entries ∧ Entries.find? entries key = none

variable {allowed : Value → Prop} {value leaf key : Value} {entries : Entries}
  {path rest : List Value}

theorem entries_of_dict (entries : Entries) : (Value.dict entries).entries? = some entries := rfl

theorem Nested.mono {larger : Value → Prop} (subset : ∀ key, allowed key → larger key)
    (nested : value.Nested allowed) : value.Nested larger := by
  induction nested with
  | leaf leaf => exact .leaf leaf
  | mapping keys distinct _ induction =>
      exact .mapping (fun entry member => subset _ (keys entry member)) distinct induction

theorem Nested.plain (nested : value.Nested Proper) : value.Nested Plain :=
  nested.mono fun _ proper => proper.1

/-- A mapping that is nested is written as one. -/
theorem Nested.entries_eq (nested : value.Nested allowed) (known : value.entries? = some entries) :
    value = .dict entries := by
  cases nested with
  | leaf leaf =>
      rw [leaf] at known
      cases known
  | mapping keys distinct values =>
      rw [entries_of_dict] at known
      rw [Option.some.inj known]

theorem Nested.keys (nested : (Value.dict entries).Nested allowed) :
    ∀ entry ∈ entries, allowed entry.1 := by
  cases nested with
  | leaf leaf => cases leaf
  | mapping keys distinct values => exact keys

theorem Nested.distinct (nested : (Value.dict entries).Nested allowed) : entries.Distinct := by
  cases nested with
  | leaf leaf => cases leaf
  | mapping keys distinct values => exact distinct

theorem Nested.values (nested : (Value.dict entries).Nested allowed) :
    ∀ entry ∈ entries, entry.2.Nested allowed := by
  cases nested with
  | leaf leaf => cases leaf
  | mapping keys distinct values => exact values

theorem Nested.found (nested : (Value.dict entries).Nested allowed)
    (found : Entries.find? entries key = some value) : value.Nested allowed := by
  obtain ⟨entry, first, rfl⟩ := Option.map_eq_some_iff.mp found
  exact nested.values entry (List.mem_of_find?_eq_some first)

theorem Nested.insert (nested : (Value.dict entries).Nested allowed) (proper : allowed key)
    (inner : value.Nested allowed) :
    (Value.dict (Entries.insert entries key value)).Nested allowed :=
  .mapping (Entries.forall_mem_insert nested.keys (fun _ _ known => known) proper)
    nested.distinct.insert (Entries.forall_mem_insert nested.values (fun _ _ _ => inner) inner)

/-! ### Paths -/

theorem not_leaf_at_nil : ¬ (Value.dict entries).LeafAt [] leaf := by
  rintro ⟨led, plain⟩
  obtain rfl := Option.some.inj led
  cases plain

/-- From what is no mapping no path leads on. -/
theorem LeafAt.nil_of_leaf (led : value.LeafAt path leaf) (plain : value.entries? = none) :
    path = [] := by
  cases path with
  | nil => rfl
  | cons key rest =>
      have onward := led.1
      rw [at?, plain] at onward
      cases onward

theorem leaf_at_cons :
    (Value.dict entries).LeafAt (key :: rest) leaf ↔
      ∃ value, Entries.find? entries key = some value ∧ value.LeafAt rest leaf := by
  rw [LeafAt, at?, entries_of_dict, Option.bind_some, Option.bind_eq_some_iff]
  simp only [LeafAt]
  constructor
  · rintro ⟨⟨value, found, led⟩, plain⟩
    exact ⟨value, found, led, plain⟩
  · rintro ⟨value, found, led, plain⟩
    exact ⟨⟨value, found, led⟩, plain⟩

theorem not_missing_nil : ¬ value.Missing [] := by
  rintro ⟨before, key, after, entries, split, -⟩
  cases before <;> cases split

theorem missing_cons :
    (Value.dict entries).Missing (key :: rest) ↔
      Entries.find? entries key = none ∨
        ∃ value, Entries.find? entries key = some value ∧ value.Missing rest := by
  constructor
  · rintro ⟨before, missing, after, inner, split, led, absent⟩
    cases before with
    | nil =>
        cases split
        rw [at?, Option.bind_some, entries_of_dict] at led
        cases led
        exact .inl absent
    | cons first before =>
        cases split
        rw [at?, entries_of_dict, Option.bind_some] at led
        cases found : Entries.find? entries key with
        | none => exact .inl rfl
        | some value =>
            rw [found, Option.bind_some] at led
            exact .inr ⟨value, rfl, before, missing, after, inner, rfl, led, absent⟩
  · rintro (absent | ⟨value, found, before, missing, after, inner, rfl, led, absent⟩)
    · exact ⟨[], key, rest, entries, rfl, rfl, absent⟩
    · refine ⟨key :: before, missing, after, inner, rfl, ?_, absent⟩
      rw [at?, entries_of_dict, Option.bind_some, found, Option.bind_some]
      exact led

/-- Below what is no mapping nothing is missing. -/
theorem not_missing_of_leaf (leaf : value.entries? = none) : ¬ value.Missing path := by
  rintro ⟨before, key, after, entries, -, led, -⟩
  cases before with
  | nil =>
      rw [at?, Option.bind_some, leaf] at led
      cases led
  | cons first before =>
      rw [at?, leaf] at led
      cases led

theorem at_append {value : Value} {before after : List Value} :
    value.at? (before ++ after) = (value.at? before).bind (at? · after) := by
  induction before generalizing value with
  | nil => rfl
  | cons key before induction =>
      rw [List.cons_append, at?, at?]
      cases value.entries?.bind (Entries.find? · key) with
      | none => rfl
      | some inner => exact induction

/-- A path that is missing leads nowhere. -/
theorem Missing.not_leaf_at (missing : value.Missing path) : ¬ value.LeafAt path leaf := by
  obtain ⟨before, key, after, entries, rfl, led, absent⟩ := missing
  obtain ⟨inner, reached, mapping⟩ := Option.bind_eq_some_iff.mp led
  rintro ⟨leads, -⟩
  rw [at_append, reached, Option.bind_some, at?, mapping, Option.bind_some, absent] at leads
  cases leads

theorem nested_of_fields {fields : List (String × Value)}
    (names : (fields.map (·.1)).Nodup) (values : ∀ field ∈ fields, field.2.Nested Proper) :
    (Value.ofFields fields).Nested Proper := by
  refine .mapping ?_ ?_ ?_
  · intro entry member
    obtain ⟨field, -, rfl⟩ := List.mem_map.mp member
    exact ⟨trivial, by simp [sameKey]⟩
  · have apart : fields.Pairwise fun field later => field.1 ≠ later.1 := List.pairwise_map.mp names
    exact List.pairwise_map.mpr (apart.imp fun differ => by simpa [sameKey] using differ)
  · intro entry member
    obtain ⟨field, listed, rfl⟩ := List.mem_map.mp member
    exact values field listed

theorem nested_of_leaves {fields : List (String × Value)}
    (names : (fields.map (·.1)).Nodup) (leaves : ∀ field ∈ fields, field.2.entries? = none) :
    (Value.ofFields fields).Nested Proper :=
  nested_of_fields names fun field member => .leaf (leaves field member)

/-! ### Mappings that may hold themselves -/

/-- A value in whose mappings no key is given twice. A mapping that holds itself is such a value if
the mapping in its knot is one. -/
inductive WellKeyed (allowed : Value → Prop) : Value → Prop
  | leaf {value : Value} (leaf : value.entries? = none) : WellKeyed allowed value
  | mapping {entries : Entries} (keys : ∀ entry ∈ entries, allowed entry.1)
      (distinct : entries.Distinct) (values : ∀ entry ∈ entries, WellKeyed allowed entry.2) :
      WellKeyed allowed (.dict entries)
  | knot {label : ℕ} {entries : Entries} (body : WellKeyed allowed (.dict entries)) :
      WellKeyed allowed (.knot label (.dict entries))

theorem Nested.well_keyed (nested : value.Nested allowed) : value.WellKeyed allowed := by
  induction nested with
  | leaf leaf => exact .leaf leaf
  | mapping keys distinct _ induction => exact .mapping keys distinct induction

theorem WellKeyed.inside (keyed : (Value.dict entries).WellKeyed allowed) :
    (∀ entry ∈ entries, allowed entry.1) ∧ entries.Distinct ∧
      ∀ entry ∈ entries, entry.2.WellKeyed allowed := by
  cases keyed with
  | leaf leaf => cases leaf
  | mapping keys distinct values => exact ⟨keys, distinct, values⟩

theorem WellKeyed.found (keyed : (Value.dict entries).WellKeyed allowed)
    (found : Entries.find? entries key = some value) : value.WellKeyed allowed := by
  obtain ⟨entry, first, rfl⟩ := Option.map_eq_some_iff.mp found
  exact keyed.inside.2.2 entry (List.mem_of_find?_eq_some first)

/-- A member of a mapping, or the empty mapping in place of one. -/
theorem WellKeyed.member (keyed : (Value.dict entries).WellKeyed allowed) (name : String) :
    ((Entries.get? entries name).getD (.dict [])).WellKeyed allowed := by
  cases found : Entries.get? entries name with
  | none => exact .mapping (by simp) List.Pairwise.nil (by simp)
  | some value => exact keyed.found found

theorem WellKeyed.insert (keyed : (Value.dict entries).WellKeyed allowed) (proper : allowed key)
    (inner : value.WellKeyed allowed) :
    (Value.dict (Entries.insert entries key value)).WellKeyed allowed := by
  obtain ⟨keys, distinct, values⟩ := keyed.inside
  exact .mapping (Entries.forall_mem_insert keys (fun _ _ known => known) proper) distinct.insert
    (Entries.forall_mem_insert values (fun _ _ _ => inner) inner)

inductive Untied : Value → Prop
  | leaf {value : Value} (leaf : value.entries? = none) : Untied value
  | mapping {entries : Entries} (values : ∀ entry ∈ entries, Untied entry.2) :
      Untied (.dict entries)

theorem Nested.untied (nested : value.Nested allowed) : value.Untied := by
  induction nested with
  | leaf leaf => exact .leaf leaf
  | mapping _ _ _ induction => exact .mapping induction

theorem Untied.nested (untied : value.Untied) (keyed : value.WellKeyed allowed) :
    value.Nested allowed := by
  induction untied with
  | leaf leaf => exact .leaf leaf
  | mapping values induction =>
      cases keyed with
      | leaf leaf => cases leaf
      | mapping keys distinct values =>
          exact .mapping keys distinct fun entry member =>
            induction entry member (values entry member)

theorem fill_entries_eq (label : ℕ) (whole : Value) (entries : Entries) :
    fillEntries label whole entries =
      entries.map fun entry => (entry.1, fill label whole entry.2) := by
  induction entries with
  | nil => simp [fillEntries]
  | cons entry rest induction =>
      obtain ⟨key, value⟩ := entry
      rw [fillEntries, induction]
      rfl

theorem dict_of_filled {label inner : ℕ} {body : Value}
    (filled : fill label (.knot inner body) value = .dict entries) :
    ∃ old, value = .dict old := by
  cases value with
  | dict old => exact ⟨old, rfl⟩
  | back other =>
      rw [fill] at filled
      split_ifs at filled
  | knot other content =>
      rw [fill] at filled
      split_ifs at filled
  | _ => simp [fill] at filled

theorem entries_of_knot (label : ℕ) (entries : Entries) :
    (Value.knot label (.dict entries)).entries? =
      some (fillEntries label (.knot label (.dict entries)) entries) := by
  simp [entries?, opened, fill]

theorem get_filled (label : ℕ) (whole : Value) (entries : Entries) (name : String) :
    Entries.get? (fillEntries label whole entries) name =
      (Entries.get? entries name).map (fill label whole) := by
  rw [fill_entries_eq, Entries.get?, Entries.get?, Entries.find?, Entries.find?, List.find?_map,
    Option.map_map, Option.map_map]
  rfl

/-- What becomes a knot of a mapping when a knot is filled in was one, or it refers to the knot. -/
theorem knot_of_filled {label inner outer : ℕ} {body : Value}
    (filled : fill label (.knot inner body) value = .knot outer (.dict entries)) :
    value = .back label ∧ Value.knot inner body = .knot outer (.dict entries) ∨
      ∃ old, value = .knot outer (.dict old) := by
  cases value with
  | back other =>
      rw [fill] at filled
      split_ifs at filled with here
      exact .inl ⟨by rw [here], filled⟩
  | knot other content =>
      rw [fill] at filled
      split_ifs at filled
      · cases filled
        exact .inr ⟨_, rfl⟩
      · obtain ⟨rfl, inside⟩ := Value.knot.inj filled
        obtain ⟨old, rfl⟩ := dict_of_filled inside
        exact .inr ⟨old, rfl⟩
  | _ => simp [fill] at filled

/-- A knot of anything but a mapping is a leaf. -/
theorem knot_leaf {label : ℕ} {content : Value} (other : ∀ entries, content ≠ .dict entries) :
    (Value.knot label content).entries? = none := by
  rw [entries?, opened]
  split
  · rename_i entries filled
    obtain ⟨old, same⟩ := dict_of_filled filled
    exact absurd same (other old)
  · rfl

theorem WellKeyed.fill {label : ℕ} {body : Value}
    (whole : (Value.knot label body).WellKeyed allowed) (keyed : value.WellKeyed allowed) :
    (fill label (.knot label body) value).WellKeyed allowed := by
  induction keyed with
  | @leaf value leaf =>
      cases value with
      | back other =>
          rw [Value.fill]
          split_ifs
          · exact whole
          · exact .leaf leaf
      | dict entries => cases leaf
      | knot other content =>
          rw [Value.fill]
          split_ifs
          · exact .leaf leaf
          · refine .leaf (knot_leaf fun entries filled => ?_)
            obtain ⟨old, rfl⟩ := dict_of_filled filled
            rw [entries_of_knot] at leaf
            cases leaf
      | _ => exact .leaf (by simp [Value.fill, entries?, opened])
  | mapping keys distinct _ induction =>
      rw [Value.fill, fill_entries_eq]
      refine .mapping ?_ (List.pairwise_map.mpr distinct) ?_
      · exact List.forall_mem_map.mpr keys
      · exact List.forall_mem_map.mpr induction
  | @knot inner entries body induction =>
      rw [Value.fill]
      split_ifs
      · exact .knot body
      · rw [Value.fill] at induction ⊢
        exact .knot induction

theorem WellKeyed.of_entries (keyed : value.WellKeyed allowed)
    (known : value.entries? = some entries) : (Value.dict entries).WellKeyed allowed := by
  cases keyed with
  | leaf leaf =>
      rw [leaf] at known
      cases known
  | mapping keys distinct values =>
      cases known
      exact .mapping keys distinct values
  | @knot label content body =>
      rw [entries_of_knot] at known
      cases known
      have whole : (Value.knot label (.dict content)).WellKeyed allowed := .knot body
      have filled := whole.fill body
      rwa [Value.fill] at filled

end Value

end SpreadWatch
