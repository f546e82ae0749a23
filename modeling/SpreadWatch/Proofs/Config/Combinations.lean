import SpreadWatch.Proofs.Config.Accepted
import SpreadWatch.Proofs.Config.Escape

/-!
Trade combinations written out into pairs. A list of combinations is taken exactly if every entry
names two different exchanges and some instruments, none of them blank. Then every pair that is
named is there once, at the place where it is named first.
-/

namespace SpreadWatch

/-! ### Texts that are not blank -/

theorem Text.trim_eq_nil_iff (chars : List Char) :
    Text.trim chars = [] ↔ ∀ c ∈ chars, Text.isBlank c = true := by
  rw [Text.trim, Text.trimWhere, List.reverse_eq_nil_iff, List.dropWhile_eq_nil_iff]
  constructor
  · intro left c member
    by_contra solid
    rw [← List.takeWhile_append_dropWhile (p := Text.isBlank) (l := chars)] at member
    rcases List.mem_append.mp member with taken | kept
    · exact solid (List.mem_takeWhile_imp taken)
    · exact solid (left c (List.mem_reverse.mpr kept))
  · intro blank c member
    exact blank c ((List.dropWhile_suffix _).subset (List.mem_reverse.mp member))

namespace Config

variable {entry value : Value} {long short : String} {instruments : List String}
  {items : List Value} {pair : Pair}

def IsNamed (name : String) : Prop := Text.trim name.toList ≠ []

/-- An entry that combines two different exchanges and the instruments traded between them. -/
structure Combines (entry : Value) (long short : String) (instruments : List String) : Prop where
  longHeld : held? entry "long" = some (.text long)
  shortHeld : held? entry "short" = some (.text short)
  listed : (held? entry "instruments").bind Value.items? = some (instruments.map .text)
  differ : long ≠ short
  traded : instruments ≠ []
  named : ∀ name ∈ long :: short :: instruments, IsNamed name

def IsCombination (entry : Value) : Prop :=
  ∃ long short instruments, Combines entry long short instruments

/-! ### The check of an entry -/

theorem is_named_iff (name : String) : IsNamed name ↔ Text.isNonBlank name = true := by
  rw [IsNamed, ne_eq, Text.trim_eq_nil_iff, Text.isNonBlank, List.any_eq_true]
  simp

theorem is_name_iff : isName value = true ↔ ∃ name, value = .text name ∧ IsNamed name := by
  cases value <;> simp [isName, is_named_iff]

theorem is_same_text_iff (long short : String) :
    isSameText (.text long) (.text short) = true ↔ long = short :=
  beq_iff_eq

theorem is_instrument_list_iff : isInstrumentList value = true ↔
    ∃ names, value.items? = some (names.map .text) ∧ names ≠ [] ∧ ∀ name ∈ names, IsNamed name := by
  rw [isInstrumentList, Option.any_eq_true]
  simp only [Bool.and_eq_true, List.all_eq_true, is_name_iff, Bool.not_eq_true',
    List.isEmpty_eq_false_iff]
  constructor
  · rintro ⟨items, listed, some, texts⟩
    obtain ⟨names, rfl⟩ : items ∈ Set.range (List.map Value.text) := by
      rw [Set.range_list_map]
      intro item member
      obtain ⟨name, rfl, -⟩ := texts item member
      exact ⟨name, rfl⟩
    refine ⟨names, listed, by simpa using some, fun name member => ?_⟩
    obtain ⟨other, same, named⟩ := texts _ (List.mem_map_of_mem member)
    cases same
    exact named
  · rintro ⟨names, listed, some, named⟩
    refine ⟨_, listed, by simpa using some, fun item member => ?_⟩
    obtain ⟨name, given, rfl⟩ := List.mem_map.mp member
    exact ⟨name, rfl, named name given⟩

theorem get_eq_held {entries : Entries} (mapping : entry.entries? = some entries) (name : String) :
    Entries.get entries name = (held? entry name).getD .null := by
  rw [held_of_entries mapping]
  rfl

theorem held_of_get_text {name word : String} (given : (held? entry name).getD .null = .text word) :
    held? entry name = some (.text word) := by
  cases held : held? entry name with
  | none =>
      rw [held] at given
      cases given
  | some value =>
      rw [held] at given
      exact congrArg some given

/-- The check of an entry is sound and complete. -/
theorem check_combination_nil_iff (index : ℕ) :
    checkCombination index entry = [] ↔ IsCombination entry := by
  unfold checkCombination
  cases mapping : entry.entries? with
  | none =>
      refine iff_of_false (by simp [findingUnless]) ?_
      rintro ⟨long, short, instruments, combines⟩
      have held := combines.longHeld
      rw [held?, mapping] at held
      cases held
  | some entries =>
      simp only [List.append_eq_nil_iff, finding_unless_nil_iff, Bool.not_eq_true',
        get_eq_held mapping]
      constructor
      · rintro ⟨⟨⟨longName, shortName⟩, differ⟩, listed⟩
        obtain ⟨long, longGiven, longNamed⟩ := is_name_iff.mp longName
        obtain ⟨short, shortGiven, shortNamed⟩ := is_name_iff.mp shortName
        obtain ⟨names, namesGiven, traded, namesNamed⟩ := is_instrument_list_iff.mp listed
        have named : ∀ name ∈ long :: short :: names, IsNamed name :=
          List.forall_mem_cons.mpr ⟨longNamed, List.forall_mem_cons.mpr ⟨shortNamed, namesNamed⟩⟩
        refine ⟨long, short, names, held_of_get_text longGiven, held_of_get_text shortGiven, ?_,
          ?_, traded, named⟩
        · cases held : held? entry "instruments" with
          | none =>
              rw [held] at namesGiven
              cases namesGiven
          | some value =>
              rw [held] at namesGiven
              exact namesGiven
        · rw [longGiven, shortGiven] at differ
          rw [Ne, ← is_same_text_iff, differ]
          decide
      · rintro ⟨long, short, names, combines⟩
        obtain ⟨listed, held, items⟩ := Option.bind_eq_some_iff.mp combines.listed
        rw [combines.longHeld, combines.shortHeld, held]
        have longNamed := combines.named long (by simp)
        have shortNamed := combines.named short (by simp)
        refine ⟨⟨⟨is_name_iff.mpr ⟨long, rfl, longNamed⟩, is_name_iff.mpr ⟨short, rfl, shortNamed⟩⟩,
          ?_⟩, is_instrument_list_iff.mpr ⟨names, items, combines.traded, ?_⟩⟩
        · exact Bool.eq_false_iff.mpr fun same => combines.differ ((is_same_text_iff _ _).mp same)
        · exact fun name member => combines.named name (by simp [member])

/-- The check of a list looks at every entry. -/
theorem check_combinations_nil_iff (listed : value.items? = some items) :
    checkCombinations value = [] ↔ ∀ entry ∈ items, IsCombination entry := by
  rw [checkCombinations, listed]
  simp only [List.flatten_eq_nil_iff, List.mem_mapIdx, List.forall_mem_iff_getElem]
  constructor
  · intro nothing i inside
    exact (check_combination_nil_iff i).mp (nothing _ ⟨i, inside, rfl⟩)
  · rintro each _ ⟨i, inside, rfl⟩
    exact (check_combination_nil_iff i).mpr (each i inside)

/-! ### Pairs without repetitions -/

/-- A list without repetitions, in the order in which its members stand first in another. -/
structure FirstPlaces (pairs all : List Pair) : Prop where
  once : pairs.Nodup
  members : ∀ pair, pair ∈ pairs ↔ pair ∈ all
  order : pairs.Pairwise fun earlier later => all.idxOf earlier < all.idxOf later

theorem distinct_append (pairs : List Pair) (pair : Pair) :
    Loader.distinct (pairs ++ [pair]) =
      if (Loader.distinct pairs).contains pair then Loader.distinct pairs
      else Loader.distinct pairs ++ [pair] := by
  rw [Loader.distinct, List.foldl_append]
  rfl

/-- One more pair changes nothing if it is there already, and comes last if it is not. -/
theorem distinct_first_places (all : List Pair) : FirstPlaces (Loader.distinct all) all := by
  induction all using List.reverseRecOn with
  | nil => exact ⟨List.nodup_nil, fun _ => Iff.rfl, .nil⟩
  | append_singleton all pair induction =>
      obtain ⟨once, members, order⟩ := induction
      have kept : (Loader.distinct all).Pairwise fun earlier later =>
          (all ++ [pair]).idxOf earlier < (all ++ [pair]).idxOf later := by
        refine order.imp_of_mem fun earlierIn laterIn before => ?_
        rwa [List.idxOf_append_of_mem ((members _).mp earlierIn),
          List.idxOf_append_of_mem ((members _).mp laterIn)]
      rw [distinct_append]
      split_ifs with known
      · have seen : pair ∈ all := (members pair).mp (List.contains_iff_mem.mp known)
        refine ⟨once, fun other => ?_, kept⟩
        rw [members, List.mem_append, List.mem_singleton]
        exact ⟨.inl, fun either => either.elim id fun same => same ▸ seen⟩
      · have unseen : pair ∉ Loader.distinct all :=
          fun seen => known (List.contains_iff_mem.mpr seen)
        have new : pair ∉ all := fun seen => unseen ((members pair).mpr seen)
        refine ⟨?_, fun other => ?_, ?_⟩
        · rw [List.nodup_append_comm]
          exact List.nodup_cons.mpr ⟨unseen, once⟩
        · rw [List.mem_append, List.mem_append, members]
        · refine List.pairwise_append.mpr ⟨kept, List.pairwise_singleton _ _, ?_⟩
          intro earlier earlierIn last lastIs
          obtain rfl := List.mem_singleton.mp lastIs
          have before : earlier ∈ all := (members earlier).mp earlierIn
          rw [List.idxOf_append_of_mem before, List.idxOf_append_of_notMem new]
          exact Nat.lt_add_right _ (List.idxOf_lt_length_iff.mpr before)

/-! ### Writing out the combinations -/

def Stands (entry : Value) (group : List Pair) : Prop :=
  ∃ long short instruments, Combines entry long short instruments ∧
    group = instruments.map fun instrument => { long, short, instrument }

theorem stands_pairs_of (combination : IsCombination entry) :
    Stands entry (Loader.pairsOf entry) := by
  obtain ⟨long, short, instruments, combines⟩ := combination
  refine ⟨long, short, instruments, combines, ?_⟩
  obtain ⟨fields, mapping, -⟩ := Option.bind_eq_some_iff.mp combines.longHeld
  obtain ⟨listed, held, items⟩ := Option.bind_eq_some_iff.mp combines.listed
  simp only [Loader.pairsOf, mapping, get_eq_held mapping, combines.longHeld, combines.shortHeld,
    held, Option.getD_some, items]
  rw [List.filterMap_map]
  exact congrFun List.filterMap_eq_map instruments

/-- Of values that are filled into a knot, only a list becomes a list, of as many items. -/
theorem truthy_of_filled {label : ℕ} {content : Value}
    (filled : Value.fill label (.knot label content) content = .list items) :
    content.isTruthy = ! items.isEmpty := by
  cases content with
  | list old =>
      rw [Value.fill] at filled
      cases filled
      cases old <;> simp [Value.isTruthy, Value.fillItems]
  | back other =>
      rw [Value.fill] at filled
      split_ifs at filled
  | knot other content =>
      rw [Value.fill] at filled
      split_ifs at filled
  | _ => simp [Value.fill] at filled

/-- An empty list counts as false and any other as true. -/
theorem truthy_of_items (listed : value.items? = some items) :
    value.isTruthy = ! items.isEmpty := by
  unfold Value.items? at listed
  split at listed
  · rename_i opened
    cases listed
    cases value with
    | knot label content =>
        rw [Value.isTruthy]
        exact truthy_of_filled opened
    | list old =>
        cases opened
        rfl
    | _ => cases opened
  · cases listed

/-! ### Loading the pairs -/

section Loading

variable {loader : Loader} {overrides listed : Value} {config : Entries}

/-- The combinations that are checked and written out: what counts as false stands for none. -/
def considered (config : Entries) : Value :=
  if (config.get "trade_combinations").isTruthy then config.get "trade_combinations" else .list []

theorem get_of_given (given : config.get? "trade_combinations" = some listed) :
    config.get "trade_combinations" = listed := by
  rw [Entries.get, given]
  rfl

theorem pairs_of_checked (merged : loader.merged overrides = .ok config)
    (checked : checkCombinations (considered config) = []) :
    loader.pairs overrides =
      .ok (Loader.distinct (((considered config).items?.getD []).flatMap Loader.pairsOf)) := by
  rw [considered] at checked
  rw [Loader.pairs, merged]
  simp only [bind, Except.bind, checked]
  rfl

theorem pairs_of_findings (merged : loader.merged overrides = .ok config)
    (found : checkCombinations (considered config) ≠ []) :
    ∃ message, loader.pairs overrides =
      .error (refused message (checkCombinations (considered config))) := by
  have some : (checkCombinations (considered config)).isEmpty = false := by simpa using found
  rw [considered] at some
  rw [Loader.pairs, merged]
  simp only [bind, Except.bind, some]
  exact ⟨_, rfl⟩

theorem considered_items (given : config.get? "trade_combinations" = some listed)
    (list : listed.items? = some items) : (considered config).items? = some items := by
  rw [considered, get_of_given given, truthy_of_items list]
  cases items with
  | nil => rfl
  | cons item rest => exact list

/-- Whatever the entries of the list are: the pairs can be loaded exactly if every entry combines
two different exchanges and some instruments; else the configuration is refused, with findings. What
is loaded are the pairs that the entries stand for, each once, in the order in which they stand
first, entry by entry and instrument by instrument. -/
theorem combinations_expand (merged : loader.merged overrides = .ok config)
    (given : config.get? "trade_combinations" = some listed)
    (list : listed.items? = some items) :
    ((∃ pairs, loader.pairs overrides = .ok pairs) ↔ ∀ entry ∈ items, IsCombination entry) ∧
    ((¬ ∀ entry ∈ items, IsCombination entry) → ∃ message findings, findings ≠ [] ∧
      loader.pairs overrides = .error (.ofCause (.configuration (.list findings)) message)) ∧
    ∀ pairs, loader.pairs overrides = .ok pairs →
      ∃ groups, List.Forall₂ Stands items groups ∧ FirstPlaces pairs groups.flatten := by
  have considers := considered_items given list
  have faultless := check_combinations_nil_iff considers
  have refusal : (¬ ∀ entry ∈ items, IsCombination entry) → ∃ message findings, findings ≠ [] ∧
      loader.pairs overrides = .error (.ofCause (.configuration (.list findings)) message) := by
    intro unfit
    have found := faultless.not.mpr unfit
    obtain ⟨message, refused⟩ := pairs_of_findings merged found
    exact ⟨message, _, by simpa using found, refused⟩
  have loads : (∃ pairs, loader.pairs overrides = .ok pairs) ↔
      ∀ entry ∈ items, IsCombination entry := by
    constructor
    · rintro ⟨pairs, loaded⟩
      by_contra unfit
      obtain ⟨message, findings, -, refused⟩ := refusal unfit
      cases loaded.symm.trans refused
    · intro fit
      exact ⟨_, pairs_of_checked merged (faultless.mpr fit)⟩
  refine ⟨loads, refusal, fun pairs loaded => ?_⟩
  have fit := loads.mp ⟨pairs, loaded⟩
  have expanded := pairs_of_checked merged (faultless.mpr fit)
  rw [considers, Option.getD_some, List.flatMap_def] at expanded
  cases loaded.symm.trans expanded
  refine ⟨items.map Loader.pairsOf, ?_, distinct_first_places _⟩
  rw [List.forall₂_map_right_iff, List.forall₂_same]
  exact fun entry member => stands_pairs_of (fit entry member)

/-- An instrument given twice in one entry, and a pair that is given again in a later one. -/
def repeatedCombinations : List Value :=
  [.ofFields [("long", .text "coinbase"), ("short", .text "kraken"),
      ("instruments", .list [.text "BTC/USD", .text "ETH/USD", .text "BTC/USD"])],
    .ofFields [("long", .text "kraken"), ("short", .text "coinbase"),
      ("instruments", .list [.text "BTC/USD"])],
    .ofFields [("long", .text "coinbase"), ("short", .text "kraken"),
      ("instruments", .list [.text "ETH/USD"])]]

def repeatedOverrides : Value :=
  .ofFields [("trade_combinations", .list repeatedCombinations)]

def repeatedConfig : Entries :=
  Settings.default.toEntries ++ [(.text "trade_combinations", .list repeatedCombinations)]

def repeatedPairs : List Pair :=
  [{ long := "coinbase", short := "kraken", instrument := "BTC/USD" },
    { long := "coinbase", short := "kraken", instrument := "ETH/USD" },
    { long := "kraken", short := "coinbase", instrument := "BTC/USD" }]

theorem repeated_merged : bareLoader.merged repeatedOverrides = .ok repeatedConfig := by
  rw [Loader.merged, bare_loader_entries]
  simp [repeatedOverrides, repeatedConfig, Value.ofFields, Value.isTruthy, Value.entries?,
    Value.opened, merge, Settings.toEntries, Settings.default, Entries.find?, Entries.insert,
    Value.sameKey, bind, Except.bind, pure, Except.pure]

theorem repeated_combinations_expand : bareLoader.pairs repeatedOverrides = .ok repeatedPairs ∧
    ∃ groups, List.Forall₂ Stands repeatedCombinations groups ∧
      FirstPlaces repeatedPairs groups.flatten := by
  have loaded : bareLoader.pairs repeatedOverrides = .ok repeatedPairs := by
    rw [Loader.pairs, repeated_merged]
    rfl
  obtain ⟨-, -, written⟩ := combinations_expand repeated_merged
    (rfl : repeatedConfig.get? "trade_combinations" = some (.list repeatedCombinations)) rfl
  exact ⟨loaded, written repeatedPairs loaded⟩

end Loading

end Config

end SpreadWatch
