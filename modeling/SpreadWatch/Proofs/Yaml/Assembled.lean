import SpreadWatch.Proofs.Yaml.Making
import SpreadWatch.Yaml.Document

/-!
The keys of the mappings in a document's value. The value of a node that stands for one is the same
at every place, so the keys that were made are those of the mapping that is put together. A
collection that holds itself is a knot with the same keys inside.
-/

namespace SpreadWatch.Yaml

open Value (WellKeyed Plain)

variable {made : MadeTable} {id : NodeId}

/-- Values of collections, of which no mapping has a key twice. -/
def Cached (made : MadeTable) (known : Array (Option Value)) : Prop :=
  ∀ id value, known.getD id none = some value →
    made.kind? id = some none ∧ value.WellKeyed Plain

/-- Collections around a node, each once, and what is left to go down. -/
structure Around (made : MadeTable) (fuel : ℕ) (around : List NodeId) : Prop where
  each : around.Nodup
  collections : ∀ id ∈ around, made.kind? id = some none
  left : made.size < fuel + around.length

/-- What is put together of a node: no mapping has a key twice, and an atom is its value. -/
structure Tells (made : MadeTable) (id : NodeId) (part : Assembled) : Prop where
  keyed : part.value.WellKeyed Plain
  atom : ∀ value, made.kind? id = some (some value) → part.value = value

def Yields (made : MadeTable) (known : Array (Option Value)) {α : Type} (action : Assembling α)
    (P : α → Prop) : Prop :=
  Cached made (action.run known).2 ∧ P (action.run known).1

theorem Around.fuel_pos {fuel : ℕ} {around : List NodeId} (inside : Around made fuel around) :
    0 < fuel := by
  have within : around ⊆ List.range made.size := by
    intro id member
    rw [List.mem_range]
    by_contra outside
    have collection := inside.collections id member
    simp [MadeTable.kind?, outside] at collection
  have count := (inside.each.subperm within).length_le
  rw [List.length_range] at count
  have left := inside.left
  omega

/-- Inside of a collection there is one more of them around. -/
theorem Around.inner {fuel : ℕ} {around : List NodeId} (inside : Around made (fuel + 1) around)
    (outside : id ∉ around) (collects : made.kind? id = some none) :
    Around made fuel (id :: around) := by
  refine ⟨List.nodup_cons.mpr ⟨outside, inside.each⟩, ?_, ?_⟩
  · exact List.forall_mem_cons.mpr ⟨collects, inside.collections⟩
  · have left := inside.left
    rw [List.length_cons]
    omega

namespace Assembled

section Rules

variable {α β : Type} {known : Array (Option Value)} {P : α → Prop} {Q : β → Prop}

theorem yields_pure {a : α} (cached : Cached made known) (holds : P a) :
    Yields made known (pure a) P :=
  ⟨cached, holds⟩

theorem yields_bind {x : Assembling α} {f : α → Assembling β} (first : Yields made known x P)
    (next : ∀ a known, Cached made known → P a → Yields made known (f a) Q) :
    Yields made known (x >>= f) Q :=
  next _ _ first.1 first.2

theorem yields_get {f : Array (Option Value) → Assembling β}
    (next : Yields made known (f known) Q) : Yields made known (get >>= f) Q := next

theorem yields_map_each {R : α → β → Prop} {f : α → Assembling β} (items : List α)
    (cached : Cached made known)
    (each : ∀ item known, Cached made known → Yields made known (f item) (R item)) :
    Yields made known (items.mapM f) (List.Forall₂ R items) := by
  induction items generalizing known with
  | nil => exact yields_pure cached .nil
  | cons item rest induction =>
      rw [List.mapM_cons]
      refine yields_bind (each item known cached) fun part known cached first => ?_
      refine yields_bind (induction cached) fun parts known cached others => ?_
      exact yields_pure cached (.cons first others)

/-- Keys and values of entries, the keys first. -/
theorem yields_entries {part : NodeId → Assembling Assembled}
    {next : List Assembled → List Assembled → Assembling β} (entries : List (NodeId × NodeId))
    (cached : Cached made known)
    (each : ∀ node known, Cached made known → Yields made known (part node) (Tells made node))
    (onward : ∀ keys values known, Cached made known →
      List.Forall₂ (fun entry part => Tells made entry.1 part) entries keys →
      List.Forall₂ (fun entry part => Tells made entry.2 part) entries values →
      Yields made known (next keys values) Q) :
    Yields made known (do
      let keys ← entries.mapM fun entry => part entry.1
      let values ← entries.mapM fun entry => part entry.2
      next keys values) Q := by
  refine yields_bind (yields_map_each entries cached fun entry => each entry.1) ?_
  intro keys known cached keyParts
  refine yields_bind (yields_map_each entries cached fun entry => each entry.2) ?_
  intro values known cached valueParts
  exact onward keys values known cached keyParts valueParts

end Rules

theorem cached_insert {known : Array (Option Value)} {value : Value} (cached : Cached made known)
    (collects : made.kind? id = some none) (keyed : value.WellKeyed Plain) :
    Cached made (known.setIfInBounds id (some value)) := by
  intro other found stored
  rw [Array.getD_eq_getD_getElem?, Array.getElem?_setIfInBounds] at stored
  split_ifs at stored with same inside
  · cases stored
    exact ⟨same ▸ collects, keyed⟩
  · cases stored
  · rw [← Array.getD_eq_getD_getElem?] at stored
    exact cached other found stored

theorem tells_of_atom {value : Value} (sound : made.Sound)
    (kind : made.kind? id = some (some value)) : Tells made id { value } := by
  refine ⟨.leaf (sound.atoms id value kind).leaf, fun atom same => ?_⟩
  rw [kind] at same
  exact Option.some.inj (Option.some.inj same)

theorem tells_of_collection {part : Assembled} (collects : made.kind? id = some none)
    (keyed : part.value.WellKeyed Plain) : Tells made id part := by
  refine ⟨keyed, fun value kind => ?_⟩
  rw [collects] at kind
  cases kind

/-- A collection that is put together is kept if it refers back to nothing. -/
theorem yields_collection {known : Array (Option Value)} {value : Value} (parts : List Assembled)
    (cached : Cached made known) (collects : made.kind? id = some none)
    (keyed : value.WellKeyed Plain) (knotted : (Value.knot id value).WellKeyed Plain) :
    Yields made known (collection id value parts) (Tells made id) := by
  unfold collection
  split
  · exact ⟨cached_insert cached collects keyed, tells_of_collection collects keyed⟩
  · exact yields_pure cached (tells_of_collection collects knotted)

theorem knot_keyed {content : Value} (other : ∀ entries, content ≠ .dict entries) :
    (Value.knot id content).WellKeyed Plain :=
  .leaf (Value.knot_leaf other)

/-- The keys that are put together are the values that they stand for. -/
theorem key_values {entries : List (NodeId × NodeId)} {keys : List Assembled} {values : List Value}
    (parts : List.Forall₂ (fun entry part => Tells made entry.1 part) entries keys)
    (stand : entries.map (fun entry => made.kind? entry.1) =
      values.map fun value => some (some value)) :
    keys.map (·.value) = values := by
  induction parts generalizing values with
  | nil =>
      cases values with
      | nil => rfl
      | cons value others => cases stand
  | cons head _ induction =>
      cases values with
      | nil => cases stand
      | cons value others =>
          obtain ⟨first, rest⟩ := List.cons.inj stand
          rw [List.map_cons, head.atom value first, induction rest]

theorem parts_keyed {node : NodeId × NodeId → NodeId} {entries : List (NodeId × NodeId)}
    {parts : List Assembled}
    (tell : List.Forall₂ (fun entry part => Tells made (node entry) part) entries parts) :
    ∀ part ∈ parts, part.value.WellKeyed Plain := by
  induction tell with
  | nil => exact fun part member => absurd member List.not_mem_nil
  | cons tells _ induction => exact List.forall_mem_cons.mpr ⟨tells.keyed, induction⟩

/-- The entries of a mapping that are put together have the keys that were made. -/
theorem mapping_keyed (sound : made.Sound) {entries : List (NodeId × NodeId)}
    {keys values : List Assembled} (listed : made.getD id none = some (.dict entries))
    (keyParts : List.Forall₂ (fun entry part => Tells made entry.1 part) entries keys)
    (valueParts : List.Forall₂ (fun entry part => Tells made entry.2 part) entries values) :
    (Value.dict ((keys.zip values).map fun (key, value) => (key.value, value.value))).WellKeyed
      Plain := by
  obtain ⟨known, stand, apart⟩ := sound.keys id entries listed
  have told := key_values keyParts stand
  have lengths : keys.length = values.length := keyParts.length_eq.symm.trans valueParts.length_eq
  have first : ((keys.zip values).map fun (key, value) => (key.value, value.value)).map (·.1) =
      known := by
    calc ((keys.zip values).map fun (key, value) => (key.value, value.value)).map (·.1)
        = ((keys.zip values).map Prod.fst).map (·.value) := by
          rw [List.map_map, List.map_map]
          rfl
      _ = known := by rw [List.map_fst_zip lengths.le, told]
  refine .mapping ?_ ?_ ?_
  · intro entry member
    have listedKey : entry.1 ∈ known := first ▸ List.mem_map_of_mem member
    have stands := List.mem_map_of_mem (f := fun value => some (some value)) listedKey
    rw [← stand] at stands
    obtain ⟨node, -, kind⟩ := List.mem_map.mp stands
    exact (sound.atoms node.1 entry.1 kind).plain
  · exact List.pairwise_map.mp (first ▸ apart)
  · intro entry member
    obtain ⟨⟨key, value⟩, paired, rfl⟩ := List.mem_map.mp member
    exact parts_keyed valueParts value (List.of_mem_zip paired).2

theorem yields_of_node (sound : made.Sound) {fuel : ℕ} {around : List NodeId}
    (inside : Around made fuel around) (id : NodeId) {known : Array (Option Value)}
    (cached : Cached made known) :
    Yields made known (ofNode made fuel around id) (Tells made id) := by
  induction fuel generalizing around id known with
  | zero => exact absurd inside.fuel_pos (by decide)
  | succ fuel induction =>
      rw [ofNode]
      split
      · rename_i member
        have collects := inside.collections id (List.contains_iff_mem.mp member)
        exact yields_pure cached (tells_of_collection collects (.leaf rfl))
      · rename_i outside
        rw [List.contains_iff_mem] at outside
        refine yields_get ?_
        split
        · rename_i value found
          obtain ⟨collects, keyed⟩ := cached id value found
          exact yields_pure cached (tells_of_collection collects keyed)
        · have part (collects : made.kind? id = some none) (node : NodeId)
              (known : Array (Option Value)) (cached : Cached made known) :
              Yields made known (ofNode made fuel (id :: around) node) (Tells made node) :=
            induction (inside.inner outside collects) node cached
          dsimp only
          split
          · rename_i value found
            exact yields_pure cached (tells_of_atom sound (MadeTable.kind_of_made found))
          · rename_i items found
            have collects := MadeTable.kind_of_made found
            refine yields_bind (yields_map_each items cached (part collects)) ?_
            intro items known cached _
            exact yields_collection items cached collects (.leaf rfl) (knot_keyed (by simp))
          · rename_i entries found
            have collects := MadeTable.kind_of_made found
            refine yields_entries entries cached (part collects) ?_
            intro keys values known cached _ _
            exact yields_collection _ cached collects (.leaf rfl) (knot_keyed (by simp))
          · rename_i members found
            have collects := MadeTable.kind_of_made found
            refine yields_bind (yields_map_each members cached (part collects)) ?_
            intro members known cached _
            exact yields_collection members cached collects (.leaf rfl) (knot_keyed (by simp))
          · rename_i entries found
            have collects := MadeTable.kind_of_made found
            refine yields_entries entries cached (part collects) ?_
            intro keys values known cached keyParts valueParts
            have keyed := mapping_keyed sound found keyParts valueParts
            exact yields_collection values cached collects keyed (.knot keyed)
          · rename_i found
            refine yields_pure cached ⟨.leaf rfl, fun atom kind => ?_⟩
            rw [MadeTable.kind?, found] at kind
            cases kind

end Assembled

theorem value_keyed (sound : made.Sound) (root : NodeId) : (made.value root).WellKeyed Plain := by
  have nothing : Cached made (Array.replicate made.size none) := by
    intro id value known
    rw [Array.getD_eq_getD_getElem?, Array.getElem?_replicate] at known
    split_ifs at known <;> cases known
  have inside : Around made (made.size + 1) [] := by
    exact ⟨List.nodup_nil, by simp, Nat.lt_succ_self _⟩
  exact (Assembled.yields_of_node sound inside root nothing).2.keyed

/-- No mapping of a document has a key twice, and no key is a time on the clock of a named zone. -/
theorem read_keyed (text : String) : Answers (WellKeyed Plain) (read text) := by
  refine answers_of_all fun (node, graph) => ?_
  cases node with
  | none => exact answers_ok (.leaf rfl)
  | some root =>
      refine answers_bind (graph_make_sound graph root) fun made sound => ?_
      exact answers_ok (value_keyed sound root)

end SpreadWatch.Yaml
