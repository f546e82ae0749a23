import SpreadWatch.Proofs.Failure
import SpreadWatch.Proofs.Value.Nested
import SpreadWatch.Yaml.Construct

/-!
Keys of the mappings that are made of a document. A node that is made stays made. If it stands for
one value it always stands for the same, so the keys of a mapping still differ after more is made,
and a key that is given a value differs from the keys before it or takes the place of one.
-/

namespace SpreadWatch.Yaml

/-- What a scalar stands for: no time on the clock of a named zone, and no mapping. -/
structure Atomic (value : Value) : Prop where
  plain : value.Plain
  leaf : value.entries? = none

/-! ### Answers -/

section Answers

variable {α β : Type} {P : β → Prop}

def Answers (P : α → Prop) (x : Except Fault α) : Prop := ∀ a, x = .ok a → P a

theorem answers_ok {b : β} (holds : P b) : Answers P (.ok b) := by
  intro a answer
  cases answer
  exact holds

theorem answers_error (fault : Fault) : Answers P (.error fault) := by
  intro a answer
  cases answer

theorem answers_bind {Q : α → Prop} {x : Except Fault α} {f : α → Except Fault β}
    (first : Answers Q x) (next : ∀ a, Q a → Answers P (f a)) : Answers P (x >>= f) := by
  intro b answer
  obtain ⟨a, found, answered⟩ := bind_eq_ok answer
  exact next a (first a found) b answered

theorem answers_of_all {x : Except Fault α} {f : α → Except Fault β}
    (all : ∀ a, Answers P (f a)) : Answers P (x >>= f) := by
  refine answers_bind (fun _ _ => trivial) fun a _ => all a

end Answers

/-! ### Scalars -/

namespace Scalar

theorem atomic_bool (text : String) : Answers Atomic (boolValue text) := by
  unfold boolValue
  split
  · exact answers_ok ⟨trivial, rfl⟩
  · exact answers_error _

theorem atomic_int (text : String) : Answers Atomic (intValue text) := by
  have answer (i : ℤ) : Answers Atomic (.ok (.int i)) := answers_ok ⟨trivial, rfl⟩
  unfold intValue
  refine answers_of_all fun signed => ?_
  dsimp only
  split
  case h_6 =>
    split_ifs
    · exact answers_of_all fun _ => answer _
    · exact answers_of_all fun _ => answer _
  all_goals exact answers_of_all fun _ => answer _

theorem atomic_float (text : String) : Answers Atomic (floatValue text) := by
  have answer (double : Binary64) : Answers Atomic (.ok (.float double)) :=
    answers_ok ⟨trivial, rfl⟩
  unfold floatValue
  refine answers_of_all fun signed => ?_
  dsimp only
  split
  · exact answer _
  split
  · exact answer _
  split
  · exact answers_of_all fun _ => answers_of_all fun _ => answer _
  · exact answers_of_all fun _ => answer _

/-- A time stamp is read in no zone, in UTC or at a fixed offset. -/
theorem stamp_zone_plain (offset : Option (Option (Bool × ℕ × ℕ))) :
    Answers (fun zone => ∀ wall fold, Value.Plain (.moment ⟨wall, zone, fold⟩))
      (stampZone offset) := by
  unfold stampZone
  split
  · exact answers_ok fun _ _ => trivial
  · exact answers_ok fun _ _ => trivial
  · dsimp only
    split_ifs
    · exact answers_error _
    · exact answers_ok fun _ _ => trivial
    · exact answers_ok fun _ _ => trivial
    · exact answers_ok fun _ _ => trivial

theorem atomic_timestamp (text : String) : Answers Atomic (timestampValue text) := by
  unfold timestampValue
  split
  · dsimp only
    split
    · split_ifs
      · exact answers_ok ⟨trivial, rfl⟩
      · exact answers_error _
    · refine answers_bind (stamp_zone_plain _) fun zone plain => ?_
      split_ifs
      · exact answers_ok ⟨plain _ _, rfl⟩
      · exact answers_error _
  · exact answers_error _

theorem atomic_binary (text : String) : Answers Atomic (binaryValue text) := by
  unfold binaryValue
  dsimp only
  split_ifs
  · exact answers_error _
  · exact answers_of_all fun _ => answers_ok ⟨trivial, rfl⟩

theorem atomic_value (tag : Tag) (text : String) : Answers Atomic (value tag text) := by
  cases tag with
  | text => exact answers_ok ⟨trivial, rfl⟩
  | null => exact answers_ok ⟨trivial, rfl⟩
  | bool => exact atomic_bool text
  | int => exact atomic_int text
  | float => exact atomic_float text
  | timestamp => exact atomic_timestamp text
  | binary => exact atomic_binary text
  | _ => exact answers_error _

end Scalar

/-! ### What is made -/

def Made.atom? : Made → Option Value
  | .atom value => some value
  | _ => none

namespace MadeTable

/-- Whether a node is made, and its value if it stands for one at once. -/
def kind? (made : MadeTable) (id : NodeId) : Option (Option Value) :=
  (made.getD id none).map Made.atom?

/-- The keys of entries stand for these values, of which no two are the same key. -/
structure Keys (made : MadeTable) (entries : List (NodeId × NodeId)) (values : List Value) :
    Prop where
  stand : entries.map (fun entry => made.kind? entry.1) = values.map fun value => some (some value)
  apart : values.Pairwise fun value later => value.sameKey later = false

structure Sound (made : MadeTable) : Prop where
  atoms : ∀ id value, made.kind? id = some (some value) → Atomic value
  keys : ∀ id entries, made.getD id none = some (.dict entries) → ∃ values, made.Keys entries values

/-- What is made stays made, and collections stay collections. -/
structure Grown (before after : MadeTable) : Prop where
  size : after.size = before.size
  kinds : ∀ id kind, before.kind? id = some kind → after.kind? id = some kind

variable {before middle after : MadeTable} {id other : NodeId} {made : Made} {value : Value}
  {entries : List (NodeId × NodeId)} {values : List Value}

theorem atom_of_kind (kind : before.kind? id = some (some value)) :
    before.getD id none = some (.atom value) := by
  obtain ⟨made, found, atom⟩ := Option.map_eq_some_iff.mp kind
  cases made <;> cases atom
  exact found

theorem kind_of_made (listed : before.getD id none = some made) :
    before.kind? id = some made.atom? := by
  rw [kind?, listed]
  rfl

theorem Grown.refl (made : MadeTable) : made.Grown made := ⟨rfl, fun _ _ kind => kind⟩

theorem Grown.trans (first : before.Grown middle) (second : middle.Grown after) :
    before.Grown after :=
  ⟨second.size.trans first.size,
    fun id kind known => second.kinds id kind (first.kinds id kind known)⟩

theorem Keys.grown (keys : before.Keys entries values) (grown : before.Grown after) :
    after.Keys entries values := by
  refine ⟨?_, keys.apart⟩
  have known := keys.stand
  clear keys
  induction entries generalizing values with
  | nil => exact known
  | cons entry rest induction =>
      cases values with
      | nil => cases known
      | cons value others =>
          obtain ⟨head, tail⟩ := List.cons.inj known
          rw [List.map_cons, List.map_cons, grown.kinds _ _ head, induction tail]

def settled (before : MadeTable) (id : NodeId) (made : Made) : MadeTable :=
  before.setIfInBounds id (some made)

theorem get_settled (before : MadeTable) (id other : NodeId) (made : Made) :
    (before.settled id made).getD other none =
      if id = other ∧ id < before.size then some made else before.getD other none := by
  simp only [settled, Array.getD_eq_getD_getElem?, Array.getElem?_setIfInBounds]
  by_cases same : id = other
  · subst same
    by_cases inside : id < before.size <;> simp [inside]
  · simp [same]

theorem kind_settled (before : MadeTable) (id other : NodeId) (made : Made) :
    (before.settled id made).kind? other =
      if id = other ∧ id < before.size then some made.atom? else before.kind? other := by
  rw [kind?, get_settled]
  split_ifs <;> rfl

/-- Settling a node that is not made, or is a collection and stays one. -/
theorem grown_of_settled
    (free : before.kind? id = none ∨ before.kind? id = some none ∧ made.atom? = none) :
    before.Grown (before.settled id made) := by
  refine ⟨by simp [settled], fun other kind known => ?_⟩
  rw [kind_settled]
  split_ifs with here
  · rw [← here.1] at known
    rcases free with none | ⟨collection, stays⟩
    · rw [none] at known
      cases known
    · rw [collection] at known
      rw [stays, known]
  · exact known

theorem Sound.settled (sound : before.Sound)
    (free : before.kind? id = none ∨ before.kind? id = some none ∧ made.atom? = none)
    (atomic : ∀ value, made.atom? = some value → Atomic value)
    (keyed : ∀ entries, made = .dict entries → ∃ values, before.Keys entries values) :
    (before.settled id made).Sound := by
  have grown := grown_of_settled free
  constructor
  · intro other value known
    rw [kind_settled] at known
    split_ifs at known
    · exact atomic value (Option.some.inj known)
    · exact sound.atoms other value known
  · intro other entries known
    rw [get_settled] at known
    have keys : ∃ values, before.Keys entries values := by
      split_ifs at known
      · exact keyed entries (Option.some.inj known)
      · exact sound.keys other entries known
    obtain ⟨values, keys⟩ := keys
    exact ⟨values, keys.grown grown⟩

end MadeTable

/-! ### Running the maker -/

open MadeTable

/-- A maker whose mappings have keys that differ, and of which only collections wait. -/
structure Maker.Ready (maker : Maker) : Prop where
  sound : maker.made.Sound
  waiting : ∀ id ∈ maker.waiting, id < maker.made.size → maker.made.kind? id = some none

namespace Making

variable {α β : Type} {s : Maker} {P : α → Maker → Prop} {Q : β → Maker → Prop}

/-- Where an action of making ends, if it does: in a maker that is ready and has grown. -/
def Leads (s : Maker) (action : Making α) (P : α → Maker → Prop) : Prop :=
  ∀ a t, action.run s = .ok (a, t) → t.Ready ∧ s.made.Grown t.made ∧ P a t

theorem leads_pure {a : α} (ready : s.Ready) (holds : P a s) : Leads s (pure a) P := by
  intro b t ran
  cases ran
  exact ⟨ready, .refl _, holds⟩

theorem leads_throw (fault : Fault) : Leads s (throw fault : Making α) P := by
  intro a t ran
  cases ran

theorem leads_bind {x : Making α} {f : α → Making β} (first : Leads s x P)
    (next : ∀ a t, t.Ready → s.made.Grown t.made → P a t → Leads t (f a) Q) :
    Leads s (x >>= f) Q := by
  intro b u ran
  obtain ⟨⟨a, t⟩, ranFirst, ranNext⟩ := bind_eq_ok ran
  obtain ⟨ready, grown, holds⟩ := first a t ranFirst
  obtain ⟨readyNext, grownNext, holdsNext⟩ := next a t ready grown holds b u ranNext
  exact ⟨readyNext, grown.trans grownNext, holdsNext⟩

theorem leads_get {f : Maker → Making β} (next : Leads s (f s) Q) : Leads s (get >>= f) Q := next

theorem leads_weaken {P' : α → Maker → Prop} {x : Making α} (leads : Leads s x P)
    (weaker : ∀ a t, s.made.Grown t.made → P a t → P' a t) : Leads s x P' := by
  intro a t ran
  obtain ⟨ready, grown, holds⟩ := leads a t ran
  exact ⟨ready, grown, weaker a t grown holds⟩

theorem leads_scalar_text (ready : s.Ready) (fuel : ℕ) (id : NodeId) :
    Leads s (scalarText fuel id) fun _ t => t = s := by
  induction fuel generalizing id with
  | zero => exact leads_throw _
  | succ fuel induction =>
      rw [scalarText]
      refine leads_get ?_
      dsimp only
      split
      · exact leads_pure ready rfl
      · split
        · exact induction _
        · exact leads_throw _
      · exact leads_throw _

theorem leads_lift {p : α → Prop} {x : Except Fault α} (ready : s.Ready)
    (answers : Answers p x) :
    Leads s (liftM x : Making α) fun a t => t = s ∧ p a := by
  intro a t ran
  cases found : x with
  | error fault =>
      rw [found] at ran
      cases ran
  | ok b =>
      rw [found] at ran
      cases ran
      exact ⟨ready, .refl _, rfl, answers _ found⟩

theorem leads_scalar_value (ready : s.Ready) (id : NodeId) :
    Leads s (scalarValue id) fun value t => t = s ∧ Atomic value := by
  unfold scalarValue
  refine leads_get (leads_bind (leads_scalar_text ready _ _) ?_)
  rintro text t _ _ rfl
  refine leads_get ?_
  split
  · exact leads_throw _
  · exact leads_lift ready (Scalar.atomic_value _ _)

theorem leads_modify {change : Maker → Maker} (ready : (change s).Ready)
    (grown : s.made.Grown (change s).made) :
    Leads s (modify change) fun _ t => t = change s := by
  intro a t ran
  cases ran
  exact ⟨ready, grown, rfl⟩

theorem leads_set {t : Maker} (ready : t.Ready) (grown : s.made.Grown t.made) :
    Leads s (set t : Making PUnit) fun _ u => u = t := by
  intro a u ran
  cases ran
  exact ⟨ready, grown, rfl⟩

theorem leads_settle {id : NodeId} {made : Made} (ready : s.Ready)
    (free : s.made.kind? id = none ∨ s.made.kind? id = some none ∧ made.atom? = none)
    (atomic : ∀ value, made.atom? = some value → Atomic value)
    (keyed : ∀ entries, made = .dict entries → ∃ values, s.made.Keys entries values) :
    Leads s (settle id made) fun _ t => t = { s with made := s.made.settled id made } := by
  have grown := grown_of_settled free
  refine leads_modify ⟨ready.sound.settled free atomic keyed, ?_⟩ grown
  intro other member inside
  have within : other < s.made.size := grown.size ▸ inside
  exact grown.kinds other none (ready.waiting other member within)

theorem leads_await {id : NodeId} {made : Made} (ready : s.Ready) (free : s.made.kind? id = none)
    (empty : made = .list [] ∨ made = .dict [] ∨ made = .set []) :
    Leads s (make.await id made) fun _ _ => True := by
  unfold make.await
  have collection : made.atom? = none := by
    rcases empty with rfl | rfl | rfl <;> rfl
  refine leads_bind (leads_settle ready (.inl free) ?_ ?_) ?_
  · intro value atom
    rw [collection] at atom
    cases atom
  · rintro entries rfl
    obtain rfl : entries = [] := by simpa using empty
    exact ⟨[], rfl, List.Pairwise.nil⟩
  · rintro _ t readyNow grown rfl
    refine leads_weaken (leads_modify ⟨readyNow.sound, ?_⟩ (.refl _)) fun _ _ _ _ => trivial
    intro other member inside
    rcases List.mem_cons.mp member with rfl | member
    · have within : other < s.made.size := grown.size ▸ inside
      have kind := kind_settled s.made other other made
      rw [if_pos ⟨rfl, within⟩, collection] at kind
      exact kind
    · exact readyNow.waiting other member inside

theorem leads_make (ready : s.Ready) (id : NodeId) : Leads s (make id) fun _ _ => True := by
  unfold make
  refine leads_get ?_
  split
  · exact leads_pure ready trivial
  · rename_i unmade
    have free : s.made.kind? id = none := by
      rw [MadeTable.kind?]
      simpa using unmade
    refine leads_get ?_
    split
    case h_9 =>
      refine leads_bind (leads_scalar_value ready id) ?_
      rintro value t _ _ ⟨rfl, atomic⟩
      refine leads_weaken (leads_settle ready (.inl free) ?_ ?_) fun _ _ _ _ => trivial
      · rintro _ ⟨⟩
        exact atomic
      · rintro _ ⟨⟩
    all_goals first
      | exact leads_throw _
      | exact leads_await ready free (by simp)

theorem leads_make_key (ready : s.Ready) (id : NodeId) :
    Leads s (makeKey id) fun _ t => ∃ value, t.made.kind? id = some (some value) := by
  unfold makeKey
  refine leads_bind (leads_make ready id) fun _ t ready _ _ => leads_get ?_
  split
  · rename_i value found
    exact leads_pure ready ⟨value, MadeTable.kind_of_made found⟩
  · exact leads_throw _

theorem differs_of_unsame {maker : Maker} {known key : NodeId} {value found : Value}
    (unsame : sameKey maker known key = false)
    (knownKind : maker.made.kind? known = some (some value))
    (kind : maker.made.kind? key = some (some found)) : value.sameKey found = false := by
  simp only [sameKey, Bool.or_eq_false_iff] at unsame
  have compared := unsame.1.2
  rw [atom_of_kind knownKind, atom_of_kind kind] at compared
  exact compared

/-- A key that is given a value differs from the other keys, or takes the place of its like. -/
theorem keys_insert {maker : Maker} {key : NodeId} {known : List (NodeId × NodeId)}
    {values : List Value} {found : Value} (value : NodeId) (keys : maker.made.Keys known values)
    (kind : maker.made.kind? key = some (some found)) :
    ∃ more, maker.made.Keys (Making.insert maker key value known) more ∧
      ∀ other ∈ more, other ∈ values ∨ other = found := by
  obtain ⟨stand, apart⟩ := keys
  induction known generalizing values with
  | nil =>
      obtain rfl : values = [] := by simpa using stand.symm
      refine ⟨[found], ⟨?_, List.pairwise_singleton _ _⟩, by simp⟩
      rw [Making.insert, List.map_singleton, kind, List.map_singleton]
  | cons entry rest induction =>
      obtain ⟨first, old⟩ := entry
      obtain ⟨firstValue, others, rfl, head, tail⟩ : ∃ firstValue others,
          values = firstValue :: others ∧ maker.made.kind? first = some (some firstValue) ∧
          rest.map (fun entry => maker.made.kind? entry.1) =
            others.map fun value => some (some value) := by
        cases values with
        | nil => cases stand
        | cons firstValue others =>
            obtain ⟨head, tail⟩ := List.cons.inj stand
            exact ⟨firstValue, others, rfl, head, tail⟩
      obtain ⟨apartFirst, apartOthers⟩ := List.pairwise_cons.mp apart
      rw [Making.insert]
      split_ifs with same
      · exact ⟨firstValue :: others, ⟨stand, apart⟩, fun _ member => .inl member⟩
      · have differs := differs_of_unsame (by simpa using same) head kind
        obtain ⟨more, ⟨standMore, apartMore⟩, known⟩ := induction tail apartOthers
        refine ⟨firstValue :: more, ⟨?_, List.pairwise_cons.mpr ⟨?_, apartMore⟩⟩, ?_⟩
        · rw [List.map_cons, List.map_cons, head, standMore]
        · intro other member
          rcases known other member with old | rfl
          · exact apartFirst other old
          · exact differs
        · intro other member
          rcases List.mem_cons.mp member with rfl | member
          · exact .inl List.mem_cons_self
          · exact (known other member).imp_left (List.mem_cons_of_mem _)

theorem leads_make_entries (ready : s.Ready) (entries : List (NodeId × NodeId))
    {known : List (NodeId × NodeId)} {values : List Value} (keys : s.made.Keys known values) :
    Leads s (makeEntries known entries) fun made t => ∃ values, t.made.Keys made values := by
  induction entries generalizing s known values with
  | nil => exact leads_pure ready ⟨values, keys⟩
  | cons entry rest induction =>
      obtain ⟨key, value⟩ := entry
      rw [makeEntries]
      refine leads_bind (leads_make_key ready key) ?_
      rintro _ t readyKey grownKey ⟨found, kind⟩
      refine leads_bind (leads_make readyKey value) ?_
      rintro _ u readyValue grownValue -
      refine leads_get ?_
      have keysNow := (keys.grown grownKey).grown grownValue
      obtain ⟨more, keysMore, -⟩ := keys_insert value keysNow (grownValue.kinds _ _ kind)
      exact induction readyValue keysMore

theorem leads_mapping_entries (ready : s.Ready) (id : NodeId) :
    Leads s (mappingEntries id) fun entries t => ∃ values, t.made.Keys entries values := by
  unfold mappingEntries
  refine leads_get ?_
  split
  · refine leads_get (leads_bind (leads_lift ready (fun _ _ => trivial)) ?_)
    rintro ⟨-, merger⟩ t _ _ ⟨rfl, -⟩
    have merged : Maker.Ready { t with toMerger := merger } := ⟨ready.sound, ready.waiting⟩
    refine leads_bind (leads_set merged (.refl _)) ?_
    rintro _ u readyMerged _ -
    refine leads_get ?_
    split
    · exact leads_make_entries readyMerged _ ⟨rfl, List.Pairwise.nil⟩
    · exact leads_throw _
  · exact leads_throw _

theorem leads_for_each {f : α → Making PUnit} (items : List α) (ready : s.Ready)
    (each : ∀ item ∈ items, ∀ t, t.Ready → s.made.Grown t.made →
      Leads t (f item) fun _ _ => True) : Leads s (items.forM f) fun _ _ => True := by
  induction items generalizing s with
  | nil => exact leads_pure ready trivial
  | cons item rest induction =>
      obtain ⟨first, others⟩ := List.forall_mem_cons.mp each
      change Leads s (f item >>= fun _ => rest.forM f) _
      refine leads_bind (first s ready (.refl _)) fun _ t readyNow grown _ => ?_
      exact induction readyNow fun item member u readyLater grownLater =>
        others item member u readyLater (grown.trans grownLater)

theorem leads_map_each {f : α → Making β} (items : List α) (ready : s.Ready)
    (each : ∀ item t, t.Ready → Leads t (f item) fun _ _ => True) :
    Leads s (items.mapM f) fun _ _ => True := by
  induction items generalizing s with
  | nil => exact leads_pure ready trivial
  | cons item rest induction =>
      rw [List.mapM_cons]
      refine leads_bind (each item s ready) fun _ t readyNow _ _ => ?_
      refine leads_bind (induction readyNow) fun _ u readyLater _ _ => ?_
      exact leads_pure readyLater trivial

theorem leads_make_pair (ready : s.Ready) (id : NodeId) :
    Leads s (makePair id) fun _ _ => True := by
  unfold makePair
  refine leads_get ?_
  split
  · refine leads_bind (leads_make ready _) fun _ t readyKey _ _ => ?_
    refine leads_bind (leads_make readyKey _) fun _ u readyValue _ _ => ?_
    exact leads_pure readyValue trivial
  · exact leads_throw _

def Collects (made : MadeTable) (id : NodeId) : Prop := id < made.size → made.kind? id = some none

theorem Collects.grown {before after : MadeTable} {id : NodeId} (collects : Collects before id)
    (grown : before.Grown after) : Collects after id :=
  fun inside => grown.kinds id none (collects (grown.size ▸ inside))

theorem leads_settle_collection {id : NodeId} {made : Made} (ready : s.Ready)
    (collects : Collects s.made id) (collection : made.atom? = none)
    (keyed : ∀ entries, made = .dict entries → ∃ values, s.made.Keys entries values) :
    Leads s (settle id made) fun _ _ => True := by
  have free : s.made.kind? id = none ∨ s.made.kind? id = some none ∧ made.atom? = none := by
    by_cases inside : id < s.made.size
    · exact .inr ⟨collects inside, collection⟩
    · exact .inl (by simp [MadeTable.kind?, inside])
  refine leads_weaken (leads_settle ready free ?_ keyed) fun _ _ _ _ => trivial
  intro value atom
  rw [collection] at atom
  cases atom

theorem leads_fill (ready : s.Ready) {id : NodeId} (collects : Collects s.made id) :
    Leads s (fill id) fun _ _ => True := by
  unfold fill
  refine leads_get ?_
  split
  · refine leads_bind (leads_for_each _ ready fun item _ t readyNow _ =>
      leads_make readyNow item) ?_
    intro _ t readyNow grown _
    exact leads_settle_collection readyNow (collects.grown grown) rfl (by simp)
  · refine leads_bind (leads_map_each _ ready fun item t readyNow =>
      leads_make_pair readyNow item) ?_
    intro pairs t readyNow grown _
    exact leads_settle_collection readyNow (collects.grown grown) rfl (by simp)
  · refine leads_bind (leads_map_each _ ready fun item t readyNow =>
      leads_make_pair readyNow item) ?_
    intro pairs t readyNow grown _
    exact leads_settle_collection readyNow (collects.grown grown) rfl (by simp)
  · refine leads_bind (leads_mapping_entries ready id) ?_
    rintro entries t readyNow grown keys
    exact leads_settle_collection readyNow (collects.grown grown) rfl (by rintro _ ⟨⟩; exact keys)
  · refine leads_bind (leads_mapping_entries ready id) ?_
    rintro entries t readyNow grown keys
    exact leads_settle_collection readyNow (collects.grown grown) rfl (by simp)
  · exact leads_throw _

theorem leads_fill_all (ready : s.Ready) (fuel : ℕ) : Leads s (fillAll fuel) fun _ _ => True := by
  induction fuel generalizing s with
  | zero => exact leads_throw _
  | succ fuel induction =>
      rw [fillAll]
      refine leads_get ?_
      dsimp only
      split
      · exact leads_pure ready trivial
      · have emptied : Maker.Ready { s with waiting := [] } := ⟨ready.sound, by simp⟩
        refine leads_bind (leads_modify emptied (.refl _)) ?_
        rintro _ t readyNow _ rfl
        refine leads_bind (leads_for_each _ readyNow fun id member t readyLater grown => ?_)
          fun _ u readyLast _ _ => induction readyLast
        have collects : Collects s.made id := ready.waiting id (List.mem_reverse.mp member)
        exact leads_fill readyLater (collects.grown grown)

end Making

/-- Mappings that are made of a document have keys that differ. -/
theorem graph_make_sound (graph : Graph) (root : NodeId) :
    Answers MadeTable.Sound (graph.make root) := by
  have nothing (id : NodeId) :
      (Array.replicate graph.size none : MadeTable).getD id none = none := by
    rw [Array.getD_eq_getD_getElem?, Array.getElem?_replicate]
    split_ifs <;> rfl
  have start : Maker.Ready { graph, made := Array.replicate graph.size none } := by
    refine ⟨⟨?_, ?_⟩, by simp⟩
    · intro id value known
      rw [MadeTable.kind?, nothing] at known
      cases known
    · intro id entries known
      rw [nothing] at known
      cases known
  intro made answer
  obtain ⟨⟨a, maker⟩, ran, made_eq⟩ := bind_eq_ok answer
  cases made_eq
  have leads := Making.leads_bind (Making.leads_make start root) fun _ _ ready _ _ =>
    Making.leads_fill_all ready (graph.size + 1)
  exact (leads _ _ ran).1.sound

end SpreadWatch.Yaml
