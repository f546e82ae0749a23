import SpreadWatch.Proofs.Decimal.Value
import SpreadWatch.Value.Basic

/-!
Keys of mappings. What makes two values the same key is named by an identity, apart from times on
the clock of a named zone: these are compared by their readings with each other, and by their
instants with other times. A mapping with other keys is looked up by identities, and giving a key a
value changes what is found under this identity only.
-/

namespace SpreadWatch

open Calendar

namespace Value

/-! ### Identities -/

/-- What a value is as a key: of times, whether they have a zone, and their instant or reading. -/
inductive Identity where
  | null
  | text (value : String)
  | bytes (value : List UInt8)
  | date (value : Date)
  | moment (zoned : Bool) (micros : Int)
  | pair (first second : Identity)
  | number (value : Quantity)

/-- The identity of a key. A NaN has none, nor has a list, a set or a mapping. -/
def identity? : Value → Option Identity
  | .null => some .null
  | .text value => some (.text value)
  | .bytes value => some (.bytes value)
  | .date value => some (.date value)
  | .moment m => some (.moment m.zone.isSome (m.instant?.getD m.wall))
  | .pair first second => do return .pair (← first.identity?) (← second.identity?)
  | value => (value.toNumber?.bind Decimal.quantity?).map .number

/-- A value that is no time on the clock of a named zone, and no pair of such times. -/
def Plain : Value → Prop
  | .moment ⟨_, some (.named _), _⟩ => False
  | .pair first second => first.Plain ∧ second.Plain
  | _ => True

theorem compare_eq_iff {a b : Decimal} :
    Decimal.compare? a b = some .eq ↔ ∃ q, a.quantity? = some q ∧ b.quantity? = some q := by
  constructor
  · intro equal
    have number : a.isNan = false ∧ b.isNan = false := by
      cases a <;> cases b <;> first | exact ⟨rfl, rfl⟩ | cases equal
    obtain ⟨x, left⟩ := Decimal.quantity_of_number number.1
    obtain ⟨y, right⟩ := Decimal.quantity_of_number number.2
    rw [Decimal.compare_quantity left right, Option.some_inj, cmp_eq_eq_iff] at equal
    exact ⟨x, left, equal ▸ right⟩
  · rintro ⟨q, left, right⟩
    rw [Decimal.compare_quantity left right, cmp_self_eq_eq]

theorem same_moment_iff {a b : Moment} (plain : Plain (.moment a)) :
    sameMoment a b = true ↔
      a.zone.isSome = b.zone.isSome ∧ a.instant?.getD a.wall = b.instant?.getD b.wall := by
  obtain ⟨wall, zone, fold⟩ := a
  obtain ⟨other, here, again⟩ := b
  rcases zone with _ | _ | seconds | named
  case some.named => exact plain.elim
  all_goals
    rcases here with _ | _ | offset | zone <;>
      simp [sameMoment, Moment.since?, Moment.sameClock, Moment.instant?, Moment.offset?,
        Zone.sameClock, Zone.atWall, sub_eq_zero]

theorem identity_of_number {a : Value} {x : Decimal} (number : a.toNumber? = some x) :
    a.identity? = x.quantity?.map .number := by
  cases a <;> simp_all [toNumber?, identity?]

theorem identity_pair_iff {first second : Value} {identity : Identity} :
    (Value.pair first second).identity? = some identity ↔
      ∃ x y, first.identity? = some x ∧ second.identity? = some y ∧ identity = .pair x y := by
  simp only [identity?, Option.bind_eq_bind, Option.bind_eq_some_iff, Option.pure_def,
    Option.some.injEq]
  constructor
  · rintro ⟨x, left, y, right, rfl⟩
    exact ⟨x, y, left, right, rfl⟩
  · rintro ⟨x, y, left, right, rfl⟩
    exact ⟨x, left, y, right, rfl⟩

def OfKind : Identity → Value → Prop
  | .null, a => a = .null
  | .text value, a => a = .text value
  | .bytes value, a => a = .bytes value
  | .date value, a => a = .date value
  | .moment .., a => ∃ m, a = .moment m
  | .pair .., a => ∃ first second, a = .pair first second
  | .number _, a => ∃ x, a.toNumber? = some x

theorem of_kind {a : Value} {identity : Identity} (known : a.identity? = some identity) :
    OfKind identity a := by
  cases a with
  | pair first second =>
      obtain ⟨x, y, -, -, rfl⟩ := identity_pair_iff.mp known
      exact ⟨first, second, rfl⟩
  | null | text | bytes | date =>
      cases known
      rfl
  | moment m =>
      cases known
      exact ⟨m, rfl⟩
  | bool | int | float | decimal =>
      obtain ⟨q, -, rfl⟩ := Option.map_eq_some_iff.mp known
      exact ⟨_, rfl⟩
  | list | set | dict | knot | back => cases known

/-- Two values are the same key just where they have the same identity. -/
theorem same_key_iff {a b : Value} (plain : a.Plain) :
    a.sameKey b = true ↔ ∃ identity, a.identity? = some identity ∧ b.identity? = some identity := by
  fun_induction sameKey a b with
  | case1 => simp [identity?]
  | case2 a b | case3 a b | case4 a b =>
      simp only [identity?, beq_iff_eq, Option.some.injEq, exists_eq_left', Identity.text.injEq,
        Identity.bytes.injEq, Identity.date.injEq]
      exact eq_comm
  | case5 a b =>
      rw [same_moment_iff plain, eq_comm, eq_comm (a := a.instant?.getD a.wall)]
      simp [identity?]
  | case6 first second third fourth firsts seconds =>
      rw [Bool.and_eq_true, firsts plain.1, seconds plain.2]
      simp only [identity_pair_iff]
      constructor
      · rintro ⟨⟨x, left, right⟩, y, leftToo, rightToo⟩
        exact ⟨_, ⟨x, y, left, leftToo, rfl⟩, x, y, right, rightToo, rfl⟩
      · rintro ⟨_, ⟨x, y, left, leftToo, rfl⟩, z, w, right, rightToo, same⟩
        cases same
        exact ⟨⟨x, left, right⟩, y, leftToo, rightToo⟩
  | case7 a b _ _ _ _ _ _ x y second first =>
      rw [identity_of_number first, identity_of_number second, beq_iff_eq, compare_eq_iff]
      simp
  | case8 a b noNull noText noBytes noDate noMoment noPair noNumber =>
      -- Values of one kind of identity would have met an earlier case.
      refine ⟨nofun, ?_⟩
      rintro ⟨identity, left, right⟩
      have ofA := of_kind left
      have ofB := of_kind right
      cases identity with
      | null => exact (noNull ofA ofB).elim
      | text value => exact (noText value value ofA ofB).elim
      | bytes value => exact (noBytes value value ofA ofB).elim
      | date value => exact (noDate value value ofA ofB).elim
      | moment zoned micros =>
          obtain ⟨m, same⟩ := ofA
          obtain ⟨n, sameToo⟩ := ofB
          exact (noMoment m n same sameToo).elim
      | pair first second =>
          obtain ⟨x, y, same⟩ := ofA
          obtain ⟨z, w, sameToo⟩ := ofB
          exact (noPair x y z w same sameToo).elim
      | number q =>
          obtain ⟨x, number⟩ := ofA
          obtain ⟨y, numberToo⟩ := ofB
          exact (noNumber x y number numberToo).elim

theorem same_key_text_iff {key : Value} {name : String} :
    key.sameKey (.text name) = true ↔ key = .text name := by
  cases key <;> simp [sameKey, toNumber?]

theorem text_same_key_iff {key : Value} {name : String} :
    (Value.text name).sameKey key = true ↔ key = .text name := by
  rw [eq_comm (a := key)]
  cases key <;> simp [sameKey, toNumber?]

/-- Keys that are the same are the same as the same keys. -/
theorem same_key_congr {a b key : Value} (plain : a.Plain) (plainToo : b.Plain)
    (same : a.sameKey b = true) : a.sameKey key = b.sameKey key := by
  obtain ⟨identity, left, right⟩ := (same_key_iff plain).mp same
  rw [Bool.eq_iff_iff, same_key_iff plain, same_key_iff plainToo, left, right]

theorem same_key_congr_right {a b key : Value} (plain : key.Plain) (plainToo : a.Plain)
    (same : a.sameKey b = true) : key.sameKey a = key.sameKey b := by
  obtain ⟨identity, left, right⟩ := (same_key_iff plainToo).mp same
  rw [Bool.eq_iff_iff, same_key_iff plain, same_key_iff plain, left, right]

/-- Keys that are the same as a third one are the same. -/
theorem same_key_of_common {a b key : Value} (plain : a.Plain) (plainToo : b.Plain)
    (same : a.sameKey key = true) (sameToo : b.sameKey key = true) : a.sameKey b = true := by
  obtain ⟨identity, left, middle⟩ := (same_key_iff plain).mp same
  obtain ⟨other, right, middleToo⟩ := (same_key_iff plainToo).mp sameToo
  rw [middle] at middleToo
  exact (same_key_iff plain).mpr ⟨identity, left, right.trans middleToo.symm⟩

end Value

/-! ### Lookups -/

namespace Entries

variable {entries rest : Entries} {known key query old value : Value}

theorem find_cons :
    find? ((known, value) :: rest) key =
      if known.sameKey key then some value else rest.find? key := by
  rw [find?, List.find?_cons]
  cases known.sameKey key <;> rfl

def Keyed (entries : Entries) : Prop := ∀ entry ∈ entries, entry.1.Plain

theorem Keyed.tail (keyed : Keyed ((known, value) :: rest)) : Keyed rest :=
  fun _ member => keyed _ (List.mem_cons_of_mem _ member)

theorem Keyed.head (keyed : Keyed ((known, value) :: rest)) : known.Plain :=
  keyed _ List.mem_cons_self

/-- The entries after a key has been given a value: old entries, the key's old place, or a new
one. -/
theorem forall_mem_insert {P : Value × Value → Prop} (all : ∀ entry ∈ entries, P entry)
    (placed : ∀ known old, P (known, old) → P (known, value)) (new : P (key, value)) :
    ∀ entry ∈ entries.insert key value, P entry := by
  induction entries with
  | nil => exact List.forall_mem_singleton.mpr new
  | cons entry rest induction =>
      obtain ⟨known, old⟩ := entry
      obtain ⟨head, tail⟩ := List.forall_mem_cons.mp all
      rw [Entries.insert]
      split_ifs
      · exact List.forall_mem_cons.mpr ⟨placed known old head, tail⟩
      · exact List.forall_mem_cons.mpr ⟨head, induction tail⟩

theorem Keyed.insert (keyed : entries.Keyed) (plain : key.Plain) :
    (entries.insert key value).Keyed :=
  forall_mem_insert keyed (fun _ _ known => known) plain

def Distinct (entries : Entries) : Prop :=
  List.Pairwise (fun entry later : Value × Value => entry.1.sameKey later.1 = false) entries

theorem Distinct.insert (distinct : entries.Distinct) : (entries.insert key value).Distinct := by
  induction entries with
  | nil => exact List.pairwise_singleton _ _
  | cons entry rest induction =>
      obtain ⟨known, old⟩ := entry
      obtain ⟨head, tail⟩ := List.pairwise_cons.mp distinct
      rw [Entries.insert]
      split_ifs with here
      · exact List.pairwise_cons.mpr ⟨head, tail⟩
      · exact List.pairwise_cons.mpr
          ⟨forall_mem_insert head (fun _ _ other => other) (by simpa using here), induction tail⟩

/-- Giving a key a value changes what is found under this key. -/
theorem find_insert (keyed : entries.Keyed) (plain : key.Plain) :
    (entries.insert key value).find? query =
      if key.sameKey query then some value else entries.find? query := by
  induction entries with
  | nil => exact find_cons
  | cons entry rest induction =>
      obtain ⟨known, old⟩ := entry
      rw [Entries.insert]
      cases here : known.sameKey key with
      | true =>
          rw [if_pos rfl, find_cons, find_cons,
            Value.same_key_congr keyed.head plain here]
          split_ifs <;> rfl
      | false =>
          rw [if_neg (by decide), find_cons, find_cons, induction keyed.tail]
          split_ifs with found wanted
          · have same := Value.same_key_of_common keyed.head plain found wanted
            rw [here] at same
            cases same
          all_goals rfl

/-- Giving a key the value that it has changes nothing. -/
theorem insert_of_find (found : entries.find? key = some value) :
    entries.insert key value = entries := by
  induction entries with
  | nil => cases found
  | cons entry rest induction =>
      obtain ⟨known, old⟩ := entry
      rw [find_cons] at found
      rw [Entries.insert]
      split_ifs at found ⊢ with here
      · rw [Option.some.inj found]
      · rw [induction found]

theorem find_congr (keyed : entries.Keyed) (plain : key.Plain) (same : key.sameKey query = true) :
    entries.find? key = entries.find? query := by
  induction entries with
  | nil => rfl
  | cons entry rest induction =>
      obtain ⟨known, old⟩ := entry
      rw [find_cons, find_cons, induction keyed.tail,
        Value.same_key_congr_right keyed.head plain same]

theorem find_eq_none (entries : Entries) (query : Value) :
    entries.find? query = none ↔ ∀ entry ∈ entries, entry.1.sameKey query = false := by
  simp [find?]

/-- What is found first is not found again. -/
theorem Distinct.find_rest (distinct : Distinct ((known, value) :: rest))
    (keyed : Keyed ((known, value) :: rest)) (here : known.sameKey query = true) :
    rest.find? query = none := by
  rw [find_eq_none]
  intro entry member
  have apart := (List.pairwise_cons.mp distinct).1 entry member
  by_contra again
  have same := Value.same_key_of_common keyed.head (keyed.tail entry member) here
    (by simpa using again)
  rw [apart] at same
  cases same

/-- Every entry whose key is the same as itself is found under its key. -/
theorem Distinct.find_member (distinct : entries.Distinct) (keyed : entries.Keyed)
    (member : (key, value) ∈ entries) (self : key.sameKey key = true) :
    entries.find? key = some value := by
  induction entries with
  | nil => cases member
  | cons entry rest induction =>
      obtain ⟨known, old⟩ := entry
      rw [find_cons]
      rcases List.mem_cons.mp member with here | later
      · cases here
        rw [if_pos self]
      · have apart := (List.pairwise_cons.mp distinct).1 _ later
        rw [if_neg (by simp [apart])]
        exact induction (List.pairwise_cons.mp distinct).2 keyed.tail later

end Entries

end SpreadWatch
