import SpreadWatch.Binary64.Basic
import SpreadWatch.Calendar.Moment

/-!
Free values: what configuration files, overrides and events hold. Mappings keep the order in which
their keys were first given. Keys that are equal as numbers are one key, whatever their type.

A list or mapping of a file may hold itself. Such a value is a knot: its body stands for the list
or mapping, and the places inside that hold it again refer back by the knot's label. `opened` is the
view through which a knot looks like any other list or mapping.
-/

namespace SpreadWatch

inductive Value where
  | null
  | bool (value : Bool)
  | int (value : Int)
  | float (value : Binary64)
  | decimal (value : Decimal)
  | text (value : String)
  | bytes (value : List UInt8)
  | list (items : List Value)
  | pair (first second : Value)
  | set (members : List Value)
  | dict (entries : List (Value × Value))
  | date (value : Calendar.Date)
  | moment (value : Calendar.Moment)
  | knot (label : Nat) (body : Value)
  | back (label : Nat)
deriving Repr, Inhabited

namespace Value

/-! ### Knots -/

mutual

/-- Puts a value where a label is referred back to. A knot of the same label inside has its own
references. -/
def fill (label : Nat) (whole : Value) : Value → Value
  | .back other => if other = label then whole else .back other
  | .list items => .list (fillItems label whole items)
  | .pair first second => .pair (fill label whole first) (fill label whole second)
  | .dict entries => .dict (fillEntries label whole entries)
  | .knot inner body =>
      if inner = label then .knot inner body else .knot inner (fill label whole body)
  | value => value

def fillItems (label : Nat) (whole : Value) : List Value → List Value
  | [] => []
  | item :: rest => fill label whole item :: fillItems label whole rest

def fillEntries (label : Nat) (whole : Value) : List (Value × Value) → List (Value × Value)
  | [] => []
  | (key, value) :: rest => (key, fill label whole value) :: fillEntries label whole rest

end

/-- The list or mapping that a knot stands for; any other value is itself. -/
def opened : Value → Value
  | .knot label body => fill label (.knot label body) body
  | value => value

def items? (value : Value) : Option (List Value) :=
  match value.opened with
  | .list items => some items
  | _ => none

def entries? (value : Value) : Option (List (Value × Value)) :=
  match value.opened with
  | .dict entries => some entries
  | _ => none

/-! ### Keys and truth -/

/-- The number that a value is as a key or in a comparison; truth values count as 0 and 1. -/
def toNumber? : Value → Option Decimal
  | .bool value => some (if value then Decimal.one else Decimal.zero)
  | .int value => some (Decimal.ofInt value)
  | .float value => some value.toDecimal
  | .decimal value => some value
  | _ => none

/-- Whether two moments are one key: the same reading on one clock, or the same instant on two. -/
def sameMoment (a b : Calendar.Moment) : Bool := a.since? b == some 0

/-- Whether two values are the same key of a mapping. Lists, sets and mappings are no keys. -/
def sameKey : Value → Value → Bool
  | .null, .null => true
  | .text a, .text b => a == b
  | .bytes a, .bytes b => a == b
  | .date a, .date b => a == b
  | .moment a, .moment b => sameMoment a b
  | .pair first second, .pair third fourth => first.sameKey third && second.sameKey fourth
  | a, b =>
      match a.toNumber?, b.toNumber? with
      | some x, some y => Decimal.compare? x y == some .eq
      | _, _ => false

def isKey : Value → Bool
  | .list _ | .set _ | .dict _ | .knot .. | .back _ => false
  | .pair first second => first.isKey && second.isKey
  | .decimal (.nan _ signaling _) => ! signaling
  | _ => true

def isTruthy : Value → Bool
  | .null => false
  | .bool value => value
  | .int value => value != 0
  | .float value => ! value.isZero
  | .decimal value => ! value.isZero
  | .text value => ! value.isEmpty
  | .bytes value => ! value.isEmpty
  | .list items => ! items.isEmpty
  | .set members => ! members.isEmpty
  | .dict entries => ! entries.isEmpty
  | .knot _ body => body.isTruthy
  | .pair .. | .date _ | .moment _ | .back _ => true

def ofOption (wrap : α → Value) : Option α → Value
  | some value => wrap value
  | none => .null

def ofFields (fields : List (String × Value)) : Value :=
  .dict (fields.map fun (name, value) => (.text name, value))

end Value

/-- The entries of a mapping, in the order in which their keys were first given. -/
abbrev Entries := List (Value × Value)

namespace Entries

def find? (entries : Entries) (key : Value) : Option Value :=
  (List.find? (fun entry : Value × Value => entry.1.sameKey key) entries).map (·.2)

def get? (entries : Entries) (name : String) : Option Value := entries.find? (.text name)

def get (entries : Entries) (name : String) : Value := (entries.get? name).getD .null

def contains (entries : Entries) (name : String) : Bool := (entries.get? name).isSome

/-- Gives a key a value. A key that is there already keeps its place and its first form. -/
def insert : Entries → Value → Value → Entries
  | [], key, value => [(key, value)]
  | (known, old) :: rest, key, value =>
      if known.sameKey key then (known, value) :: rest else (known, old) :: insert rest key value

def set (entries : Entries) (name : String) (value : Value) : Entries :=
  entries.insert (.text name) value

def erase (entries : Entries) (name : String) : Entries :=
  List.filter (fun entry : Value × Value => ! entry.1.sameKey (.text name)) entries

def ofPairs (pairs : List (Value × Value)) : Entries :=
  pairs.foldl (fun entries (key, value) => entries.insert key value) []

end Entries

end SpreadWatch
