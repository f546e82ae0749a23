import SpreadWatch.Rounding
import SpreadWatch.Value.Basic

/-!
The order of a set. Numbers are listed by their places in a table of a power of two: each goes to
the place of its residue, and where that is taken to the next place of a fixed sequence. Members
that are no numbers keep the order in which they were given.
-/

namespace SpreadWatch.Value

def residuePrime : Nat := power 2 61 - 1

/-- The residue of a number; minus one has the residue of minus two. -/
def residue? : Value → Option Int
  | .bool value => some (if value then 1 else 0)
  | .int value => some (signed (decide (value < 0)) (value.natAbs % residuePrime))
  | .float (.finite negative mantissa exponent) =>
      some (signed negative
        (mantissa % residuePrime * power 2 (Int.fmod exponent 61).toNat % residuePrime))
  | .float (.infinite negative) => some (signed negative 314159)
  | _ => none
where
  signed (negative : Bool) (magnitude : Nat) : Int :=
    if negative then if magnitude = 1 then -2 else -(magnitude : Int) else magnitude

def placesFor (count : Nat) : Nat :=
  if count < 5 then 8 else grow 64 8
where
  grow : Nat → Nat → Nat
    | 0, size => size
    | fuel + 1, size => if size ≤ 2 * count then grow fuel (2 * size) else size

/-- The first free place from a start on: the next ten in a row where so many are left, else
places scattered by what remains of the residue. -/
def freePlace (taken : List Nat) (size : Nat) : Nat → Nat → Nat → Nat
  | 0, place, _ => place
  | fuel + 1, place, rest =>
      let reach := if place + 9 < size then 10 else 1
      match (List.range reach).find? fun step => ! taken.contains (place + step) with
      | some step => place + step
      | none =>
          let rest := rest / 32
          freePlace taken size fuel ((5 * place + 1 + rest) % size) rest

def placesOf (size : Nat) : List Nat → List Int → List Nat
  | _, [] => []
  | taken, residue :: rest =>
      let bits := (Int.emod residue (power 2 64)).toNat
      let place := freePlace taken size (size + 64) (bits % size) bits
      place :: placesOf size (place :: taken) rest

/-- The members of a set in the order in which they are listed. -/
def inSetOrder (members : List Value) : List Value :=
  match members.mapM residue? with
  | none => members
  | some residues =>
      let places := placesOf (placesFor members.length) [] residues
      ((places.zip members).mergeSort fun a b => decide (a.1 ≤ b.1)).map (·.2)

end SpreadWatch.Value
