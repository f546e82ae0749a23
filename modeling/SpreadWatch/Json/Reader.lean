import SpreadWatch.Decimal.Text
import SpreadWatch.Value.Write

/-!
Reading JSON texts. Besides the standard notation the numbers NaN and the infinities are taken by
their names; a repeated name keeps its place and takes the last value. A text is read from its
beginning, and the first fault counts. Strings are sequences of characters here, so half a pair of
units is refused where a string of units could hold it.
-/

namespace SpreadWatch.Json

/-- Why a text cannot be read: it is no JSON, or it holds an integer that is too long, collections
that lie too deep in each other or half a pair of units. -/
inductive Fault where
  | malformed
  | failing (failure : Failure)
deriving Repr, Inhabited

def required (part : Option α) : Except Fault α :=
  match part with
  | some part => .ok part
  | none => .error .malformed

def isWhite (c : Char) : Bool := c == ' ' || c == '\t' || c == '\n' || c == '\r'

def skipWhite (chars : List Char) : List Char := chars.dropWhile isWhite

def afterWord? (word : String) (chars : List Char) : Option (List Char) :=
  if word.toList.isPrefixOf chars then some (chars.drop word.length) else none

def unit? (chars : List Char) : Option (Nat × List Char) :=
  let digits := chars.take 4
  let value? (c : Char) : Option Nat :=
    if c.isDigit then some (c.toNat - 48)
    else if 'a' ≤ c.toLower ∧ c.toLower ≤ 'f' then some (c.toLower.toNat - 87)
    else none
  if digits.length = 4 then
    (digits.foldlM (fun total c => (value? c).map (16 * total + ·)) 0).map (·, chars.drop 4)
  else none

/-- The fault of half a pair of units. It is a failure of its own and not of JSON, so a text that
holds one is neither taken in nor passed over as no JSON. -/
def halfPair : Fault := .failing (.source "half a pair of units is no character")

def unitChar (chars : List Char) : Except Fault (Char × List Char) := do
  let (high, rest) ← required (unit? chars)
  if 0xD800 ≤ high ∧ high < 0xDC00 then
    match rest with
    | '\\' :: 'u' :: more =>
        let (low, after) ← required (unit? more)
        if 0xDC00 ≤ low ∧ low < 0xE000 then
          return (Char.ofNat (0x10000 + (high - 0xD800) * 0x400 + (low - 0xDC00)), after)
        else throw halfPair
    | _ => throw halfPair
  else if 0xDC00 ≤ high ∧ high < 0xE000 then throw halfPair
  else return (Char.ofNat high, rest)

def letterEscapes : List (Char × Char) :=
  [('"', '"'), ('\\', '\\'), ('/', '/'), ('b', '\x08'), ('f', '\x0c'), ('n', '\n'), ('r', '\r'),
    ('t', '\t')]

def stringRest : Nat → List Char → Except Fault (List Char × List Char)
  | 0, _ => throw .malformed
  | _ + 1, [] => throw .malformed
  | _ + 1, '"' :: rest => return ([], rest)
  | fuel + 1, '\\' :: 'u' :: rest => do
      let (c, rest) ← unitChar rest
      let (chars, rest) ← stringRest fuel rest
      return (c :: chars, rest)
  | fuel + 1, '\\' :: letter :: rest => do
      let c ← required (letterEscapes.lookup letter)
      let (chars, rest) ← stringRest fuel rest
      return (c :: chars, rest)
  | fuel + 1, c :: rest => do
      if c == '\\' || c.toNat < 0x20 then throw .malformed
      let (chars, rest) ← stringRest fuel rest
      return (c :: chars, rest)

/-- The digits behind a point, if a digit stands there. -/
def fraction (chars : List Char) : List Char × List Char :=
  match chars with
  | '.' :: rest =>
      let digits := rest.takeWhile Char.isDigit
      if digits.isEmpty then ([], chars) else (digits, rest.dropWhile Char.isDigit)
  | _ => ([], chars)

/-- An exponent, if a digit stands behind its mark and sign. -/
def exponent? (chars : List Char) : Option Int × List Char :=
  match chars with
  | mark :: rest =>
      if mark == 'e' || mark == 'E' then
        let (negative, more) := Decimal.readSign rest
        let digits := more.takeWhile Char.isDigit
        if digits.isEmpty then (none, chars)
        else
          let magnitude : Int := Text.wordValue digits
          (some (if negative then -magnitude else magnitude), more.dropWhile Char.isDigit)
      else (none, chars)
  | [] => (none, chars)

def wholeDigits (chars : List Char) : List Char × List Char :=
  match chars with
  | '0' :: rest => (['0'], rest)
  | _ => (chars.takeWhile Char.isDigit, chars.dropWhile Char.isDigit)

def number (chars : List Char) : Except Fault (Value × List Char) := do
  let (negative, unsigned) := match chars with
    | '-' :: rest => (true, rest)
    | _ => (false, chars)
  let (whole, afterWhole) := wholeDigits unsigned
  if whole.isEmpty then throw .malformed
  let (places, afterFraction) := fraction afterWhole
  let (exponent, rest) := exponent? afterFraction
  if places.isEmpty && exponent.isNone then
    if Value.longestInteger < whole.length then
      throw (.failing (Value.tooManyDigits whole.length))
    let magnitude : Int := Text.wordValue whole
    return (.int (if negative then -magnitude else magnitude), rest)
  else
    return (.float (.ofScaled negative (Text.wordValue (whole ++ places))
      (exponent.getD 0 - places.length)), rest)

def words : List (String × Value) :=
  [("null", .null), ("true", .bool true), ("false", .bool false), ("NaN", .float .nan),
    ("Infinity", .float (.infinite false)), ("-Infinity", .float (.infinite true))]

def word? (chars : List Char) : Option (Value × List Char) :=
  words.findSome? fun (word, value) => (afterWord? word chars).map (value, ·)

/-- The greatest number of collections that may lie in each other. -/
def deepest : Nat := 965

def tooDeep (kind : String) : Fault :=
  .failing (.tooDeep ("maximum recursion depth exceeded while decoding a JSON " ++ kind ++
    " from a unicode string"))

mutual

/-- A value at the start of a text, inside collections of this depth. -/
def value (depth : Nat) : Nat → List Char → Except Fault (Value × List Char)
  | 0, _ => throw .malformed
  | fuel + 1, '"' :: rest => do
      let (chars, rest) ← stringRest (fuel + 1) rest
      return (.text (String.ofList chars), rest)
  | fuel + 1, '[' :: rest => do
      if deepest ≤ depth then throw (tooDeep "array")
      match skipWhite rest with
      | ']' :: rest => return (.list [], rest)
      | rest =>
          let (items, rest) ← items (depth + 1) fuel rest
          return (.list items, rest)
  | fuel + 1, c :: rest => do
      if c.toNat = 0x7B then
        if deepest ≤ depth then throw (tooDeep "object")
        match skipWhite rest with
        | [] => throw .malformed
        | first :: more =>
            if first.toNat = 0x7D then return (.dict [], more)
            let (pairs, rest) ← entries (depth + 1) fuel (first :: more)
            return (.dict (Entries.ofPairs pairs), rest)
      else
        match word? (c :: rest) with
        | some found => return found
        | none => number (c :: rest)
  | _ + 1, [] => throw .malformed

def items (depth : Nat) : Nat → List Char → Except Fault (List Value × List Char)
  | 0, _ => throw .malformed
  | fuel + 1, chars => do
      let (item, rest) ← value depth fuel (skipWhite chars)
      match skipWhite rest with
      | ']' :: rest => return ([item], rest)
      | ',' :: rest =>
          let (items, rest) ← items depth fuel rest
          return (item :: items, rest)
      | _ => throw .malformed

def entries (depth : Nat) : Nat → List Char → Except Fault (List (Value × Value) × List Char)
  | 0, _ => throw .malformed
  | fuel + 1, chars => do
      match skipWhite chars with
      | '"' :: rest =>
          let (name, rest) ← stringRest (fuel + 1) rest
          match skipWhite rest with
          | ':' :: rest =>
              let (value, rest) ← value depth fuel (skipWhite rest)
              let entry := (Value.text (String.ofList name), value)
              match skipWhite rest with
              | ',' :: rest =>
                  let (entries, rest) ← entries depth fuel rest
                  return (entry :: entries, rest)
              | mark :: rest =>
                  if mark.toNat = 0x7D then return ([entry], rest) else throw .malformed
              | [] => throw .malformed
          | _ => throw .malformed
      | _ => throw .malformed

end

def read (text : String) : Except Fault Value := do
  let chars := skipWhite text.toList
  let (value, rest) ← value 0 (2 * chars.length + 2) chars
  if (skipWhite rest).isEmpty then return value else throw .malformed

end SpreadWatch.Json
