import SpreadWatch.Calendar.Iso
import SpreadWatch.Decimal.Text
import SpreadWatch.Value.Write
import SpreadWatch.Yaml.Cursor

/-!
Scalars: the type that a plain text has by its form, and the value of a text as a given type.
-/

namespace SpreadWatch.Yaml

/-- The types of nodes. Tags of any other name have no values. -/
inductive Tag where
  | text
  | null
  | bool
  | int
  | float
  | timestamp
  | binary
  | sequence
  | orderedMapping
  | pairs
  | set
  | mapping
  | merge
  | defaultValue
  | unknown
deriving DecidableEq, Repr, Inhabited

def standardTags : String := "tag:yaml.org,2002:"

def Tag.ofName (name : String) : Tag :=
  if name == standardTags ++ "str" then .text
  else if name == standardTags ++ "null" then .null
  else if name == standardTags ++ "bool" then .bool
  else if name == standardTags ++ "int" then .int
  else if name == standardTags ++ "float" then .float
  else if name == standardTags ++ "timestamp" then .timestamp
  else if name == standardTags ++ "binary" then .binary
  else if name == standardTags ++ "seq" then .sequence
  else if name == standardTags ++ "omap" then .orderedMapping
  else if name == standardTags ++ "pairs" then .pairs
  else if name == standardTags ++ "set" then .set
  else if name == standardTags ++ "map" then .mapping
  else if name == standardTags ++ "merge" then .merge
  else if name == standardTags ++ "value" then .defaultValue
  else .unknown

namespace Scalar

/-! ### Forms of plain texts -/

def isDigits (word : List Char) : Bool := ! word.isEmpty && word.all Char.isDigit

def isGrouped (word : List Char) : Bool :=
  word.head?.any Char.isDigit && word.all fun c => c.isDigit || c == '_'

def dropSign : List Char → List Char
  | '-' :: rest => rest
  | '+' :: rest => rest
  | rest => rest

/-- One or two digits of which the first of two is at most five. -/
def isSixtieth : List Char → Bool
  | [a] => a.isDigit
  | [a, b] => '0' ≤ a && a ≤ '5' && b.isDigit
  | _ => false

def boolWords : List (String × Bool) :=
  [("yes", true), ("no", false), ("true", true), ("false", false), ("on", true), ("off", false)]

def spellings (word : String) : List String := [word, word.capitalize, word.toUpper]

def isBoolForm (text : String) : Bool :=
  boolWords.any fun (word, _) => (spellings word).contains text

def isNullForm (text : String) : Bool :=
  text == "~" || (spellings "null").contains text

def isIntForm (text : List Char) : Bool :=
  let word := dropSign text
  match word with
  | ['0'] => true
  | '0' :: 'b' :: digits => ! digits.isEmpty && digits.all fun c => c == '0' || c == '1' || c == '_'
  | '0' :: 'x' :: digits => ! digits.isEmpty && digits.all fun c => isHexDigit c || c == '_'
  | '0' :: digits => digits.all fun c => ('0' ≤ c && c ≤ '7') || c == '_'
  | _ =>
      match word.splitOn ':' with
      | first :: rest => isGrouped first && rest.all isSixtieth
      | [] => false

def isExponentForm : List Char → Bool
  | [] => true
  | mark :: sign :: digits =>
      (mark == 'e' || mark == 'E') && (sign == '-' || sign == '+') && isDigits digits
  | _ => false

def isMantissaChar (c : Char) : Bool := c.isDigit || c == '_'

def isPointForm (text : List Char) : Bool :=
  let word := dropSign text
  let whole := word.takeWhile isMantissaChar
  match word.dropWhile isMantissaChar with
  | '.' :: rest =>
      let fraction := rest.takeWhile isMantissaChar
      let exponent := rest.dropWhile isMantissaChar
      (isGrouped whole || (word.length == text.length && whole.isEmpty && isGrouped fraction)) &&
        isExponentForm exponent
  | _ => false

def isSixtyPointForm (text : List Char) : Bool :=
  let word := dropSign text
  let parts := (word.takeWhile (· != '.')).splitOn ':'
  match word.dropWhile (· != '.'), parts with
  | '.' :: fraction, first :: second :: rest =>
      isGrouped first && (second :: rest).all isSixtieth && fraction.all isMantissaChar
  | _, _ => false

def isFloatForm (text : List Char) : Bool :=
  isPointForm text || isSixtyPointForm text ||
    (["inf", "Inf", "INF"].any fun word => dropSign text == '.' :: word.toList) ||
    (["nan", "NaN", "NAN"].any fun word => text == '.' :: word.toList)

/-! ### Dates and times -/

structure Stamp where
  year : Nat
  month : Nat
  day : Nat
  time : Option (Nat × Nat × Nat)
  fraction : List Char
  zone : Option (Option (Bool × Nat × Nat))
  shortDate : Bool
deriving Repr

def takeDigits (least most : Nat) (chars : List Char) : Option (List Char × List Char) :=
  let digits := (chars.take most).takeWhile Char.isDigit
  if least ≤ digits.length then some (digits, chars.drop digits.length) else none

def takeMark (mark : Char) : List Char → Option (List Char)
  | c :: rest => if c == mark then some rest else none
  | [] => none

def isTabOrSpace (c : Char) : Bool := c == ' ' || c == '\t'

/-- The zone behind a time: nothing, Z, or an offset whose minutes may be missing. -/
def takeStampZone (chars : List Char) : Option (Option (Option (Bool × Nat × Nat))) :=
  match chars.dropWhile isTabOrSpace with
  | [] => if chars.isEmpty then some none else none
  | ['Z'] => some (some none)
  | sign :: rest => do
      if sign != '-' && sign != '+' then none
      let (hours, rest) ← takeDigits 1 2 rest
      let minutes ← match rest with
        | [] => some 0
        | _ => do
            let (digits, rest) ← takeDigits 2 2 (← takeMark ':' rest)
            if rest.isEmpty then some (Text.wordValue digits) else none
      return some (some (sign == '-', Text.wordValue hours, minutes))

def stamp? (chars : List Char) : Option Stamp := do
  let (year, rest) ← takeDigits 4 4 chars
  let (month, rest) ← takeDigits 1 2 (← takeMark '-' rest)
  let (day, rest) ← takeDigits 1 2 (← takeMark '-' rest)
  let stamp : Stamp := {
    year := Text.wordValue year, month := Text.wordValue month, day := Text.wordValue day
    time := none, fraction := [], zone := none
    shortDate := month.length < 2 || day.length < 2 }
  match rest with
  | [] => return stamp
  | c :: more =>
      let rest ← if c == 'T' || c == 't' then some more
        else if isTabOrSpace c then some (more.dropWhile isTabOrSpace) else none
      let (hour, rest) ← takeDigits 1 2 rest
      let (minute, rest) ← takeDigits 2 2 (← takeMark ':' rest)
      let (second, rest) ← takeDigits 2 2 (← takeMark ':' rest)
      let (fraction, rest) := match rest with
        | '.' :: more => (more.takeWhile Char.isDigit, more.dropWhile Char.isDigit)
        | _ => ([], rest)
      return { stamp with
        time := some (Text.wordValue hour, Text.wordValue minute, Text.wordValue second)
        fraction
        zone := ← takeStampZone rest }

/-- A date alone needs two digits for month and day. -/
def isTimestampForm (text : List Char) : Bool :=
  (stamp? text).any fun stamp => stamp.time.isSome || ! stamp.shortDate

/-! ### The type of a plain text -/

/-- A text without the line feed at its end, if it has one: forms take no notice of it. -/
def dropLineEnd (text : List Char) : List Char :=
  if text.getLast? == some '\n' then text.dropLast else text

/-- The type of a text by its form. Only the empty text itself has the form of nothing. -/
def plainTag (text : String) : Tag :=
  let chars := dropLineEnd text.toList
  let form := String.ofList chars
  if text.isEmpty then .null
  else if form.isEmpty then .text
  else if isBoolForm form then .bool
  else if isFloatForm chars then .float
  else if isIntForm chars then .int
  else if form == "<<" then .merge
  else if isNullForm form then .null
  else if isTimestampForm chars then .timestamp
  else if form == "=" then .defaultValue
  else .text

/-! ### Values -/

def badScalar : Fault := .failing (.badValue "invalid literal")

def digitIn? (base : Nat) (c : Char) : Option Nat :=
  let value :=
    if isHexDigit c then some (hexDigit c) else Text.digitValue? c
  value.filter (· < base)
where
  hexDigit (c : Char) : Nat := if c.isDigit then c.toNat - 48 else c.toLower.toNat - 87

def baseMark? : Nat → Option Char
  | 2 => some 'b'
  | 8 => some 'o'
  | 16 => some 'x'
  | _ => none

def readInt (base : Nat) (text : List Char) : Except Fault Int :=
  let word := Text.trimWhere Text.isPadding text
  let (negative, digits) := Decimal.readSign word
  let digits := match digits with
    | '0' :: mark :: rest => if (baseMark? base).any (· == mark.toLower) then rest else digits
    | _ => digits
  if digits.isEmpty || (base == 10 && Value.longestInteger < digits.length) then .error badScalar
  else
    match digits.foldlM (fun total c => (digitIn? base c).map (base * total + ·)) 0 with
    | some magnitude => .ok (if negative then -magnitude else magnitude)
    | none => .error badScalar

def readFloat (text : List Char) : Except Fault Binary64 :=
  match (Text.trimWhere Text.isPadding text).mapM Decimal.plainChar? with
  | none => .error badScalar
  | some word =>
      let (negative, digits) := Decimal.readSign word
      match Decimal.readFinite? negative digits with
      | some number => .ok (.ofDecimal number)
      | none =>
          match Decimal.readSpecial? negative digits with
          | some (.infinite negative) => .ok (.infinite negative)
          | some (.nan _ false 0) =>
              if digits.length = 3 then .ok .nan else .error badScalar
          | _ => .error badScalar

/-- The text without underscores, its sign, and what stands behind the sign. -/
def signAndRest (text : String) : Except Fault (Bool × List Char) :=
  match text.toList.filter (· != '_') with
  | [] => .error (.failing .missingItem)
  | '-' :: rest => .ok (true, rest)
  | '+' :: rest => .ok (false, rest)
  | rest => .ok (false, rest)

def baseSixty (digits : List Int) : Int := digits.foldl (fun total digit => 60 * total + digit) 0

def intValue (text : String) : Except Fault Value := do
  let (negative, word) ← signAndRest text
  let magnitude ← match word with
    | ['0'] => pure 0
    | '0' :: 'b' :: digits => readInt 2 digits
    | '0' :: 'x' :: digits => readInt 16 digits
    | '0' :: _ => readInt 8 word
    | [] => throw (.failing .missingItem)
    | _ =>
        if word.contains ':' then
          return .int (sign negative (baseSixty (← (word.splitOn ':').mapM (readInt 10))))
        else readInt 10 word
  return .int (sign negative magnitude)
where
  sign (negative : Bool) (magnitude : Int) : Int := if negative then -magnitude else magnitude

def sumSixty : Binary64 → Int → List Binary64 → Except Fault Binary64
  | total, _, [] => .ok total
  | total, weight, digit :: rest =>
      match Binary64.ofInt weight with
      | .finite n m e => sumSixty (total.add (digit.multiply (.finite n m e))) (weight * 60) rest
      | _ => .error (.failing .outOfRange)

def floatValue (text : String) : Except Fault Value := do
  let (negative, word) ← signAndRest text
  let word := word.map Char.toLower
  let magnitude ←
    if word == ".inf".toList then pure (.infinite false)
    else if word == ".nan".toList then return .float .nan
    else if word.contains ':' then do
      sumSixty .zero 1 (← (word.splitOn ':').mapM readFloat).reverse
    else readFloat word
  return .float (if negative then magnitude.negate else magnitude)

def boolValue (text : String) : Except Fault Value :=
  match boolWords.lookup text.toLower with
  | some value => .ok (.bool value)
  | none => .error (.failing (.missingKey text.toLower))

/-- A fraction of a second in microseconds; further digits are cut off. -/
def microseconds (fraction : List Char) : Nat :=
  let digits := fraction.take 6
  Text.wordValue (digits ++ List.replicate (6 - digits.length) '0')

def stampZone : Option (Option (Bool × Nat × Nat)) → Except Fault (Option Calendar.Zone)
  | none => .ok none
  | some none => .ok (some .utc)
  | some (some (negative, hours, minutes)) =>
      let seconds := (hours * 60 + minutes) * 60
      if 86400 ≤ seconds then .error badScalar
      else if seconds = 0 then .ok (some .utc)
      else .ok (some (.fixed (if negative then -(seconds : Int) else seconds)))

def timestampValue (text : String) : Except Fault Value := do
  let some stamp := stamp? (dropLineEnd text.toList)
    | throw (.failing (.missingMember "no time stamp"))
  let date : Calendar.Date := { year := stamp.year, month := stamp.month, day := stamp.day }
  match stamp.time with
  | none => if date.isValid then return .date date else throw badScalar
  | some (hour, minute, second) =>
      let zone ← stampZone stamp.zone
      if date.isValid && hour < 24 && minute < 60 && second < 60 then
        let wall := Calendar.wallOf date hour minute second (microseconds stamp.fraction)
        return .moment { wall, zone }
      else throw badScalar

def sextet? (c : Char) : Option Nat :=
  if 'A' ≤ c && c ≤ 'Z' then some (c.toNat - 65)
  else if 'a' ≤ c && c ≤ 'z' then some (c.toNat - 71)
  else if c.isDigit then some (c.toNat + 4)
  else if c == '+' then some 62
  else if c == '/' then some 63
  else none

/-- The bytes of a text in base 64, given the sextets read of a group of four, what is left of the
last one, and the padding behind it. Other characters are skipped. Padding ends the text where it
fills up a group; without it no group may stay open. -/
def bytesOf (place left padding : Nat) : List Char → Except Fault (List UInt8)
  | [] => if place = 0 then .ok [] else .error .malformed
  | c :: rest =>
      if c == '=' then
        if place < 2 then bytesOf place left padding rest
        else if 4 ≤ place + padding + 1 then .ok []
        else bytesOf place left (padding + 1) rest
      else
        match sextet? c with
        | none => bytesOf place left padding rest
        | some bits =>
            match place with
            | 0 => bytesOf 1 bits 0 rest
            | 1 => return UInt8.ofNat (left * 4 + bits / 16) :: (← bytesOf 2 (bits % 16) 0 rest)
            | 2 => return UInt8.ofNat (left * 16 + bits / 4) :: (← bytesOf 3 (bits % 4) 0 rest)
            | _ => return UInt8.ofNat (left * 64 + bits) :: (← bytesOf 0 0 0 rest)

def binaryValue (text : String) : Except Fault Value := do
  if ! text.toList.all fun c => c.toNat < 128 then throw .malformed
  return .bytes (← bytesOf 0 0 0 text.toList)

def value (tag : Tag) (text : String) : Except Fault Value :=
  match tag with
  | .text => .ok (.text text)
  | .null => .ok .null
  | .bool => boolValue text
  | .int => intValue text
  | .float => floatValue text
  | .timestamp => timestampValue text
  | .binary => binaryValue text
  | _ => .error .malformed

end Scalar

end SpreadWatch.Yaml
