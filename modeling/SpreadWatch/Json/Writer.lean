import SpreadWatch.Value.Write

/-!
JSON texts of free values, in ASCII: on one line, or indented by two spaces. The indented text is
written piece by piece, so when a value cannot be encoded the pieces before it stand already. A list
or mapping that holds itself is written up to the place where it would be entered again.
-/

namespace SpreadWatch.Json

def unitEscape (unit : Nat) : List Char := '\\' :: 'u' :: Text.hexDigits 4 unit

/-- One character inside a JSON string. Beyond ASCII it is escaped by its one or two units. -/
def escapedChar (c : Char) : List Char :=
  let code := c.toNat
  if c == '"' then ['\\', '"']
  else if c == '\\' then ['\\', '\\']
  else if c == '\n' then ['\\', 'n']
  else if c == '\r' then ['\\', 'r']
  else if c == '\t' then ['\\', 't']
  else if code = 8 then ['\\', 'b']
  else if code = 12 then ['\\', 'f']
  else if 0x20 ≤ code ∧ code < 0x7F then [c]
  else if code < 0x10000 then unitEscape code
  else
    let offset := code - 0x10000
    unitEscape (0xD800 + offset / 0x400) ++ unitEscape (0xDC00 + offset % 0x400)

def stringText (text : String) : String :=
  String.ofList ('"' :: (text.toList.flatMap escapedChar ++ ['"']))

def floatText : Binary64 → String
  | .nan => "NaN"
  | .infinite negative => if negative then "-Infinity" else "Infinity"
  | value => value.toText

def intText (value : Int) : Except Failure String := (Value.int value).written

/-- The name of an entry. Truth values, null and numbers are named by their texts. The message about
any other key names its type. -/
def keyText (typeName : Value → String) : Value → Except Failure String
  | .text name => .ok (stringText name)
  | .null => .ok (stringText "null")
  | .bool value => .ok (stringText (if value then "true" else "false"))
  | .int value => do return stringText (← intText value)
  | .float value => .ok (stringText (floatText value))
  | key => .error (.wrongType ("keys must be str, int, float, bool or None, not " ++ typeName key))

def notEncodable (value : Value) : Failure :=
  .wrongType ("Object of type " ++ value.plainTypeName ++ " is not JSON serializable")

/-- The failure of entering a list or mapping again from inside. -/
def circular : Failure := .badValue "Circular reference detected"

def atomText (value : Value) : Except Failure String :=
  match value with
  | .null => .ok "null"
  | .bool value => .ok (if value then "true" else "false")
  | .int value => intText value
  | .float value => .ok (floatText value)
  | .text value => .ok (stringText value)
  | .back _ => .error circular
  | value => .error (notEncodable value)

mutual

def compact : Value → Except Failure String
  | .list items => do return "[" ++ ", ".intercalate (← compactItems items) ++ "]"
  | .pair first second => do return "[" ++ (← compact first) ++ ", " ++ (← compact second) ++ "]"
  | .dict entries => do return "\x7b" ++ ", ".intercalate (← compactEntries entries) ++ "\x7d"
  | .knot _ body => compact body
  | value => atomText value

def compactItems : List Value → Except Failure (List String)
  | [] => .ok []
  | item :: rest => do
      let text ← compact item
      return text :: (← compactItems rest)

def compactEntries : List (Value × Value) → Except Failure (List String)
  | [] => .ok []
  | (key, value) :: rest => do
      let name ← keyText Value.typeName key
      let text ← compact value
      return (name ++ ": " ++ text) :: (← compactEntries rest)

end

/-- What has been written, and the failure that ended it. -/
structure Written where
  text : String
  failure : Option Failure := none
deriving Repr

def Written.andThen (written : Written) (next : Unit → Written) : Written :=
  match written.failure with
  | some _ => written
  | none =>
      let more := next ()
      { more with text := written.text ++ more.text }

def Written.of : Except Failure String → Written
  | .ok text => { text }
  | .error failure => { text := "", failure := some failure }

def lineStart (depth : Nat) : String := "\n" ++ String.ofList (List.replicate (2 * depth) ' ')

/-- An item on a line of its own, behind the bracket or comma before it. An integer is handed over
in one piece with these, so where it has no text nothing is written. -/
def behind (depth : Nat) (lead : String) (item : Value) (written : Written) : Written :=
  match item, written.failure with
  | .int _, some _ => written
  | _, _ => { written with text := lead ++ lineStart depth ++ written.text }

mutual

/-- A value over several lines, inside collections of this depth. -/
def indented (depth : Nat) : Value → Written
  | .list [] => { text := "[]" }
  | .dict [] => { text := "\x7b\x7d" }
  | .list items =>
      (indentedItems (depth + 1) "[" items).andThen fun _ => { text := lineStart depth ++ "]" }
  | .pair first second =>
      ((behind (depth + 1) "[" first (indented (depth + 1) first)).andThen fun _ =>
        behind (depth + 1) "," second (indented (depth + 1) second)).andThen fun _ =>
          { text := lineStart depth ++ "]" }
  | .dict entries =>
      ((Written.of (.ok ("\x7b" ++ lineStart (depth + 1)))).andThen fun _ =>
        indentedEntries (depth + 1) true entries).andThen fun _ =>
          { text := lineStart depth ++ "\x7d" }
  | .knot _ body => indented depth body
  | value => Written.of (atomText value)

def indentedItems (depth : Nat) (lead : String) : List Value → Written
  | [] => { text := "" }
  | item :: rest =>
      (behind depth lead item (indented depth item)).andThen fun _ => indentedItems depth "," rest

/-- The entries of a mapping. A key without a name fails before its comma is written. -/
def indentedEntries (depth : Nat) (first : Bool) : List (Value × Value) → Written
  | [] => { text := "" }
  | (key, value) :: rest =>
      (Written.of ((keyText Value.plainTypeName key).map fun name =>
          (if first then "" else "," ++ lineStart depth) ++ name ++ ": ")).andThen fun _ =>
        (indented depth value).andThen fun _ => indentedEntries depth false rest

end

end SpreadWatch.Json
