import SpreadWatch.Yaml.Cursor

/-!
The texts of scalars: plain ones, quoted ones and block ones, with the folding of line breaks, the
escapes of double quotes and the indentation and chomping of blocks.
-/

namespace SpreadWatch.Yaml

def escapes : List (Char × Nat) :=
  [('0', 0), ('a', 7), ('b', 8), ('t', 9), ('\t', 9), ('n', 10), ('v', 11), ('f', 12), ('r', 13),
    ('e', 27), (' ', 32), ('"', 34), ('\\', 92), ('/', 47), ('N', 0x85), ('_', 0xA0),
    ('L', 0x2028), ('P', 0x2029)]

def escapeWidth? : Char → Option Nat
  | 'x' => some 2
  | 'u' => some 4
  | 'U' => some 8
  | _ => none

def hexValue (digits : List Char) : Nat :=
  digits.foldl (fun total c =>
    16 * total + (if c.isDigit then c.toNat - 48 else c.toLower.toNat - 87)) 0

/-- The character of a code point. Beyond the last one there is none. Half a pair of units is refused
as well, for texts are sequences of characters here. -/
def charOfCode (code : Nat) : Except Fault Char :=
  if 0x7FFFFFFF < code then .error (.failing .outOfRange)
  else if 0x10FFFF < code then .error (.failing (.badValue "chr() arg not in range(0x110000)"))
  else if 0xD800 ≤ code ∧ code < 0xE000 then
    .error (.failing (.source "half a pair of units is no character"))
  else .ok (Char.ofNat code)

/-- Line breaks inside a quoted scalar, with the blanks around them. A document mark must not stand
at the start of a line. -/
def quotedBreaks : Nat → Cursor → Except Fault (List Char × Cursor)
  | 0, _ => .error .malformed
  | fuel + 1, cursor =>
      if cursor.atAnyDocumentMark then .error .malformed
      else
        let cursor := cursor.skip fun c => c == ' ' || c == '\t'
        if isBreak cursor.peek then do
          let (first, cursor) := cursor.lineBreak
          let (rest, cursor) ← quotedBreaks fuel cursor
          return (first ++ rest, cursor)
        else .ok ([], cursor)

def escaped (fuel : Nat) (cursor : Cursor) : Except Fault (List Char × Cursor) := do
  let c := cursor.peek
  if let some code := escapes.lookup c then return ([Char.ofNat code], cursor.step)
  if let some width := escapeWidth? c then
    let digits := cursor.step.rest.take width
    if digits.length = width ∧ digits.all isHexDigit then
      return ([← charOfCode (hexValue digits)], cursor.step.advance width)
    throw .malformed
  if isBreak c then
    quotedBreaks fuel cursor.lineBreak.2
  else throw .malformed

/-- The part of a quoted scalar up to the next blank, break or closing quote. -/
def quotedWord (double : Bool) : Nat → Cursor → Except Fault (List Char × Cursor)
  | 0, _ => .error .malformed
  | fuel + 1, cursor => do
      let (word, cursor) := cursor.span fun c =>
        ! (c == '\'' || c == '"' || c == '\\' || isBlankOrEnd c)
      let c := cursor.peek
      if ! double && c == '\'' && cursor.peekAt 1 == '\'' then
        let (rest, cursor) ← quotedWord double fuel (cursor.advance 2)
        return (word ++ '\'' :: rest, cursor)
      else if (double && c == '\'') || (! double && (c == '"' || c == '\\')) then
        let (rest, cursor) ← quotedWord double fuel cursor.step
        return (word ++ c :: rest, cursor)
      else if double && c == '\\' then
        let (chars, cursor) ← escaped fuel cursor.step
        let (rest, cursor) ← quotedWord double fuel cursor
        return (word ++ chars ++ rest, cursor)
      else return (word, cursor)

/-- Blanks inside a quoted scalar; a single line break among them is folded into a space. -/
def quotedSpaces (fuel : Nat) (cursor : Cursor) : Except Fault (List Char × Cursor) := do
  let (blanks, cursor) := cursor.span fun c => c == ' ' || c == '\t'
  if isEnd cursor.peek then throw .malformed
  if isBreak cursor.peek then
    let (first, cursor) := cursor.lineBreak
    let (breaks, cursor) ← quotedBreaks fuel cursor
    let folded := if first != ['\n'] then first else if breaks.isEmpty then [' '] else []
    return (folded ++ breaks, cursor)
  return (blanks, cursor)

def quotedRest (double : Bool) : Nat → Cursor → Except Fault (List Char × Cursor)
  | 0, _ => .error .malformed
  | fuel + 1, cursor => do
      if cursor.peek == (if double then '"' else '\'') then return ([], cursor.step)
      let (spaces, cursor) ← quotedSpaces fuel cursor
      let (word, cursor) ← quotedWord double fuel cursor
      let (rest, cursor) ← quotedRest double fuel cursor
      return (spaces ++ word ++ rest, cursor)

/-- A quoted scalar, the cursor standing at its opening quote. -/
def quotedScalar (cursor : Cursor) : Except Fault (String × Cursor) := do
  let double := cursor.peek == '"'
  let fuel := cursor.rest.length + 1
  let (word, cursor) ← quotedWord double fuel cursor.step
  let (rest, cursor) ← quotedRest double fuel cursor
  return (String.ofList (word ++ rest), cursor)

/-- The indicators in the head of a block scalar: whether trailing breaks are all kept or all
dropped, if it says so, and how far the block is indented, if it says so. -/
def blockHead (cursor : Cursor) : Except Fault ((Option Bool × Option Nat) × Cursor) := do
  let chomp? (c : Char) : Option Bool :=
    if c == '+' then some true else if c == '-' then some false else none
  let width? (c : Char) : Option Nat := if c.isDigit then some (c.toNat - 48) else none
  let c := cursor.peek
  let (keep, width, cursor) := match chomp? c with
    | some keep => match width? (cursor.peekAt 1) with
        | some width => (some keep, some width, cursor.advance 2)
        | none => (some keep, none, cursor.step)
    | none => match width? c with
        | some width => match chomp? (cursor.peekAt 1) with
            | some keep => (some keep, some width, cursor.advance 2)
            | none => (none, some width, cursor.step)
        | none => (none, none, cursor)
  if width == some 0 || ! isSpaceOrEnd cursor.peek then throw .malformed
  let cursor := cursor.skipComment
  if ! isBreakOrEnd cursor.peek then throw .malformed
  return ((keep, width), cursor.lineBreak.2)

/-- The empty lines before a block's first line, and the widest indentation among them and it. -/
def blockIndentation : Nat → Nat → Cursor → List Char × Nat × Cursor
  | 0, widest, cursor => ([], widest, cursor)
  | fuel + 1, widest, cursor =>
      if cursor.peek == ' ' then
        let cursor := cursor.step
        blockIndentation fuel (max widest cursor.column) cursor
      else if isBreak cursor.peek then
        let (first, cursor) := cursor.lineBreak
        let (rest, widest, cursor) := blockIndentation fuel widest cursor
        (first ++ rest, widest, cursor)
      else ([], widest, cursor)

def spacesTo (indent : Nat) : Nat → Cursor → Cursor
  | 0, cursor => cursor
  | fuel + 1, cursor =>
      if cursor.column < indent && cursor.peek == ' ' then spacesTo indent fuel cursor.step
      else cursor

def blockBreaks (indent : Nat) : Nat → Cursor → List Char × Cursor
  | 0, cursor => ([], cursor)
  | fuel + 1, cursor =>
      let cursor := spacesTo indent (indent + 1) cursor
      if isBreak cursor.peek then
        let (first, cursor) := cursor.lineBreak
        let (rest, cursor) := blockBreaks indent fuel cursor
        (first ++ rest, cursor)
      else ([], cursor)

/-- The lines of a block from the first on: their text without the last break, that break, the
empty lines behind it, and the cursor. In a folded block a single break between two lines that
start with a letter becomes a space. -/
def blockLines (folded : Bool) (indent : Nat) :
    Nat → List Char → Cursor → List Char × List Char × List Char × Cursor
  | 0, breaks, cursor => ([], [], breaks, cursor)
  | fuel + 1, breaks, cursor =>
      if cursor.column != indent || isEnd cursor.peek then ([], [], breaks, cursor)
      else
        let solid := cursor.peek != ' ' && cursor.peek != '\t'
        let (line, cursor) := cursor.span (! isBreakOrEnd ·)
        let (lineEnd, cursor) := cursor.lineBreak
        let (following, cursor) := blockBreaks indent (cursor.rest.length + 1) cursor
        if cursor.column == indent && ! isEnd cursor.peek then
          let joint :=
            if folded && lineEnd == ['\n'] && solid &&
                cursor.peek != ' ' && cursor.peek != '\t' then
              (if following.isEmpty then [' '] else [])
            else lineEnd
          let (rest, tail, trailing, cursor) := blockLines folded indent fuel following cursor
          (breaks ++ line ++ joint ++ rest, tail, trailing, cursor)
        else (breaks ++ line, lineEnd, following, cursor)

/-- A block scalar, the cursor standing at its mark, inside a collection indented so far. -/
def blockScalar (indent : Int) (cursor : Cursor) : Except Fault (String × Cursor) := do
  let folded := cursor.peek == '>'
  let ((keep, width), cursor) ← blockHead cursor.step
  let least := max (indent + 1) 1
  let fuel := cursor.rest.length + 1
  let (column, breaks, cursor) := match width with
    | none =>
        let (breaks, widest, cursor) := blockIndentation fuel 0 cursor
        (max least.toNat widest, breaks, cursor)
    | some width =>
        let column := least.toNat + width - 1
        let (breaks, cursor) := blockBreaks column fuel cursor
        (column, breaks, cursor)
  let (text, tail, trailing, cursor) := blockLines folded column fuel breaks cursor
  let ending := match keep with
    | some false => []
    | none => tail
    | some true => tail ++ trailing
  return (String.ofList (text ++ ending), cursor)

/-- The white space behind a word of a plain scalar. None if a document mark follows; the flag
tells whether a line was left. -/
def plainBreaks : Nat → Cursor → Option (List Char) × Cursor
  | 0, cursor => (some [], cursor)
  | fuel + 1, cursor =>
      let cursor := cursor.skipSpaces
      if isBreak cursor.peek then
        let (first, cursor) := cursor.lineBreak
        if cursor.atAnyDocumentMark then (none, cursor)
        else
          let (rest, cursor) := plainBreaks fuel cursor
          (rest.map (first ++ ·), cursor)
      else (some [], cursor)

def plainSpaces (fuel : Nat) (cursor : Cursor) : List Char × Bool × Cursor :=
  let (spaces, cursor) := cursor.span (· == ' ')
  if isBreak cursor.peek then
    let (first, cursor) := cursor.lineBreak
    if cursor.atAnyDocumentMark then ([], true, cursor)
    else
      match plainBreaks fuel cursor with
      | (none, cursor) => ([], true, cursor)
      | (some breaks, cursor) =>
          let folded := if first != ['\n'] then first else if breaks.isEmpty then [' '] else []
          (folded ++ breaks, true, cursor)
  else (spaces, false, cursor)

def endsPlain (inFlow : Bool) (c next : Char) : Bool :=
  isBlankOrEnd c || (c == ':' && (isBlankOrEnd next || (inFlow && isFlowMark next))) ||
    (inFlow && (isFlowMark c || c == '?'))

def plainWordLength (inFlow : Bool) : List Char → Nat
  | [] => 0
  | c :: rest =>
      if endsPlain inFlow c (rest.headD endMark) then 0 else plainWordLength inFlow rest + 1

/-- The words of a plain scalar, each with the white space before it. Also tells whether a simple
key may follow, which a line break behind the last word allows. -/
def plainWords (inFlow : Bool) (indent : Int) :
    Nat → List Char → Bool → Cursor → List Char × Bool × Cursor
  | 0, _, keyAllowed, cursor => ([], keyAllowed, cursor)
  | fuel + 1, spaces, keyAllowed, cursor =>
      let length := plainWordLength inFlow cursor.rest
      if cursor.peek == '#' || length == 0 then ([], keyAllowed, cursor)
      else
        let word := cursor.rest.take length
        let (following, broken, cursor) := plainSpaces fuel (cursor.advance length)
        if following.isEmpty || cursor.peek == '#' ||
            (! inFlow && (cursor.column : Int) < indent + 1) then
          (spaces ++ word, broken, cursor)
        else
          let (rest, keyAllowed, cursor) := plainWords inFlow indent fuel following broken cursor
          (spaces ++ word ++ rest, keyAllowed, cursor)

end SpreadWatch.Yaml
