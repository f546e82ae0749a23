import SpreadWatch.Failure

/-!
A place in a YAML text: the characters still to be read with their line and column, and the
character classes by which the text is cut into tokens. Behind the last character stands the null
character, which no text may hold.
-/

namespace SpreadWatch.Yaml

inductive Fault where
  | malformed
  | failing (failure : Failure)
deriving Repr, Inhabited

def endMark : Char := Char.ofNat 0

def isEnd (c : Char) : Bool := c == endMark

/-- A line break. Carriage returns are read as line feeds before. -/
def isBreak (c : Char) : Bool :=
  c == '\n' || c.toNat == 0x85 || c.toNat == 0x2028 || c.toNat == 0x2029

def isBreakOrEnd (c : Char) : Bool := isBreak c || isEnd c

def isSpaceOrEnd (c : Char) : Bool := c == ' ' || isBreakOrEnd c

def isBlankOrEnd (c : Char) : Bool := c == '\t' || isSpaceOrEnd c

def isWordChar (c : Char) : Bool := c.isAlphanum || c == '-' || c == '_'

def isHexDigit (c : Char) : Bool := c.isDigit || ('a' ≤ c && c ≤ 'f') || ('A' ≤ c && c ≤ 'F')

def isUriChar (c : Char) : Bool := c.isAlphanum || "-;/?:@&=+$,_.!~*'()[]%".toList.contains c

def isFlowMark (c : Char) : Bool := "[],\x7b\x7d".toList.contains c

def isAllowed (c : Char) : Bool :=
  let code := c.toNat
  code == 9 || code == 10 || code == 13 || (0x20 ≤ code && code ≤ 0x7E) || code == 0x85 ||
    (0xA0 ≤ code && code ≤ 0xD7FF) || (0xE000 ≤ code && code ≤ 0xFFFD) || 0x10000 ≤ code

structure Cursor where
  rest : List Char
  index : Nat := 0
  line : Nat := 0
  column : Nat := 0
deriving Repr

namespace Cursor

def peekAt (cursor : Cursor) (ahead : Nat) : Char := cursor.rest.getD ahead endMark

def peek (cursor : Cursor) : Char := cursor.peekAt 0

/-- One character further. A byte order mark takes no column. -/
def step (cursor : Cursor) : Cursor :=
  match cursor.rest with
  | [] => cursor
  | c :: rest =>
      if isBreak c then { rest, index := cursor.index + 1, line := cursor.line + 1, column := 0 }
      else
        { cursor with
          rest
          index := cursor.index + 1
          column := if c.toNat = 0xFEFF then cursor.column else cursor.column + 1 }

def advance (cursor : Cursor) : Nat → Cursor
  | 0 => cursor
  | count + 1 => cursor.step.advance count

def span (cursor : Cursor) (test : Char → Bool) : List Char × Cursor :=
  let word := cursor.rest.takeWhile test
  (word, cursor.advance word.length)

def skip (cursor : Cursor) (test : Char → Bool) : Cursor := (cursor.span test).2

def skipSpaces (cursor : Cursor) : Cursor := cursor.skip (· == ' ')

/-- Reads a line break, if one stands here: as a line feed, or as itself if it separates lines or
paragraphs. -/
def lineBreak (cursor : Cursor) : List Char × Cursor :=
  let c := cursor.peek
  if c == '\n' || c.toNat == 0x85 then (['\n'], cursor.step)
  else if isBreak c then ([c], cursor.step)
  else ([], cursor)

def skipComment (cursor : Cursor) : Cursor :=
  let cursor := cursor.skipSpaces
  if cursor.peek == '#' then cursor.skip (! isBreakOrEnd ·) else cursor

/-- Whether three dashes or three dots stand here, and then a blank. -/
def atDocumentMark (cursor : Cursor) (mark : Char) : Bool :=
  cursor.rest.take 3 == [mark, mark, mark] && isBlankOrEnd (cursor.peekAt 3)

def atAnyDocumentMark (cursor : Cursor) : Bool :=
  cursor.atDocumentMark '-' || cursor.atDocumentMark '.'

end Cursor

end SpreadWatch.Yaml
