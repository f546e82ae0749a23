import SpreadWatch.Value.Write
import SpreadWatch.Yaml.ScalarText

/-!
The tokens of a YAML text. Collections in block style have no brackets of their own: their starts
and ends come from indentation. A key of one line is recognised by the colon behind it, so its
token is put in front of what has been read already.

A text is cut into tokens only as far as they are asked for. So of two faults the one that is met
first counts, whether it lies in a token or in the order of tokens.
-/

namespace SpreadWatch.Yaml

/-- A line that starts with a percent sign. -/
inductive Directive where
  | version (major : Nat)
  | tagHandle (handle start : String)
  | other
deriving DecidableEq, Repr

inductive Token where
  | directive (directive : Directive)
  | documentStart
  | documentEnd
  | blockSequenceStart
  | blockMappingStart
  | blockEnd
  | flowSequenceStart
  | flowMappingStart
  | flowSequenceEnd
  | flowMappingEnd
  | blockEntry
  | flowEntry
  | key
  | value
  | alias (name : String)
  | anchor (name : String)
  | tag (handle : Option String) (suffix : String)
  | scalar (text : String) (plain : Bool)
deriving Repr, Inhabited

/-- A token that may turn out to be a key. It is required to be one if nothing else can start at
its column. -/
structure KeyCandidate where
  place : Nat
  required : Bool
  index : Nat
  line : Nat
  column : Nat
deriving Repr

/-- What has been read of a text: the tokens and how many of them are taken, whether the end was
met, depth of flow collections, columns of the open block collections, and for each depth the token
that may be a key. -/
structure Lexer where
  cursor : Cursor
  tokens : Array Token := #[]
  taken : Nat := 0
  finished : Bool := false
  depth : Nat := 0
  indent : Int := -1
  indents : List Int := []
  keyAllowed : Bool := true
  candidates : List (Nat × KeyCandidate) := []
deriving Repr

abbrev Lex (α : Type) := ExceptT Fault (StateM Lexer) α

namespace Lex

def emit (token : Token) : Lex Unit :=
  modify fun lexer => { lexer with tokens := lexer.tokens.push token }

def moveTo (cursor : Cursor) : Lex Unit := modify fun lexer => { lexer with cursor }

def allowKey (allowed : Bool) : Lex Unit :=
  modify fun lexer => { lexer with keyAllowed := allowed }

def emitRead (read : Except Fault (α × Cursor)) (token : α → Token) : Lex Unit := do
  let (value, cursor) ← read
  moveTo cursor
  emit (token value)

/-- Skips blanks, comments and line ends. Outside flow collections a key may start on a new line. -/
def skipToToken : Nat → Lex Unit
  | 0 => pure ()
  | fuel + 1 => do
      let lexer ← get
      let (ending, cursor) := lexer.cursor.skipComment.lineBreak
      moveTo cursor
      if ! ending.isEmpty then
        if lexer.depth = 0 then allowKey true
        skipToToken fuel

/-- A candidate is out of date behind the end of its line or after 1024 characters. -/
def KeyCandidate.isStale (candidate : KeyCandidate) (cursor : Cursor) : Bool :=
  candidate.line != cursor.line || candidate.index + 1024 < cursor.index

def dropStale : Lex Unit := do
  let lexer ← get
  let stale := fun (entry : Nat × KeyCandidate) => KeyCandidate.isStale entry.2 lexer.cursor
  if lexer.candidates.any fun entry => stale entry && entry.2.required then throw .malformed
  set { lexer with candidates := lexer.candidates.filter fun entry => ! stale entry }

def dropCandidate : Lex Unit := do
  let lexer ← get
  if lexer.candidates.any fun entry => entry.1 == lexer.depth && entry.2.required then
    throw .malformed
  set { lexer with candidates := lexer.candidates.filter fun entry => entry.1 != lexer.depth }

def noteCandidate : Lex Unit := do
  if (← get).keyAllowed then
    dropCandidate
    let lexer ← get
    let candidate : KeyCandidate := {
      place := lexer.tokens.size
      required := lexer.depth = 0 && lexer.indent == (lexer.cursor.column : Int)
      index := lexer.cursor.index
      line := lexer.cursor.line
      column := lexer.cursor.column }
    set { lexer with candidates := (lexer.depth, candidate) :: lexer.candidates }

def unwindFrom (column : Int) : Int → List Int → Array Token → Int × List Int × Array Token
  | indent, [], tokens => (indent, [], tokens)
  | indent, outer :: rest, tokens =>
      if column < indent then unwindFrom column outer rest (tokens.push .blockEnd)
      else (indent, outer :: rest, tokens)

def unwind (column : Int) : Lex Unit := do
  let lexer ← get
  if lexer.depth = 0 then
    let (indent, indents, tokens) := unwindFrom column lexer.indent lexer.indents lexer.tokens
    set { lexer with indent, indents, tokens }

/-- Opens a block collection at a column, unless one is open there; tells whether it did. -/
def openBlock (column : Nat) : Lex Bool := do
  let lexer ← get
  if lexer.indent < column then
    set { lexer with indent := column, indents := lexer.indent :: lexer.indents }
    return true
  else return false

/-- A word behind its mark, with the blank or indicator that has to follow. -/
def nameAfter (cursor : Cursor) : Except Fault (String × Cursor) := do
  let (name, cursor) := cursor.step.span isWordChar
  let next := cursor.peek
  if name.isEmpty || ! (isBlankOrEnd next || "?:,]\x7d%@\x60".toList.contains next) then
    throw .malformed
  return (String.ofList name, cursor)

def percentBytes : Nat → Cursor → Except Fault (List UInt8 × Cursor)
  | 0, cursor => .ok ([], cursor)
  | fuel + 1, cursor =>
      if cursor.peek == '%' then do
        let digits := [cursor.peekAt 1, cursor.peekAt 2]
        if ! digits.all isHexDigit then throw .malformed
        let (rest, cursor) ← percentBytes fuel (cursor.advance 3)
        return (UInt8.ofNat (hexValue digits) :: rest, cursor)
      else .ok ([], cursor)

def uriChars : Nat → Cursor → Except Fault (List Char × Cursor)
  | 0, cursor => .ok ([], cursor)
  | fuel + 1, cursor => do
      let (word, cursor) := cursor.span fun c => isUriChar c && c != '%'
      if cursor.peek == '%' then
        let (bytes, cursor) ← percentBytes (fuel + 1) cursor
        match String.fromUTF8? (ByteArray.mk bytes.toArray) with
        | none => throw .malformed
        | some text =>
            let (rest, cursor) ← uriChars fuel cursor
            return (word ++ text.toList ++ rest, cursor)
      else return (word, cursor)

def uri (cursor : Cursor) : Except Fault (String × Cursor) := do
  let (chars, after) ← uriChars (cursor.rest.length + 1) cursor
  if after.index = cursor.index then throw .malformed
  return (String.ofList chars, after)

def tagHandle (cursor : Cursor) : Except Fault (String × Cursor) := do
  if cursor.peek != '!' then throw .malformed
  let behind := cursor.step
  if behind.peek == ' ' then return ("!", behind)
  let (word, behind) := behind.span isWordChar
  if behind.peek != '!' then throw .malformed
  return (String.ofList ('!' :: word ++ ['!']), behind.step)

def tagToken (cursor : Cursor) : Except Fault ((Option String × String) × Cursor) := do
  let next := cursor.peekAt 1
  let (tag, cursor) ←
    if next == '<' then do
      let (suffix, cursor) ← uri (cursor.advance 2)
      if cursor.peek != '>' then throw .malformed
      pure ((none, suffix), cursor.step)
    else if isBlankOrEnd next then pure ((none, "!"), cursor.step)
    else do
      let word := cursor.step.rest.takeWhile fun c => ! isSpaceOrEnd c
      let (handle, cursor) ←
        if word.contains '!' then tagHandle cursor else pure ("!", cursor.step)
      let (suffix, cursor) ← uri cursor
      pure ((some handle, suffix), cursor)
  if ! isSpaceOrEnd cursor.peek then throw .malformed
  return (tag, cursor)

def versionNumber (cursor : Cursor) : Except Fault (Nat × Cursor) := do
  let (digits, cursor) := cursor.span Char.isDigit
  if digits.isEmpty then throw .malformed
  if Value.longestInteger < digits.length then throw (.failing (Value.tooManyDigits digits.length))
  return (Text.wordValue digits, cursor)

def directiveValue (name : String) (cursor : Cursor) : Except Fault (Directive × Cursor) := do
  match name with
  | "YAML" =>
      let (major, cursor) ← versionNumber cursor.skipSpaces
      if cursor.peek != '.' then throw .malformed
      let (_, cursor) ← versionNumber cursor.step
      if ! isSpaceOrEnd cursor.peek then throw .malformed
      return (.version major, cursor)
  | "TAG" =>
      let (handle, cursor) ← tagHandle cursor.skipSpaces
      if cursor.peek != ' ' then throw .malformed
      let (start, cursor) ← uri cursor.skipSpaces
      if ! isSpaceOrEnd cursor.peek then throw .malformed
      return (.tagHandle handle start, cursor)
  | _ => return (.other, cursor.skip (! isBreakOrEnd ·))

def directiveLine (cursor : Cursor) : Except Fault (Directive × Cursor) := do
  let (name, cursor) := cursor.step.span isWordChar
  if name.isEmpty || ! isSpaceOrEnd cursor.peek then throw .malformed
  let (directive, cursor) ← directiveValue (String.ofList name) cursor
  let cursor := cursor.skipComment
  if ! isBreakOrEnd cursor.peek then throw .malformed
  return (directive, cursor.lineBreak.2)

def documentMark (token : Token) : Lex Unit := do
  unwind (-1)
  dropCandidate
  allowKey false
  moveTo ((← get).cursor.advance 3)
  emit token

def openFlow (token : Token) : Lex Unit := do
  noteCandidate
  modify fun lexer => { lexer with depth := lexer.depth + 1, cursor := lexer.cursor.step }
  allowKey true
  emit token

def closeFlow (token : Token) : Lex Unit := do
  if (← get).depth = 0 then throw .malformed
  dropCandidate
  modify fun lexer => { lexer with depth := lexer.depth - 1, cursor := lexer.cursor.step }
  allowKey false
  emit token

/-- An entry or a key marked as such. Outside flow collections it opens a block at its column. -/
def blockMark (start token : Token) (keyAfter : Bool) : Lex Unit := do
  let lexer ← get
  if lexer.depth = 0 then
    if ! lexer.keyAllowed then throw .malformed
    if ← openBlock lexer.cursor.column then emit start
  allowKey keyAfter
  dropCandidate
  moveTo lexer.cursor.step
  emit token

/-- A colon behind the candidate at the present depth makes it a key; otherwise the colon belongs
to a key marked as such, or to none. -/
def valueMark : Lex Unit := do
  let lexer ← get
  match lexer.candidates.lookup lexer.depth with
  | some candidate =>
      set { lexer with
        candidates := lexer.candidates.filter fun entry => entry.1 != lexer.depth
        tokens := lexer.tokens.insertIdxIfInBounds candidate.place .key }
      if lexer.depth = 0 then
        if ← openBlock candidate.column then
          modify fun lexer => { lexer with
            tokens := lexer.tokens.insertIdxIfInBounds candidate.place .blockMappingStart }
      allowKey false
      moveTo lexer.cursor.step
      emit .value
  | none => blockMark .blockMappingStart .value (lexer.depth = 0)

def nodePart (read : Except Fault (α × Cursor)) (token : α → Token) : Lex Unit := do
  noteCandidate
  allowKey false
  emitRead read token

def plainScalar : Lex Unit := do
  noteCandidate
  let lexer ← get
  let (text, keyAllowed, cursor) := plainWords (0 < lexer.depth) lexer.indent
    (lexer.cursor.rest.length + 1) [] false lexer.cursor
  allowKey keyAllowed
  moveTo cursor
  emit (.scalar (String.ofList text) true)

def startsPlain (inFlow : Bool) (c next : Char) : Bool :=
  ! (isBlankOrEnd c || "-?:,[]\x7b\x7d#&*!|>'\"%@\x60".toList.contains c) ||
    (! isBlankOrEnd next && (c == '-' || (! inFlow && (c == '?' || c == ':'))))

def finish : Lex Unit := do
  unwind (-1)
  dropCandidate
  modify fun lexer => { lexer with finished := true, candidates := [] }

def readToken : Lex Unit := do
  let lexer ← get
  let cursor := lexer.cursor
  let c := cursor.peek
  let next := cursor.peekAt 1
  let inFlow : Bool := 0 < lexer.depth
  if c == '%' && cursor.column == 0 then
    unwind (-1)
    dropCandidate
    allowKey false
    emitRead (directiveLine cursor) .directive
  else if cursor.column == 0 && cursor.atDocumentMark '-' then documentMark .documentStart
  else if cursor.column == 0 && cursor.atDocumentMark '.' then documentMark .documentEnd
  else if c == '[' then openFlow .flowSequenceStart
  else if c.toNat = 0x7B then openFlow .flowMappingStart
  else if c == ']' then closeFlow .flowSequenceEnd
  else if c.toNat = 0x7D then closeFlow .flowMappingEnd
  else if c == ',' then
    allowKey true
    dropCandidate
    moveTo cursor.step
    emit .flowEntry
  else if c == '-' && isBlankOrEnd next then blockMark .blockSequenceStart .blockEntry true
  else if c == '?' && (inFlow || isBlankOrEnd next) then
    blockMark .blockMappingStart .key (! inFlow)
  else if c == ':' && (inFlow || isBlankOrEnd next) then valueMark
  else if c == '*' then nodePart (nameAfter cursor) .alias
  else if c == '&' then nodePart (nameAfter cursor) .anchor
  else if c == '!' then nodePart (tagToken cursor) fun (handle, suffix) => .tag handle suffix
  else if (c == '|' || c == '>') && ! inFlow then
    allowKey true
    dropCandidate
    emitRead (blockScalar lexer.indent cursor) fun text => .scalar text false
  else if c == '\'' || c == '"' then
    nodePart (quotedScalar cursor) fun text => .scalar text false
  else if startsPlain inFlow c next then plainScalar
  else throw .malformed

def fetch : Lex Unit := do
  skipToToken ((← get).cursor.rest.length + 1)
  dropStale
  let lexer ← get
  unwind lexer.cursor.column
  if isEnd lexer.cursor.peek then finish else readToken

/-- Whether the next token is not settled yet: it is not read, or a colon may still make it a
key. -/
def needsMore : Lex Bool := do
  let lexer ← get
  if lexer.finished then return false
  if lexer.tokens.size ≤ lexer.taken then return true
  dropStale
  return (← get).candidates.any fun entry => entry.2.place == lexer.taken

/-- Reads on until the next token is settled. Every round takes at least one character. -/
def settle : Nat → Lex Unit
  | 0 => throw .malformed
  | fuel + 1 => do
      if ← needsMore then
        fetch
        settle fuel

def next : Lex (Option Token) := do
  if ← needsMore then settle ((← get).cursor.rest.length + 2)
  let lexer ← get
  return lexer.tokens[lexer.taken]?

def drop : Lex Unit := modify fun lexer => { lexer with taken := lexer.taken + 1 }

end Lex

/-- The lexer at the start of a text. A byte order mark there is skipped. -/
def Lexer.start (text : List Char) : Lexer :=
  { cursor := {
      rest := if text.head?.any (·.toNat = 0xFEFF) then text.drop 1 else text } }

end SpreadWatch.Yaml
