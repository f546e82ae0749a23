import SpreadWatch.Yaml.Scalar
import SpreadWatch.Yaml.Token

/-!
The nodes of a document: scalars, sequences and mappings with their tags, read from tokens. Nodes
are numbered, and collections hold the numbers of their parts, so that an alias is the number of the
node with its anchor. A collection may hold itself.
-/

namespace SpreadWatch.Yaml

abbrev NodeId := Nat

inductive Node where
  | scalar (tag : Tag) (text : String)
  | sequence (tag : Tag) (items : List NodeId)
  | mapping (tag : Tag) (entries : List (NodeId × NodeId))
deriving DecidableEq, Repr, Inhabited

def Node.tag : Node → Tag
  | .scalar tag _ | .sequence tag _ | .mapping tag _ => tag

abbrev Graph := Array Node

def Node.empty : Node := .scalar .null ""

/-- What reading nodes needs to know: what tag handles stand for, the nodes with anchors, the
nodes so far, and the number of collections around the present place. -/
structure NodeReader where
  handles : List (String × String) := []
  anchors : List (String × NodeId) := []
  nodes : Graph := #[]
  depth : Nat := 0

abbrev Nodes (α : Type) := StateT NodeReader Lex α

namespace Nodes

def peek : Nodes (Option Token) := Lex.next

def drop : Nodes Unit := Lex.drop

inductive Mark where
  | blockEntry
  | blockEnd
  | flowEntry
  | flowSequenceEnd
  | flowMappingEnd
  | key
  | value
  | directive
  | documentStart
  | documentEnd
  | other
deriving DecidableEq

def markOf : Token → Mark
  | .blockEntry => .blockEntry
  | .blockEnd => .blockEnd
  | .flowEntry => .flowEntry
  | .flowSequenceEnd => .flowSequenceEnd
  | .flowMappingEnd => .flowMappingEnd
  | .key => .key
  | .value => .value
  | .directive _ => .directive
  | .documentStart => .documentStart
  | .documentEnd => .documentEnd
  | _ => .other

def atAny (marks : List Mark) : Nodes Bool := do
  return (← peek).any fun token => marks.contains (markOf token)

def take? (mark : Mark) : Nodes Bool := do
  if ← atAny [mark] then
    drop
    return true
  else return false

def expect (mark : Mark) : Nodes Unit := do
  if ! (← take? mark) then throw .malformed

/-- The anchor and the tag in front of a node, in either order. -/
def properties : Nodes (Option String × Option (Option String × String)) := do
  match ← peek with
  | some (.anchor name) =>
      drop
      match ← peek with
      | some (.tag handle suffix) =>
          drop
          return (some name, some (handle, suffix))
      | _ => return (some name, none)
  | some (.tag handle suffix) =>
      drop
      match ← peek with
      | some (.anchor name) =>
          drop
          return (some name, some (handle, suffix))
      | _ => return (none, some (handle, suffix))
  | _ => return (none, none)

def fullName (tag : Option String × String) : Nodes String := do
  match tag.1 with
  | none => return tag.2
  | some handle =>
      match (← get).handles.lookup handle with
      | some start => return start ++ tag.2
      | none => throw .malformed

def collectionTag (name : Option String) (default : Tag) : Tag :=
  match name with
  | none | some "!" => default
  | some name => .ofName name

/-- The tag of a scalar: the written one, or the one that its form gives it if it is plain. A lone
exclamation mark leaves every scalar to its form. -/
def scalarTag (name : Option String) (plain : Bool) (text : String) : Tag :=
  match name with
  | none => if plain then Scalar.plainTag text else .text
  | some "!" => Scalar.plainTag text
  | some name => .ofName name

def checkAnchor (anchor : Option String) : Nodes Unit := do
  if let some name := anchor then
    if ((← get).anchors.lookup name).isSome then throw .malformed

def nameNode (anchor : Option String) (id : NodeId) : Nodes Unit := do
  if let some name := anchor then
    modify fun reader => { reader with anchors := (name, id) :: reader.anchors }

def add (node : Node) : Nodes NodeId :=
  modifyGet fun reader =>
    (reader.nodes.size, { reader with nodes := reader.nodes.push node })

def addScalar (anchor : Option String) (tag : Tag) (text : String) : Nodes NodeId := do
  let id ← add (.scalar tag text)
  nameNode anchor id
  return id

/-- The greatest number of collections that may lie in each other. -/
def deepest : Nat := 487

/-- Adds a collection, whose parts are read after its anchor is known. -/
def addCollection (anchor : Option String) (parts : Nodes α) (build : α → Node) :
    Nodes NodeId := do
  let depth := (← get).depth
  if deepest ≤ depth then throw (.failing (.tooDeep "maximum recursion depth exceeded"))
  let id ← add .empty
  nameNode anchor id
  modify fun reader => { reader with depth := depth + 1 }
  let parts ← parts
  modify fun reader =>
    { reader with nodes := reader.nodes.setIfInBounds id (build parts), depth }
  return id

def addSequence (anchor name : Option String) (items : Nodes (List NodeId)) : Nodes NodeId :=
  addCollection anchor items (.sequence (collectionTag name .sequence))

def addMapping (anchor name : Option String) (entries : Nodes (List (NodeId × NodeId))) :
    Nodes NodeId :=
  addCollection anchor entries (.mapping (collectionTag name .mapping))

def aliased (name : String) : Nodes NodeId := do
  match (← get).anchors.lookup name with
  | some id => return id
  | none => throw .malformed

def bare (anchor name : Option String) : Nodes NodeId :=
  if anchor.isSome || name.isSome then addScalar anchor (scalarTag name true "") ""
  else throw .malformed

mutual

/-- Reads a node. Block collections only start where `block` allows it, and entries without an
indentation of their own only behind the keys of a block mapping. -/
def node : Nat → Bool → Bool → Nodes NodeId
  | 0, _, _ => throw .malformed
  | fuel + 1, block, unindented => do
      if let some (.alias name) ← peek then
        drop
        aliased name
      else
        let (anchor, tag) ← properties
        let name ← tag.mapM fullName
        let next ← peek
        checkAnchor anchor
        match next with
        | some (.scalar text plain) =>
            drop
            addScalar anchor (scalarTag name plain text) text
        | some .flowSequenceStart =>
            drop
            addSequence anchor name (flowItems fuel true)
        | some .flowMappingStart =>
            drop
            addMapping anchor name (flowEntries fuel true)
        | some token => blockCollection fuel block unindented anchor name token
        | none => bare anchor name

def blockCollection (fuel : Nat) (block unindented : Bool) (anchor name : Option String)
    (token : Token) : Nodes NodeId := do
  match fuel, token with
  | 0, _ => throw .malformed
  | fuel + 1, .blockEntry =>
      if unindented then addSequence anchor name (unindentedItems fuel) else bare anchor name
  | fuel + 1, .blockSequenceStart =>
      if block then
        drop
        addSequence anchor name (blockItems fuel)
      else bare anchor name
  | fuel + 1, .blockMappingStart =>
      if block then
        drop
        addMapping anchor name (blockEntries fuel)
      else bare anchor name
  | _, _ => bare anchor name

/-- A node unless one of these marks shows that nothing is written here. -/
def nodeUnless : Nat → List Mark → Bool → Bool → Nodes NodeId
  | 0, _, _, _ => throw .malformed
  | fuel + 1, marks, block, unindented => do
      if ← atAny marks then add .empty else node fuel block unindented

def blockItems : Nat → Nodes (List NodeId)
  | 0 => throw .malformed
  | fuel + 1 => do
      if ← take? .blockEntry then
        let item ← nodeUnless fuel [.blockEntry, .blockEnd] true false
        return item :: (← blockItems fuel)
      else
        expect .blockEnd
        return []

/-- The items of a sequence that stands at the column of its key. -/
def unindentedItems : Nat → Nodes (List NodeId)
  | 0 => throw .malformed
  | fuel + 1 => do
      if ← take? .blockEntry then
        let item ← nodeUnless fuel [.blockEntry, .key, .value, .blockEnd] true false
        return item :: (← unindentedItems fuel)
      else return []

def valueAfter : Nat → List Mark → Bool → Nodes NodeId
  | 0, _, _ => throw .malformed
  | fuel + 1, marks, block => do
      if ← take? .value then nodeUnless fuel marks block block else add .empty

def blockEntries : Nat → Nodes (List (NodeId × NodeId))
  | 0 => throw .malformed
  | fuel + 1 => do
      if ← take? .key then
        let key ← nodeUnless fuel [.key, .value, .blockEnd] true true
        let value ← valueAfter fuel [.key, .value, .blockEnd] true
        return (key, value) :: (← blockEntries fuel)
      else
        expect .blockEnd
        return []

/-- The items of a flow sequence, up to its end. A key makes an item a mapping of one entry. -/
def flowItems : Nat → Bool → Nodes (List NodeId)
  | 0, _ => throw .malformed
  | fuel + 1, first => do
      if ← take? .flowSequenceEnd then return []
      if ! first then expect .flowEntry
      if ← take? .key then
        let key ← nodeUnless fuel [.value, .flowEntry, .flowSequenceEnd] false false
        let value ← valueAfter fuel [.flowEntry, .flowSequenceEnd] false
        let entry ← add (.mapping .mapping [(key, value)])
        return entry :: (← flowItems fuel false)
      else if ← take? .flowSequenceEnd then return []
      else
        let item ← node fuel false false
        return item :: (← flowItems fuel false)

/-- The entries of a flow mapping, up to its end. A node without a colon is a key with no value. -/
def flowEntries : Nat → Bool → Nodes (List (NodeId × NodeId))
  | 0, _ => throw .malformed
  | fuel + 1, first => do
      if ← take? .flowMappingEnd then return []
      if ! first then expect .flowEntry
      if ← take? .key then
        let key ← nodeUnless fuel [.value, .flowEntry, .flowMappingEnd] false false
        let value ← valueAfter fuel [.flowEntry, .flowMappingEnd] false
        return (key, value) :: (← flowEntries fuel false)
      else if ← take? .flowMappingEnd then return []
      else
        let key ← node fuel false false
        return (key, ← add .empty) :: (← flowEntries fuel false)

end

/-! ### Documents -/

def defaultHandles : List (String × String) := [("!", "!"), ("!!", standardTags)]

/-- The directives before a document. Each may be given once, and the version must be 1. -/
def directives : Nat → Bool → List (String × String) → Nodes (List (String × String))
  | 0, _, _ => throw .malformed
  | fuel + 1, versioned, handles => do
      match ← peek with
      | some (.directive (.version major)) =>
          if versioned || major != 1 then throw .malformed
          drop
          directives fuel true handles
      | some (.directive (.tagHandle handle start)) =>
          if (handles.lookup handle).isSome then throw .malformed
          drop
          directives fuel versioned ((handle, start) :: handles)
      | some (.directive .other) =>
          drop
          directives fuel versioned handles
      | _ => return handles

def takeAll (mark : Mark) : Nat → Nodes Unit
  | 0 => pure ()
  | fuel + 1 => do if ← take? mark then takeAll mark fuel

def document (fuel : Nat) : Nodes (Option NodeId) := do
  if (← peek).isNone then return none
  let explicit ← atAny [.directive, .documentStart]
  let handles ← directives fuel false []
  modify fun reader => { reader with handles := handles ++ defaultHandles }
  if explicit then expect .documentStart
  let nothing : Bool ←
    if explicit then
      pure ((← peek).isNone || (← atAny [.directive, .documentStart, .documentEnd]))
    else pure false
  let root ← if nothing then add .empty else node fuel true false
  takeAll .documentEnd fuel
  if (← peek).isSome then
    let _ ← directives fuel false []
    throw .malformed
  return some root

end Nodes

def readNodes (text : List Char) : Except Fault (Option NodeId × Graph) := do
  let fuel := 24 * (text.length + 4)
  let (root, reader) ← (((Nodes.document fuel).run {}).run.run (Lexer.start text)).1
  return (root, reader.nodes)

/-- How many characters are read before the one at an index is looked at: the first 8192 are looked
at together, and then 4096 at a time. -/
def lengthBefore (index : Nat) : Nat := if index < 8192 then 0 else 4096 * (index / 4096)

/-- The nodes of a text. A character that no text may hold is a fault, unless one is met before. -/
def Graph.read (text : List Char) : Except Fault (Option NodeId × Graph) :=
  match text.findIdx? (! isAllowed ·) with
  | none => readNodes text
  | some index =>
      match readNodes (text.take (lengthBefore index)) with
      | .error (.failing failure) => .error (.failing failure)
      | _ => .error .malformed

end SpreadWatch.Yaml
