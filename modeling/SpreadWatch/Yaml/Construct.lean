import SpreadWatch.Yaml.Merge

/-!
What the nodes of a document stand for. A scalar stands for a value at once. A collection is filled
later, after everything on the level around it, so of several faults the one on the outermost level
counts, and on one level the first. A node that occurs at several places is made once.
-/

namespace SpreadWatch.Yaml

inductive Made where
  | atom (value : Value)
  | list (items : List NodeId)
  | pairs (entries : List (NodeId × NodeId))
  | set (members : List NodeId)
  | dict (entries : List (NodeId × NodeId))
deriving Repr, Inhabited

abbrev MadeTable := Array (Option Made)

/-- The work on a document: its nodes, what is made of them, and the collections to be filled next,
the last one first. -/
structure Maker extends Merger where
  made : MadeTable
  waiting : List NodeId := []
deriving Repr

abbrev Making (α : Type) := StateT Maker (Except Fault) α

namespace Making

def nodeOf (id : NodeId) : Making Node := return (← get).graph.node id

def settle (id : NodeId) (made : Made) : Making Unit :=
  modify fun maker => { maker with made := maker.made.setIfInBounds id (some made) }

/-- The text of a scalar. A mapping with an equals sign as a key counts as the scalar behind it; it
may refer to itself, and then has no text. -/
def scalarText : Nat → NodeId → Making String
  | 0, _ => throw (.failing (.tooDeep "maximum recursion depth exceeded"))
  | fuel + 1, id => do
      let graph := (← get).graph
      match graph.node id with
      | .scalar _ text => return text
      | .mapping _ entries =>
          match entries.find? fun entry => graph.tag entry.1 == .defaultValue with
          | some (_, value) => scalarText fuel value
          | none => throw .malformed
      | .sequence .. => throw .malformed

/-- The value of a node that stands for one at once. A mapping has a text, but no parts of a time
stamp. -/
def scalarValue (id : NodeId) : Making Value := do
  let text ← scalarText ((← get).graph.size + 1) id
  match ← nodeOf id with
  | .mapping .timestamp _ => throw (.failing (.wrongType "expected string or bytes-like object"))
  | node => Scalar.value node.tag text

def make (id : NodeId) : Making Unit := do
  if ((← get).made.getD id none).isSome then return
  match (← get).graph.tag id with
  | .sequence | .orderedMapping | .pairs => await (.list [])
  | .mapping => await (.dict [])
  | .set => await (.set [])
  | .merge | .defaultValue | .unknown => throw .malformed
  | _ => settle id (.atom (← scalarValue id))
where
  await (empty : Made) : Making Unit := do
    settle id empty
    modify fun maker => { maker with waiting := id :: maker.waiting }

/-- Makes the key of an entry. A collection can be no key. -/
def makeKey (id : NodeId) : Making Unit := do
  make id
  match (← get).made.getD id none with
  | some (.atom _) => return
  | _ => throw .malformed

/-- Whether a text spells the one number that is no number, which is the same at all places. -/
def isCommonNan (node : Node) : Bool :=
  match node with
  | .scalar .float text => (Scalar.dropSign (text.toList.filter (· != '_'))).map Char.toLower
      == ".nan".toList
  | _ => false

/-- Whether two keys are one. A number that is no number is only the same as itself. -/
def sameKey (maker : Maker) (a b : NodeId) : Bool :=
  a == b ||
    (match maker.made.getD a none, maker.made.getD b none with
      | some (.atom x), some (.atom y) => x.sameKey y
      | _, _ => false) ||
    (isCommonNan (maker.graph.node a) && isCommonNan (maker.graph.node b))

def insert (maker : Maker) (key value : NodeId) :
    List (NodeId × NodeId) → List (NodeId × NodeId)
  | [] => [(key, value)]
  | (known, old) :: rest =>
      if sameKey maker known key then (known, value) :: rest
      else (known, old) :: insert maker key value rest

def makeEntries (known : List (NodeId × NodeId)) :
    List (NodeId × NodeId) → Making (List (NodeId × NodeId))
  | [] => return known
  | (key, value) :: rest => do
      makeKey key
      make value
      makeEntries (insert (← get) key value known) rest

def mappingEntries (id : NodeId) : Making (List (NodeId × NodeId)) := do
  match ← nodeOf id with
  | .mapping .. =>
      let maker ← get
      let (_, merger) ← (Merging.merge id).run maker.toMerger
      set { maker with toMerger := merger }
      match ← nodeOf id with
      | .mapping _ entries => makeEntries [] entries
      | _ => throw .malformed
  | _ => throw .malformed

def makePair (id : NodeId) : Making (NodeId × NodeId) := do
  match ← nodeOf id with
  | .mapping _ [(key, value)] =>
      make key
      make value
      return (key, value)
  | _ => throw .malformed

/-- Fills a collection; the collections inside are left for later. -/
def fill (id : NodeId) : Making Unit := do
  match ← nodeOf id with
  | .sequence .sequence items =>
      items.forM make
      settle id (.list items)
  | .sequence .orderedMapping items | .sequence .pairs items =>
      settle id (.pairs (← items.mapM makePair))
  | .mapping .mapping _ => settle id (.dict (← mappingEntries id))
  | .mapping .set _ => settle id (.set ((← mappingEntries id).map (·.1)))
  | _ => throw .malformed

/-- Fills collections level by level. Each is filled once, so their number bounds the levels. -/
def fillAll : Nat → Making Unit
  | 0 => throw .malformed
  | fuel + 1 => do
      let level := (← get).waiting.reverse
      if level.isEmpty then return
      modify fun maker => { maker with waiting := [] }
      level.forM fill
      fillAll fuel

end Making

def Graph.make (graph : Graph) (root : NodeId) : Except Fault MadeTable := do
  let start : Maker := { graph, made := Array.replicate graph.size none }
  let (_, maker) ← (do
    Making.make root
    Making.fillAll (graph.size + 1) : Making Unit).run start
  return maker.made

end SpreadWatch.Yaml
