import SpreadWatch.Yaml.Node

/-!
Merge keys. A mapping takes over the entries of the mappings that its merge keys name; they come
before its own, so that its own entries win. Mappings that are merged are merged themselves first,
and each mapping only once. A mapping may name itself: what it brings in then are the entries that
it has at that time.
-/

namespace SpreadWatch.Yaml

namespace Graph

def node (graph : Graph) (id : NodeId) : Node := graph.getD id .empty

def put (graph : Graph) (id : NodeId) (node : Node) : Graph := graph.setIfInBounds id node

def tag (graph : Graph) (id : NodeId) : Tag := (graph.node id).tag

def entryCount (graph : Graph) : Nat :=
  graph.foldl (fun count node =>
    match node with
    | .mapping _ entries => count + entries.length
    | _ => count) 0

end Graph

structure Merger where
  graph : Graph
  merged : List NodeId := []
deriving Repr

abbrev Merging (α : Type) := StateT Merger (Except Fault) α

namespace Merging

def put (id : NodeId) (node : Node) : Merging Unit :=
  modify fun merger => { merger with graph := merger.graph.put id node }

/-- The entries of a mapping. Nothing else can be merged. -/
def entriesOf (id : NodeId) : Merging (List (NodeId × NodeId)) := do
  match (← get).graph.node id with
  | .mapping _ entries => return entries
  | _ => throw .malformed

/-- As a key, the equals sign is a text. -/
def asText (id : NodeId) : Merging Unit := do
  match (← get).graph.node id with
  | .scalar _ text => put id (.scalar .text text)
  | .sequence _ items => put id (.sequence .text items)
  | .mapping _ entries => put id (.mapping .text entries)

/-- Takes the merge keys out of a mapping, given the entries before a place and those from there
on. What a merge key brings in is found by `bring` after the key is taken out; if the mapping is
merged on the way, nothing is left to do. -/
def takeOut (bring : NodeId → Merging (List (NodeId × NodeId))) (id : NodeId) (tag : Tag) :
    List (NodeId × NodeId) → List (NodeId × NodeId) → Merging (List (NodeId × NodeId))
  | _, [] => return []
  | before, (key, value) :: rest => do
      if (← get).merged.contains id then return []
      match (← get).graph.tag key with
      | .merge =>
          put id (.mapping tag (before.reverse ++ rest))
          let brought ← bring value
          return brought ++ (← takeOut bring id tag before rest)
      | .defaultValue =>
          asText key
          takeOut bring id tag ((key, value) :: before) rest
      | _ => takeOut bring id tag ((key, value) :: before) rest

mutual

/-- Merges a mapping. Each level of merging takes out a merge key, so their number bounds the
depth. -/
def mergeAt : Nat → NodeId → Merging Unit
  | 0, _ => throw .malformed
  | fuel + 1, id => do
      if (← get).merged.contains id then return
      let tag := (← get).graph.tag id
      let brought ← takeOut (broughtBy fuel) id tag [] (← entriesOf id)
      if ! brought.isEmpty then put id (.mapping tag (brought ++ (← entriesOf id)))
      modify fun merger => { merger with merged := id :: merger.merged }

/-- What the value of a merge key brings in: the entries of a mapping, or those of several, the
last one first, so that the first one wins. -/
def broughtBy : Nat → NodeId → Merging (List (NodeId × NodeId))
  | 0, _ => throw .malformed
  | fuel + 1, id => do
      match (← get).graph.node id with
      | .mapping .. =>
          mergeAt fuel id
          entriesOf id
      | .sequence _ items =>
          let parts ← items.mapM fun item => do
            let _ ← entriesOf item
            mergeAt fuel item
            entriesOf item
          return parts.reverse.flatten
      | .scalar .. => throw .malformed

end

def merge (id : NodeId) : Merging Unit := do
  mergeAt (2 * (← get).graph.entryCount + 2) id

end Merging

end SpreadWatch.Yaml
