import SpreadWatch.Text.Lines
import SpreadWatch.Value.Members
import SpreadWatch.Yaml.Construct

/-!
The value of a YAML document. What its nodes stand for is put together from the outermost one.
Inside a collection that holds itself, every collection on the way round is a knot, which can be
entered from any side.
-/

namespace SpreadWatch.Yaml

/-- A value that is put together, and the labels it refers back to outside of itself. -/
structure Assembled where
  value : Value
  loose : List NodeId := []
deriving Repr

/-- The values of nodes that refer back to nothing. They are the same at every place. -/
abbrev Assembling (α : Type) := StateM (Array (Option Value)) α

namespace Assembled

def looseOf (parts : List Assembled) : List NodeId :=
  parts.foldl (fun known part => part.loose.foldr List.insert known) []

/-- A collection of parts. If a part refers back to it or to what lies around it, it is a knot. -/
def collection (id : NodeId) (value : Value) (parts : List Assembled) : Assembling Assembled := do
  match looseOf parts with
  | [] =>
      modify fun known => known.setIfInBounds id (some value)
      return { value }
  | loose => return { value := .knot id value, loose := loose.erase id }

def ofNode (made : MadeTable) : Nat → List NodeId → NodeId → Assembling Assembled
  | 0, _, _ => return { value := .null }
  | fuel + 1, around, id => do
      if around.contains id then return { value := .back id, loose := [id] }
      if let some value := (← get).getD id none then return { value }
      let part := ofNode made fuel (id :: around)
      match made.getD id none with
      | some (.atom value) => return { value }
      | some (.list items) =>
          let parts ← items.mapM part
          collection id (.list (parts.map (·.value))) parts
      | some (.pairs entries) =>
          let keys ← entries.mapM fun entry => part entry.1
          let values ← entries.mapM fun entry => part entry.2
          let pairs := (keys.zip values).map fun (key, value) => Value.pair key.value value.value
          collection id (.list pairs) (keys ++ values)
      | some (.set members) =>
          let parts ← members.mapM part
          collection id (.set (Value.inSetOrder (parts.map (·.value)))) parts
      | some (.dict entries) =>
          let keys ← entries.mapM fun entry => part entry.1
          let values ← entries.mapM fun entry => part entry.2
          let pairs := (keys.zip values).map fun (key, value) => (key.value, value.value)
          collection id (.dict pairs) values
      | none => return { value := .null }

end Assembled

def MadeTable.value (made : MadeTable) (root : NodeId) : Value :=
  ((Assembled.ofNode made (made.size + 1) [] root).run (Array.replicate made.size none)).1.value

def read (text : String) : Except Fault Value := do
  match ← Graph.read (Text.unifyLineEnds text.toList) with
  | (none, _) => return .null
  | (some root, graph) => return (← graph.make root).value root

end SpreadWatch.Yaml
