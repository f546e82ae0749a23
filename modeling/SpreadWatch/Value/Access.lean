import SpreadWatch.Failure

/-!
Looking names up in values that may or may not be mappings. A mapping is asked for its key; a list
or a set for an equal item and a text for a part of it, which is found but cannot be read; anything
else has no members at all.
-/

namespace SpreadWatch.Value

def occursIn (part whole : String) : Bool :=
  let rec anywhere : List Char → Bool
    | [] => part.isEmpty
    | c :: rest => part.toList.isPrefixOf (c :: rest) || anywhere rest
  anywhere whole.toList

def isText (name : String) : Value → Bool
  | .text value => value == name
  | _ => false

def hasMember (value : Value) (name : String) : Except Failure Bool :=
  match value.opened with
  | .dict entries => .ok (Entries.contains entries name)
  | .list items | .set items => .ok (items.any (isText name))
  | .pair first second => .ok (isText name first || isText name second)
  | .text whole => .ok (occursIn name whole)
  | .bytes _ => .error (.wrongType "a bytes-like object is required, not 'str'")
  | other => .error (.wrongType ("argument of type '" ++ other.typeName ++ "' is not iterable"))

def member (value : Value) (name : String) : Except Failure Value :=
  match value.opened with
  | .dict entries =>
      match Entries.get? entries name with
      | some found => .ok found
      | none => .error (.missingKey name)
  | .list _ => .error (.wrongType "list indices must be integers or slices, not str")
  | .pair .. => .error (.wrongType "tuple indices must be integers or slices, not str")
  | .bytes _ => .error (.wrongType "byte indices must be integers or slices, not str")
  | .text _ => .error (.wrongType "string indices must be integers, not 'str'")
  | other => .error (.wrongType ("'" ++ other.typeName ++ "' object is not subscriptable"))

def member? (value : Value) (name : String) : Except Failure (Option Value) := do
  if ← value.hasMember name then return some (← value.member name) else return none

/-- The value under a name of a mapping, or a default. Only mappings can be asked like this. -/
def memberOr (value : Value) (name : String) (default : Value) : Except Failure Value :=
  match value.entries? with
  | some entries => .ok ((Entries.get? entries name).getD default)
  | none => .error (.noMember value "get")

end SpreadWatch.Value
