import StackCompiler.Text.Blank
import StackCompiler.Value.Walk

/-!
The names that a value refers to: the targets of references and the placeholders of
substitution templates.
-/
namespace StackCompiler.Value

/-- The groups that open with a dollar sign and a brace, from left to right: each ends at the first
    closing brace after it, and one that stays open is none. `inside` is what has been read of the
    group that is open, last character first. -/
def groups : (inside : Option (List Char)) → List Char → List (List Char)
  | _, [] => []
  | some inner, c :: rest =>
    if c = '\x7d' then inner.reverse :: groups none rest else groups (some (c :: inner)) rest
  | none, '$' :: '\x7b' :: rest => groups (some []) rest
  | none, _ :: rest => groups none rest

/-- The names that a substitution template asks for. A group that starts with an exclamation mark
    is literal text. -/
def placeholders (template : String) : List String :=
  (groups none template.toList).filterMap fun inner =>
    if inner.isEmpty || inner.head? == some '!' then none
    else some (String.ofList (Text.trim inner))

/-- A name up to its first dot. -/
def beforeDot (name : String) : String :=
  String.ofList (name.toList.takeWhile (· != '.'))

/-- The names that one node refers to. Placeholders that the call gives a value to are not among
    them. -/
def ownReferences : Value → List String
  | .fn (.sub template bindings) =>
    ((placeholders template).map beforeDot).filter (! hasMember · bindings)
  | .fn call => call.target?.toList
  | _ => []

/-- All names that a value refers to, in the order of its nodes. -/
def referencedNames (value : Value) : List String :=
  (value.walk .root).flatMap fun (_, node) => node.ownReferences

end StackCompiler.Value
