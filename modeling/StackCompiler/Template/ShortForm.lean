import StackCompiler.Intrinsic
import StackCompiler.Number.Text
import StackCompiler.Yaml.Problem
import StackCompiler.Yaml.Tree

/-!
YAML trees and JSON documents. In YAML a call is written short, as a tag before its
arguments; in JSON it is an object with the function's key.
-/
namespace StackCompiler.Yaml.Tree

/-- How deep trees may nest. -/
def levelLimit : Nat := 512

/-- The key of the function that a tag names; exclamation marks at its start do not count. -/
def longKey (tag : String) : String :=
  let name := String.ofList (tag.toList.dropWhile (· == '!'))
  if name == "Ref" || name == "Condition" then name else "Fn::" ++ name

/-- A number, or text for what is no number of a JSON document. -/
def numberJson (n : Number) : Json :=
  match n with
  | .int i => .num (.int i)
  | .float x => if x.isFinite then .num (.float x) else .str (x.text .yaml)

/-- The name of a member. -/
def keyText : Tree → Except Problem String
  | .str s => pure s
  | .num n => pure (n.text .yaml)
  | .bool true => pure "true"
  | .bool false => pure "false"
  | .null => pure "null"
  | _ => throw .keyShape

mutual

/-- The document of a tree that stands `level` levels deep. -/
def toJsonAt (level : Nat) (tree : Tree) : Except Problem Json :=
  if levelLimit < level then throw (.tooDeep levelLimit)
  else
    match tree with
    | .null => pure .null
    | .bool b => pure (.bool b)
    | .num n => pure (numberJson n)
    | .str s => pure (.str s)
    | .seq items => .arr <$> itemsToJson (level + 1) items
    | .map entries => (.obj <| collectMembers ·) <$> entriesToJson (level + 1) entries
    | .tagged name value => do return .obj [(longKey name, ← toJsonAt (level + 1) value)]

def itemsToJson (level : Nat) : List Tree → Except Problem (List Json)
  | [] => pure []
  | item :: rest => do
    let json ← toJsonAt level item
    return json :: (← itemsToJson level rest)

def entriesToJson (level : Nat) : List (Tree × Tree) → Except Problem (List (String × Json))
  | [] => pure []
  | (key, value) :: rest => do
    let name ← keyText key
    let json ← toJsonAt level value
    return (name, json) :: (← entriesToJson level rest)

end

def toJson (tree : Tree) : Except Problem Json :=
  toJsonAt 0 tree

/-- The tag for a call with the key `key`, where it has one. -/
def shortTag? (key : String) (args : Json) : Option String :=
  match Function.ofKey? key with
  | none => none
  | some .transform => none
  | some .condition =>
    match args with
    | .str _ => some "Condition"
    | _ => none
  | some _ =>
    let cs := key.toList
    some (if Intrinsic.keyStart.isPrefixOf cs
      then String.ofList (cs.drop Intrinsic.keyStart.length) else key)

/-- An attribute that is read from a resource, with a dot between the two. -/
def dotted? (key : String) : Json → Option String
  | .arr [.str resource, .str name] =>
    if key == Function.getAtt.key then some (resource ++ "." ++ name) else none
  | _ => none

mutual

/-- The tree of a document. -/
def ofJson : Json → Tree
  | .null => .null
  | .bool b => .bool b
  | .num n => .num n
  | .str s => .str s
  | .arr items => .seq (ofItems items)
  | .obj [entry] =>
    match shortTag? entry.1 entry.2 with
    | some tag => .tagged tag (ofArgs entry)
    | none => .map (ofMembers [entry])
  | .obj members => .map (ofMembers members)

def ofItems : List Json → List Tree
  | [] => []
  | item :: rest => ofJson item :: ofItems rest

def ofMembers : List (String × Json) → List (Tree × Tree)
  | [] => []
  | (name, value) :: rest => (.str name, ofJson value) :: ofMembers rest

/-- What stands after the tag of a call. -/
def ofArgs : String × Json → Tree
  | (key, args) =>
    match dotted? key args with
    | some text => .str text
    | none => ofJson args

end

end StackCompiler.Yaml.Tree
