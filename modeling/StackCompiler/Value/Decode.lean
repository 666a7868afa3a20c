import StackCompiler.Value.Basic

/-!
Values from their wire form. An object with one member is a call where its key says
so; the arguments of a known function must be laid out as the function wants them,
and calls nest only up to a limit.
-/
namespace StackCompiler

inductive DecodeError where
  | malformed (key : String) (path : FieldPath) (expected : String)
  | tooDeep (path : FieldPath) (limit : Nat) (chain : List String)
deriving DecidableEq

def DecodeError.message : DecodeError → String
  | malformed key path expected =>
    "malformed " ++ key ++ " at '" ++ path.text ++ "': expected " ++ expected
  | tooDeep path limit chain =>
    "intrinsic nesting exceeds " ++ toString limit ++ " levels at '" ++ path.text ++ "': "
      ++ " -> ".intercalate chain

/-- How the arguments of a function are laid out, in the words of a message. -/
def Function.layout : Function → String
  | ref => "a string"
  | getAtt => "[resource, attribute] or \"resource.attribute\""
  | sub => "a template string or [template, variables]"
  | join => "[delimiter, values]"
  | select => "[index, list]"
  | cond => "[condition, value_if_true, value_if_false]"
  | equals => "[value1, value2]"
  | and => "a list of conditions"
  | or => "a list of conditions"
  | not => "[condition]"
  | condition => "a string"
  | split => "[delimiter, source]"
  | base64 => "a value"
  | cidr => "[ip_block, count, cidr_bits]"
  | importValue => "a value"
  | findInMap => "[map_name, top_level_key, second_level_key]"
  | transform => "\x7bName, Parameters\x7d"
  | getAZs => "a value"

namespace Value

/-- How many calls may stand inside one another. -/
def callLimit : Nat := 64

/-- Whether an object with the one member `key` is a call. A condition is one only where it names
    another condition; keys with the namespace of functions always are. -/
def isCall (key : String) (args : Json) : Bool :=
  match Function.ofKey? key with
  | some .condition =>
    match args with
    | .str _ => true
    | _ => false
  | some _ => true
  | none => Intrinsic.keyStart.isPrefixOf key.toList

/-- The attribute that a dotted text names: the resource ends at the first dot. -/
def dottedAttr? (text : String) : Option AttrRef :=
  (Text.splitFirst? (· == '.') text.toList).map fun (resource, name) =>
    ⟨String.ofList resource, String.ofList name⟩

mutual

/-- The value of a document at `path`, inside the calls of `chain` from the outermost in. -/
def decodeAt (limit : Nat) (chain : List String) (path : FieldPath) : Json → Except DecodeError Value
  | .null => pure .null
  | .bool b => pure (.bool b)
  | .num n => pure (.num n)
  | .str s => pure (.str s)
  | .arr items => .arr <$> decodeItems limit chain path 0 items
  | .obj [entry] =>
    if isCall entry.1 entry.2 then
      if limit ≤ chain.length then throw (.tooDeep path limit (chain ++ [entry.1]))
      else
        match Function.ofKey? entry.1 with
        | some f => .fn <$> decodeCall limit (chain ++ [entry.1]) (path.key entry.1) f entry
        | none => pure (.fn (.verbatim entry.1 entry.2))
    else .obj <$> decodeMembers limit chain path [entry]
  | .obj members => .obj <$> decodeMembers limit chain path members

def decodeItems (limit : Nat) (chain : List String) (path : FieldPath) (position : Nat) :
    List Json → Except DecodeError (List Value)
  | [] => pure []
  | item :: rest => do
    let value ← decodeAt limit chain (path.index position) item
    return value :: (← decodeItems limit chain path (position + 1) rest)

def decodeMembers (limit : Nat) (chain : List String) (path : FieldPath) :
    List (String × Json) → Except DecodeError (List (String × Value))
  | [] => pure []
  | (name, json) :: rest => do
    let value ← decodeAt limit chain (path.key name) json
    return (name, value) :: (← decodeMembers limit chain path rest)

/-- The parameters among the members of a transform. -/
def decodeParameters (limit : Nat) (chain : List String) (path : FieldPath) :
    List (String × Json) → Except DecodeError (List (String × Value))
  | [] => pure []
  | (name, json) :: rest =>
    if name = "Parameters" then
      match json with
      | .obj parameters => decodeMembers limit chain (path.key "Parameters") parameters
      | _ => throw (.malformed Function.transform.key path "a Parameters object")
    else decodeParameters limit chain path rest

/-- The call that an object's one member is: `path` ends with its key, and its value is the
    arguments. -/
def decodeCall (limit : Nat) (chain : List String) (path : FieldPath) :
    Function → String × Json → Except DecodeError (Intrinsic Value)
  | .ref, (_, .str name) => pure (.ref name)
  | .getAtt, (_, .arr [.str resource, .str name]) => pure (.getAtt ⟨resource, name⟩)
  | .getAtt, (_, .arr [.str resource, .obj members]) =>
    pure (.verbatim Function.getAtt.key (.arr [.str resource, .obj members]))
  | .getAtt, (_, .str text) =>
    match dottedAttr? text with
    | some attr => pure (.getAtt attr)
    | none => throw (.malformed Function.getAtt.key path Function.getAtt.layout)
  | .sub, (_, .str template) => pure (.sub template [])
  | .sub, (_, .arr [.str template, .obj bindings]) =>
    .sub template <$> decodeMembers limit chain (path.key "Variables") bindings
  | .sub, (_, .arr [_, _]) => throw (.malformed Function.sub.key path "[template, variables]")
  | .join, (_, .arr [.str delimiter, values]) =>
    .join delimiter <$> decodeAt limit chain (path.key "Values") values
  | .select, (_, .arr [index, list]) => do
    return .select (← decodeAt limit chain (path.key "Index") index)
      (← decodeAt limit chain (path.key "List") list)
  | .cond, (_, .arr [.str condition, ifTrue, ifFalse]) => do
    return .cond condition (← decodeAt limit chain (path.key "ValueIfTrue") ifTrue)
      (← decodeAt limit chain (path.key "ValueIfFalse") ifFalse)
  | .cond, (_, .arr [_, _, _]) =>
    throw (.malformed Function.cond.key path "a condition name as first argument")
  | .equals, (_, .arr [left, right]) => do
    return .equals (← decodeAt limit chain (path.key "Value1") left)
      (← decodeAt limit chain (path.key "Value2") right)
  | .and, (_, .arr conditions) => .and <$> decodeItems limit chain (path.key "Conditions") 0 conditions
  | .or, (_, .arr conditions) => .or <$> decodeItems limit chain (path.key "Conditions") 0 conditions
  | .not, (_, .arr [operand]) => .not <$> decodeAt limit chain (path.key "Condition") operand
  | .condition, (_, .str name) => pure (.condition name)
  | .split, (_, .arr [.str delimiter, source]) =>
    .split delimiter <$> decodeAt limit chain (path.key "Source") source
  | .base64, (_, value) => .base64 <$> decodeAt limit chain (path.key "Value") value
  | .cidr, (_, .arr [ipBlock, count, cidrBits]) => do
    return .cidr (← decodeAt limit chain (path.key "IpBlock") ipBlock)
      (← decodeAt limit chain (path.key "Count") count)
      (← decodeAt limit chain (path.key "CidrBits") cidrBits)
  | .importValue, (_, name) => .importValue <$> decodeAt limit chain (path.key "Name") name
  | .findInMap, (_, .arr [mapName, topKey, secondKey]) => do
    return .findInMap (← decodeAt limit chain (path.key "MapName") mapName)
      (← decodeAt limit chain (path.key "TopLevelKey") topKey)
      (← decodeAt limit chain (path.key "SecondLevelKey") secondKey)
  | .transform, (_, .obj members) =>
    match members.lookup "Name" with
    | some (.str name) => .transform name <$> decodeParameters limit chain path members
    | _ => throw (.malformed Function.transform.key path "a Name string")
  | .getAZs, (_, region) => .getAZs <$> decodeAt limit chain (path.key "Region") region
  | f, _ => throw (.malformed f.key path f.layout)

end

/-- The value of a document whose calls nest at most `limit` deep. -/
def decode (limit : Nat) (path : FieldPath) (json : Json) : Except DecodeError Value :=
  decodeAt limit [] path json

def ofJson (json : Json) : Except DecodeError Value :=
  decode callLimit .root json

end Value

end StackCompiler
