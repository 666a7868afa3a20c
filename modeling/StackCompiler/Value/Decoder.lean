import StackCompiler.Value.Decode

/-!
Decoders that are used for one document after another. A decoder keeps the keys of the calls
that it is in: it adds a key before it looks at the arguments of a call and takes it away
after that, also where the arguments cannot be decoded.
-/
namespace StackCompiler

structure Decoder where
  /-- How many calls may stand inside one another. -/
  limit : Nat
  /-- The keys of the calls that are being decoded, from the outermost in. -/
  chain : List String := []
deriving DecidableEq

/-- Steps of a decoder. What a step that fails has changed stays changed. -/
abbrev Decoding (α : Type) := ExceptT DecodeError (StateM Decoder) α

namespace Decoder

open Value (isCall dottedAttr?)

/-- A decoder that has decoded nothing yet. -/
def withLimit (limit : Nat) : Decoder := { limit }

def push (d : Decoder) (key : String) : Decoder :=
  { d with chain := d.chain ++ [key] }

def pop (d : Decoder) : Decoder :=
  { d with chain := d.chain.dropLast }

/-- Decodes a call of `key` at `path` by `call`, unless too many calls are around it. The key is taken
    away again whatever `call` ends with. -/
def enter (key : String) (path : FieldPath) (call : Decoding (Intrinsic Value)) : Decoding Value := fun d =>
  if d.limit ≤ d.chain.length then (throw (.tooDeep path d.limit (d.chain ++ [key])), d)
  else
    let (result, d) := call.run.run (d.push key)
    (.fn <$> result, d.pop)

mutual

/-- The value of a document at `path`. -/
def decodeAt (path : FieldPath) : Json → Decoding Value
  | .null => pure .null
  | .bool b => pure (.bool b)
  | .num n => pure (.num n)
  | .str s => pure (.str s)
  | .arr items => .arr <$> decodeItems path 0 items
  | .obj [entry] =>
    if isCall entry.1 entry.2 then
      enter entry.1 path <|
        match Function.ofKey? entry.1 with
        | some f => decodeCall (path.key entry.1) f entry
        | none => pure (.verbatim entry.1 entry.2)
    else .obj <$> decodeMembers path [entry]
  | .obj members => .obj <$> decodeMembers path members

def decodeItems (path : FieldPath) (position : Nat) : List Json → Decoding (List Value)
  | [] => pure []
  | item :: rest => do
    let value ← decodeAt (path.index position) item
    return value :: (← decodeItems path (position + 1) rest)

def decodeMembers (path : FieldPath) : List (String × Json) → Decoding (List (String × Value))
  | [] => pure []
  | (name, json) :: rest => do
    let value ← decodeAt (path.key name) json
    return (name, value) :: (← decodeMembers path rest)

/-- The parameters among the members of a transform. -/
def decodeParameters (path : FieldPath) : List (String × Json) → Decoding (List (String × Value))
  | [] => pure []
  | (name, json) :: rest =>
    if name = "Parameters" then
      match json with
      | .obj parameters => decodeMembers (path.key "Parameters") parameters
      | _ => throw (.malformed Function.transform.key path "a Parameters object")
    else decodeParameters path rest

/-- The call of a known function that an object's one member is: `path` ends with its key. -/
def decodeCall (path : FieldPath) : Function → String × Json → Decoding (Intrinsic Value)
  | .ref, (_, .str name) => pure (.ref name)
  | .getAtt, (_, .arr [.str resource, .str name]) => pure (.getAtt ⟨resource, name⟩)
  | .getAtt, (_, .arr [.str resource, .obj members]) =>
    pure (.verbatim Function.getAtt.key (.arr [.str resource, .obj members]))
  | .getAtt, (_, .str text) =>
    match dottedAttr? text with
    | some attr => pure (.getAtt attr)
    | none => throw (.malformed Function.getAtt.key path Function.getAtt.layout)
  | .sub, (_, .str template) => pure (.sub template [])
  | .sub, (_, .arr [.str template, .obj bindings]) =>
    .sub template <$> decodeMembers (path.key "Variables") bindings
  | .sub, (_, .arr [_, _]) => throw (.malformed Function.sub.key path "[template, variables]")
  | .join, (_, .arr [.str delimiter, values]) => .join delimiter <$> decodeAt (path.key "Values") values
  | .select, (_, .arr [index, list]) => do
    return .select (← decodeAt (path.key "Index") index) (← decodeAt (path.key "List") list)
  | .cond, (_, .arr [.str condition, ifTrue, ifFalse]) => do
    return .cond condition (← decodeAt (path.key "ValueIfTrue") ifTrue) (← decodeAt (path.key "ValueIfFalse") ifFalse)
  | .cond, (_, .arr [_, _, _]) =>
    throw (.malformed Function.cond.key path "a condition name as first argument")
  | .equals, (_, .arr [left, right]) => do
    return .equals (← decodeAt (path.key "Value1") left) (← decodeAt (path.key "Value2") right)
  | .and, (_, .arr conditions) => .and <$> decodeItems (path.key "Conditions") 0 conditions
  | .or, (_, .arr conditions) => .or <$> decodeItems (path.key "Conditions") 0 conditions
  | .not, (_, .arr [operand]) => .not <$> decodeAt (path.key "Condition") operand
  | .condition, (_, .str name) => pure (.condition name)
  | .split, (_, .arr [.str delimiter, source]) => .split delimiter <$> decodeAt (path.key "Source") source
  | .base64, (_, value) => .base64 <$> decodeAt (path.key "Value") value
  | .cidr, (_, .arr [ipBlock, count, cidrBits]) => do
    return .cidr (← decodeAt (path.key "IpBlock") ipBlock) (← decodeAt (path.key "Count") count)
      (← decodeAt (path.key "CidrBits") cidrBits)
  | .importValue, (_, name) => .importValue <$> decodeAt (path.key "Name") name
  | .findInMap, (_, .arr [mapName, topKey, secondKey]) => do
    return .findInMap (← decodeAt (path.key "MapName") mapName) (← decodeAt (path.key "TopLevelKey") topKey)
      (← decodeAt (path.key "SecondLevelKey") secondKey)
  | .transform, (_, .obj members) =>
    match members.lookup "Name" with
    | some (.str name) => .transform name <$> decodeParameters path members
    | _ => throw (.malformed Function.transform.key path "a Name string")
  | .getAZs, (_, region) => .getAZs <$> decodeAt (path.key "Region") region
  | f, _ => throw (.malformed f.key path f.layout)

end

/-- The value of a document at `path`, and the decoder as it is after that. -/
def decode (d : Decoder) (path : FieldPath) (json : Json) : Except DecodeError Value × Decoder :=
  (decodeAt path json).run.run d

/-- What a decoder gives for documents one after the other, whether or not those before could be
    decoded, and the decoder as it is in the end. -/
def decodeEach (d : Decoder) : List (FieldPath × Json) → List (Except DecodeError Value) × Decoder
  | [] => ([], d)
  | (path, json) :: rest =>
    let (result, d) := d.decode path json
    let (results, d) := d.decodeEach rest
    (result :: results, d)

end Decoder

end StackCompiler
