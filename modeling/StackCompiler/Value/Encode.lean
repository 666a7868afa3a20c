import StackCompiler.Value.Basic

/-!
The wire form of values: a call becomes an object whose one member has the
function's key and the arguments laid out in a list or an object.
-/
namespace StackCompiler

/-- The wire form of an attribute reference. -/
def AttrRef.toJson (attr : AttrRef) : Json :=
  .obj [(Function.getAtt.key, Json.strings [attr.resource, attr.name])]

namespace Value

mutual

def toJson : Value → Json
  | .null => .null
  | .bool b => .bool b
  | .num n => .num n
  | .str s => .str s
  | .arr items => .arr (itemsToJson items)
  | .obj members => .obj (membersToJson members)
  | .fn call => .obj [(call.key, argsToJson call)]

def itemsToJson : List Value → List Json
  | [] => []
  | item :: rest => item.toJson :: itemsToJson rest

def membersToJson : List (String × Value) → List (String × Json)
  | [] => []
  | (name, value) :: rest => (name, value.toJson) :: membersToJson rest

/-- The arguments of a call as they stand under its key. -/
def argsToJson : Intrinsic Value → Json
  | .ref name => .str name
  | .getAtt attr => Json.strings [attr.resource, attr.name]
  | .sub template [] => .str template
  | .sub template ((name, value) :: rest) =>
    .arr [.str template, .obj ((name, value.toJson) :: membersToJson rest)]
  | .join delimiter values => .arr [.str delimiter, values.toJson]
  | .select index list => .arr [index.toJson, list.toJson]
  | .cond condition ifTrue ifFalse => .arr [.str condition, ifTrue.toJson, ifFalse.toJson]
  | .equals left right => .arr [left.toJson, right.toJson]
  | .and conditions => .arr (itemsToJson conditions)
  | .or conditions => .arr (itemsToJson conditions)
  | .not operand => .arr [operand.toJson]
  | .condition name => .str name
  | .split delimiter source => .arr [.str delimiter, source.toJson]
  | .base64 value => value.toJson
  | .cidr ipBlock count cidrBits => .arr [ipBlock.toJson, count.toJson, cidrBits.toJson]
  | .importValue name => name.toJson
  | .findInMap mapName topKey secondKey => .arr [mapName.toJson, topKey.toJson, secondKey.toJson]
  | .transform name parameters =>
    .obj [("Name", .str name), ("Parameters", .obj (membersToJson parameters))]
  | .getAZs region => region.toJson
  | .verbatim _ args => args

end

end Value

end StackCompiler
