import StackCompiler.Import.Identifiers
import StackCompiler.Rust.Expr
import StackCompiler.Value.Encode

/-!
Initialisers of values whose shape does not matter: arguments of calls, outputs,
conditions.
-/
namespace StackCompiler.Import

open Rust (Expr)

/-- A text as a scalar. -/
def textLiteral (s : String) : Expr :=
  .literal (.str s)

mutual

def argument (ids : Identifiers) : Value → Expr
  | .null => .json .null
  | .bool b => .literal (.bool b)
  | .num n => .literal (.num n)
  | .str s => textLiteral s
  | .arr items => .list (arguments ids items)
  | .obj members => .json (.obj (Value.membersToJson members))
  | .fn call => callExpr ids call

def arguments (ids : Identifiers) : List Value → List Expr
  | [] => []
  | item :: rest => argument ids item :: arguments ids rest

def argumentPairs (ids : Identifiers) : List (String × Value) → List (String × Expr)
  | [] => []
  | (name, value) :: rest => (name, argument ids value) :: argumentPairs ids rest

/-- A call as a call in source; references go through the declarations that they name. -/
def callExpr (ids : Identifiers) : Intrinsic Value → Expr
  | .ref target => .ref target (ids.ofReference? target)
  | .getAtt attr => .attr attr.resource attr.name (ids.ofAttribute? attr.resource)
  | .sub template [] => .call "sub" [.str template]
  | .sub template ((name, value) :: rest) =>
    .call "sub_with" [.str template, .pairs ((name, argument ids value) :: argumentPairs ids rest)]
  | .join delimiter values => .call "join" [.str delimiter, argument ids values]
  | .select index list => .call "select" [argument ids index, argument ids list]
  | .cond condition ifTrue ifFalse =>
    .call "if_" [.str condition, argument ids ifTrue, argument ids ifFalse]
  | .equals left right => .call "equals" [argument ids left, argument ids right]
  | .and conditions => .call "and" [.list (arguments ids conditions)]
  | .or conditions => .call "or" [.list (arguments ids conditions)]
  | .not operand => .call "not" [argument ids operand]
  | .condition name => .call "condition" [.str name]
  | .split delimiter source => .call "split" [.str delimiter, argument ids source]
  | .base64 value => .call "base64" [argument ids value]
  | .cidr ipBlock count cidrBits =>
    .call "cidr" [argument ids ipBlock, argument ids count, argument ids cidrBits]
  | .importValue name => .call "import_value" [argument ids name]
  | .findInMap mapName topKey secondKey =>
    .call "find_in_map" [argument ids mapName, argument ids topKey, argument ids secondKey]
  | .transform name parameters =>
    .call "transform" [.str name, .json (.obj (Value.membersToJson parameters))]
  | .getAZs region => .call "get_azs" [argument ids region]
  | .verbatim key args => .call "raw" [.json (.obj [(key, args)])]

end

end StackCompiler.Import
