import StackCompiler.Value.Basic

/-!
Every node of a value with its path, from the root down and in the order of the
text; and the node at a path.
-/
namespace StackCompiler.Value

mutual

/-- The nodes of a value that stands at `base`. -/
def walk (base : FieldPath) : Value → List (FieldPath × Value)
  | .arr items => (base, .arr items) :: walkItems base 0 items
  | .obj members => (base, .obj members) :: walkMembers base members
  | .fn call => (base, .fn call) :: walkArgs base call
  | .null => [(base, .null)]
  | .bool b => [(base, .bool b)]
  | .num n => [(base, .num n)]
  | .str s => [(base, .str s)]

def walkItems (base : FieldPath) (position : Nat) : List Value → List (FieldPath × Value)
  | [] => []
  | item :: rest => walk (base.index position) item ++ walkItems base (position + 1) rest

def walkMembers (base : FieldPath) : List (String × Value) → List (FieldPath × Value)
  | [] => []
  | (name, value) :: rest => walk (base.key name) value ++ walkMembers base rest

def walkArgs (base : FieldPath) : Intrinsic Value → List (FieldPath × Value)
  | .ref _ => []
  | .getAtt _ => []
  | .sub _ bindings => walkMembers (base.key "Variables") bindings
  | .join _ values => walk (base.key "Values") values
  | .select index list => walk (base.key "Index") index ++ walk (base.key "List") list
  | .cond _ ifTrue ifFalse =>
    walk (base.key "ValueIfTrue") ifTrue ++ walk (base.key "ValueIfFalse") ifFalse
  | .equals left right => walk (base.key "Value1") left ++ walk (base.key "Value2") right
  | .and conditions => walkItems (base.key "Conditions") 0 conditions
  | .or conditions => walkItems (base.key "Conditions") 0 conditions
  | .not operand => walk (base.key "Condition") operand
  | .condition _ => []
  | .split _ source => walk (base.key "Source") source
  | .base64 value => walk (base.key "Value") value
  | .cidr ipBlock count cidrBits =>
    walk (base.key "IpBlock") ipBlock ++ walk (base.key "Count") count
      ++ walk (base.key "CidrBits") cidrBits
  | .importValue name => walk (base.key "Name") name
  | .findInMap mapName topKey secondKey =>
    walk (base.key "MapName") mapName ++ walk (base.key "TopLevelKey") topKey
      ++ walk (base.key "SecondLevelKey") secondKey
  | .transform _ parameters => walkMembers (base.key "Parameters") parameters
  | .getAZs region => walk (base.key "Region") region
  | .verbatim _ _ => []

end

/-- The node that `segments` lead to. Inside a call they name an argument, and for an argument that
    is a list or a map also the entry in it. -/
def follow : List Segment → Value → Option Value
  | [], value => some value
  | .key name :: rest, .obj members => (members.lookup name).bind (follow rest)
  | .index position :: rest, .arr items => items[position]?.bind (follow rest)
  | .key field :: rest, .fn call =>
    match call.args.lookup [.key field] with
    | some arg => follow rest arg
    | none =>
      match rest with
      | [] => none
      | entry :: rest => (call.args.lookup [.key field, entry]).bind (follow rest)
  | _ :: _, _ => none

/-- The node at a path. -/
def pointer (path : FieldPath) (value : Value) : Option Value :=
  value.follow path.segments

end StackCompiler.Value
