import StackCompiler.Declaration.Error
import StackCompiler.Declaration.Usage

/-!
Filling in the resources of attribute references. A reference whose resource is not
known takes it from the usage recorded for its place; complete references and
substitutions stay as they are.
-/
namespace StackCompiler

/-- What a reference becomes that reads an attribute at `path`. -/
def AttrRef.repaired (name : String) (usages : List Usage) (path : FieldPath) (attr : AttrRef) :
    Except BuildError AttrRef :=
  if attr.isUnresolved then
    match Usage.find? usages path attr.name with
    | some usage => pure ⟨usage.resource, usage.name⟩
    | none => throw (.unresolvedReference name path attr.name)
  else pure attr

namespace Value

mutual

/-- A value of the declaration `name` that stands at `base`, with its references filled in. -/
def repairAt (name : String) (usages : List Usage) (base : FieldPath) :
    Value → Except BuildError Value
  | .arr items => .arr <$> repairItems name usages base 0 items
  | .obj members => .obj <$> repairMembers name usages base members
  | .fn call => .fn <$> repairCall name usages base call
  | .null => pure .null
  | .bool b => pure (.bool b)
  | .num n => pure (.num n)
  | .str s => pure (.str s)

def repairItems (name : String) (usages : List Usage) (base : FieldPath) (position : Nat) :
    List Value → Except BuildError (List Value)
  | [] => pure []
  | item :: rest => do
    let item ← repairAt name usages (base.index position) item
    return item :: (← repairItems name usages base (position + 1) rest)

def repairMembers (name : String) (usages : List Usage) (base : FieldPath) :
    List (String × Value) → Except BuildError (List (String × Value))
  | [] => pure []
  | (key, value) :: rest => do
    let value ← repairAt name usages (base.key key) value
    return (key, value) :: (← repairMembers name usages base rest)

def repairCall (name : String) (usages : List Usage) (base : FieldPath) :
    Intrinsic Value → Except BuildError (Intrinsic Value)
  | .getAtt attr => .getAtt <$> attr.repaired name usages base
  | .join delimiter values => .join delimiter <$> repairAt name usages (base.key "Values") values
  | .select index list => do
    return .select (← repairAt name usages (base.key "Index") index)
      (← repairAt name usages (base.key "List") list)
  | .cond condition ifTrue ifFalse => do
    return .cond condition (← repairAt name usages (base.key "ValueIfTrue") ifTrue)
      (← repairAt name usages (base.key "ValueIfFalse") ifFalse)
  | .equals left right => do
    return .equals (← repairAt name usages (base.key "Value1") left)
      (← repairAt name usages (base.key "Value2") right)
  | .and conditions => .and <$> repairItems name usages (base.key "Conditions") 0 conditions
  | .or conditions => .or <$> repairItems name usages (base.key "Conditions") 0 conditions
  | .not operand => .not <$> repairAt name usages (base.key "Condition") operand
  | .split delimiter source => .split delimiter <$> repairAt name usages (base.key "Source") source
  | .base64 value => .base64 <$> repairAt name usages (base.key "Value") value
  | .cidr ipBlock count cidrBits => do
    return .cidr (← repairAt name usages (base.key "IpBlock") ipBlock)
      (← repairAt name usages (base.key "Count") count)
      (← repairAt name usages (base.key "CidrBits") cidrBits)
  | .importValue exported => .importValue <$> repairAt name usages (base.key "Name") exported
  | .findInMap mapName topKey secondKey => do
    return .findInMap (← repairAt name usages (base.key "MapName") mapName)
      (← repairAt name usages (base.key "TopLevelKey") topKey)
      (← repairAt name usages (base.key "SecondLevelKey") secondKey)
  | .transform macroName parameters =>
    .transform macroName <$> repairMembers name usages (base.key "Parameters") parameters
  | .getAZs region => .getAZs <$> repairAt name usages (base.key "Region") region
  | .ref target => pure (.ref target)
  | .sub template bindings => pure (.sub template bindings)
  | .condition condition => pure (.condition condition)
  | .verbatim key args => pure (.verbatim key args)

end

end Value

end StackCompiler
