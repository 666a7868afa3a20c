import StackCompiler.Declaration.Basic
import StackCompiler.Template.Basic

/-!
Equality of documents, values, templates and declarations can be decided, so what a text is read as
and what declarations are built to can be computed and compared. Documents and values have lists of
themselves inside, and are compared node by node.
-/
namespace StackCompiler

/-! ### Documents -/

namespace Json

mutual

/-- Whether two documents are equal. -/
def same : Json → Json → Bool
  | .null, .null => true
  | .bool a, .bool b => a == b
  | .num m, .num n => m == n
  | .str s, .str t => s == t
  | .arr items, .arr others => sameItems items others
  | .obj members, .obj others => sameMembers members others
  | _, _ => false

def sameItems : List Json → List Json → Bool
  | [], [] => true
  | a :: rest, b :: others => same a b && sameItems rest others
  | _, _ => false

def sameMembers : List (String × Json) → List (String × Json) → Bool
  | [], [] => true
  | (name, a) :: rest, (other, b) :: others => name == other && same a b && sameMembers rest others
  | _, _ => false

end

mutual

theorem same_iff : (a b : Json) → (same a b = true ↔ a = b)
  | .null, b | .bool _, b | .num _, b | .str _, b => by cases b <;> simp [same]
  | .arr items, b => by cases b <;> simp [same, sameItems_iff items]
  | .obj members, b => by cases b <;> simp [same, sameMembers_iff members]

theorem sameItems_iff : (items others : List Json) → (sameItems items others = true ↔ items = others)
  | [], others => by cases others <;> simp [sameItems]
  | a :: rest, others => by cases others <;> simp [sameItems, same_iff a, sameItems_iff rest]

theorem sameMembers_iff : (members others : List (String × Json)) → (sameMembers members others = true ↔ members = others)
  | [], others => by cases others <;> simp [sameMembers]
  | _ :: _, [] => by simp [sameMembers]
  | (_, a) :: rest, (_, _) :: _ => by simp [sameMembers, same_iff a, sameMembers_iff rest, and_assoc]

end

instance : DecidableEq Json := fun a b => decidable_of_iff _ (same_iff a b)

end Json

/-! ### Values -/

namespace Value

mutual

/-- Whether two values are equal. -/
def same : Value → Value → Bool
  | .null, .null => true
  | .bool a, .bool b => a == b
  | .num m, .num n => m == n
  | .str s, .str t => s == t
  | .arr items, .arr others => sameItems items others
  | .obj members, .obj others => sameMembers members others
  | .fn call, .fn other => sameCall call other
  | _, _ => false

def sameItems : List Value → List Value → Bool
  | [], [] => true
  | v :: rest, w :: others => same v w && sameItems rest others
  | _, _ => false

def sameMembers : List (String × Value) → List (String × Value) → Bool
  | [], [] => true
  | (name, v) :: rest, (other, w) :: others => name == other && same v w && sameMembers rest others
  | _, _ => false

def sameCall : Intrinsic Value → Intrinsic Value → Bool
  | .ref name, .ref other => name == other
  | .getAtt attr, .getAtt other => attr == other
  | .sub template bindings, .sub other others => template == other && sameMembers bindings others
  | .join delimiter v, .join other w => delimiter == other && same v w
  | .select v₁ v₂, .select w₁ w₂ => same v₁ w₁ && same v₂ w₂
  | .cond condition v₁ v₂, .cond other w₁ w₂ => condition == other && same v₁ w₁ && same v₂ w₂
  | .equals v₁ v₂, .equals w₁ w₂ => same v₁ w₁ && same v₂ w₂
  | .and conditions, .and others => sameItems conditions others
  | .or conditions, .or others => sameItems conditions others
  | .not v, .not w => same v w
  | .condition name, .condition other => name == other
  | .split delimiter v, .split other w => delimiter == other && same v w
  | .base64 v, .base64 w => same v w
  | .cidr v₁ v₂ v₃, .cidr w₁ w₂ w₃ => same v₁ w₁ && same v₂ w₂ && same v₃ w₃
  | .importValue v, .importValue w => same v w
  | .findInMap v₁ v₂ v₃, .findInMap w₁ w₂ w₃ => same v₁ w₁ && same v₂ w₂ && same v₃ w₃
  | .transform name parameters, .transform other others => name == other && sameMembers parameters others
  | .getAZs v, .getAZs w => same v w
  | .verbatim key args, .verbatim other others => key == other && args == others
  | _, _ => false

end

mutual

theorem same_iff : (v w : Value) → (same v w = true ↔ v = w)
  | .null, w | .bool _, w | .num _, w | .str _, w => by cases w <;> simp [same]
  | .arr items, w => by cases w <;> simp [same, sameItems_iff items]
  | .obj members, w => by cases w <;> simp [same, sameMembers_iff members]
  | .fn call, w => by cases w <;> simp [same, sameCall_iff call]

theorem sameItems_iff : (items others : List Value) → (sameItems items others = true ↔ items = others)
  | [], others => by cases others <;> simp [sameItems]
  | v :: rest, others => by cases others <;> simp [sameItems, same_iff v, sameItems_iff rest]

theorem sameMembers_iff : (members others : List (String × Value)) → (sameMembers members others = true ↔ members = others)
  | [], others => by cases others <;> simp [sameMembers]
  | _ :: _, [] => by simp [sameMembers]
  | (_, v) :: rest, (_, _) :: _ => by simp [sameMembers, same_iff v, sameMembers_iff rest, and_assoc]

theorem sameCall_iff : (call other : Intrinsic Value) → (sameCall call other = true ↔ call = other)
  | .ref _, other | .getAtt _, other | .condition _, other | .verbatim _ _, other => by
    cases other <;> simp [sameCall]
  | .sub _ members, other | .transform _ members, other => by cases other <;> simp [sameCall, sameMembers_iff members]
  | .and items, other | .or items, other => by cases other <;> simp [sameCall, sameItems_iff items]
  | .join _ v, other | .split _ v, other | .not v, other | .base64 v, other | .importValue v, other | .getAZs v, other => by
    cases other <;> simp [sameCall, same_iff v]
  | .select v₁ v₂, other | .cond _ v₁ v₂, other | .equals v₁ v₂, other => by
    cases other <;> simp [sameCall, same_iff v₁, same_iff v₂, and_assoc]
  | .cidr v₁ v₂ v₃, other | .findInMap v₁ v₂ v₃, other => by
    cases other <;> simp [sameCall, same_iff v₁, same_iff v₂, same_iff v₃, and_assoc]

end

instance : DecidableEq Value := fun v w => decidable_of_iff _ (same_iff v w)

end Value

/-! ### Templates and declarations -/

deriving instance DecidableEq for Parameter, Resource, Output, Template

deriving instance DecidableEq for ResourceDecl, OutputDecl, Declarations

end StackCompiler
