import StackCompiler.Schema.Shape
import StackCompiler.Text.Case
import StackCompiler.Value.Basic

/-!
Shapes guessed from the values themselves. An object whose keys all look like property
names has a type named for its property.
-/
namespace StackCompiler.Shape

/-- Properties that hold policies or definitions of any form. -/
def documentProperties : List String :=
  ["AssumeRolePolicyDocument", "Definition", "DefinitionSubstitutions", "KeyPolicy", "Metadata",
   "Policy", "PolicyDocument", "Variables"]

/-- Whether a key is of ASCII letters and digits and starts with a capital. -/
def looksLikeProperty (key : String) : Bool :=
  key.toList.head?.any Char.isUpper && key.toList.all Text.isAsciiAlphanumeric

/-- Whether a value stands for the absence of one. -/
def isNoValue : Value → Bool
  | .fn (.ref name) => name == "AWS::NoValue"
  | _ => false

/-- The shape of an object under `property`. -/
def ofMembers (property : String) (members : List (String × Value)) : Shape :=
  if ! members.isEmpty && members.all (looksLikeProperty ·.1) then .nested property else .json

mutual

/-- The shape of a value under `property`, which is no document. A list is shaped like its first
    item that is no call, and a choice like its first branch that is a value. -/
def ofValue (property : String) : Value → Shape
  | .obj members => ofMembers property members
  | .arr items =>
    if property = "Tags" then .list (.nested "Tag") else .list (ofItems property items)
  | .fn (.cond _ ifTrue ifFalse) =>
    if ! isNoValue ifTrue then ofValue property ifTrue
    else if ! isNoValue ifFalse then ofValue property ifFalse
    else .scalar
  | .fn call => if call.yieldsList then .list .scalar else .scalar
  | .null => .scalar
  | .bool _ => .scalar
  | .num _ => .scalar
  | .str _ => .scalar

def ofItems (property : String) : List Value → Shape
  | [] => .scalar
  | .fn _ :: rest => ofItems property rest
  | item :: _ => ofValue property item

end

/-- The shape that the value of a property seems to have. -/
def infer (property : String) (value : Value) : Shape :=
  if documentProperties.contains property then .json else ofValue property value

end StackCompiler.Shape
