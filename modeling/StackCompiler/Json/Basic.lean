import StackCompiler.Number.Basic
import StackCompiler.Members

/-!
JSON documents as trees. Objects keep the order of their members.
-/
namespace StackCompiler

inductive Json where
  | null
  | bool (b : Bool)
  | num (n : Number)
  | str (s : String)
  | arr (items : List Json)
  | obj (members : List (String × Json))
deriving Inhabited

namespace Json

def nat (n : Nat) : Json :=
  .num (.int n)

def strings (texts : List String) : Json :=
  .arr (texts.map .str)

/-- The member `name` of an object; nothing for other documents. -/
def get? (name : String) : Json → Option Json
  | .obj members => members.lookup name
  | _ => none

def isNull : Json → Bool
  | .null => true
  | _ => false

end Json

end StackCompiler
