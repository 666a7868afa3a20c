import StackCompiler.Number.Basic

/-!
YAML documents as trees: keys may be of any form, and a value may have a tag.
-/
namespace StackCompiler.Yaml

inductive Tree where
  | null
  | bool (b : Bool)
  | num (n : Number)
  | str (s : String)
  | seq (items : List Tree)
  | map (entries : List (Tree × Tree))
  | tagged (name : String) (value : Tree)
deriving Inhabited

/-- Whether two numbers are the same key. The two zeros are, and so is no number to itself. -/
def sameKeyNumber : Number → Number → Bool
  | .int i, .int j => i == j
  | .float x, .float y => (x.isNaN && y.isNaN) || x.sameNumber y
  | _, _ => false

namespace Tree

mutual

/-- Whether two trees are the same key. The order of entries does not matter. -/
def same : Tree → Tree → Bool
  | .null, .null => true
  | .bool a, .bool b => a == b
  | .num a, .num b => sameKeyNumber a b
  | .str a, .str b => a == b
  | .seq as, .seq bs => sameItems as bs
  | .map as, .map bs => as.length == bs.length && sameEntries as bs
  | .tagged m a, .tagged n b => m == n && same a b
  | _, _ => false

def sameItems : List Tree → List Tree → Bool
  | [], [] => true
  | a :: as, b :: bs => same a b && sameItems as bs
  | _, _ => false

/-- Whether every entry is among `others`. -/
def sameEntries : List (Tree × Tree) → List (Tree × Tree) → Bool
  | [], _ => true
  | (key, value) :: rest, others =>
    (others.any fun (k, v) => same key k && same value v) && sameEntries rest others

end

end Tree

end StackCompiler.Yaml
