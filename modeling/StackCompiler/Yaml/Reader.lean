import StackCompiler.Yaml.Lexer
import StackCompiler.Yaml.Node
import StackCompiler.Yaml.Scalar

/-!
Trees from YAML text. Aliases are replaced by what they mean, keys must be distinct, and
collections nest only up to a limit.
-/
namespace StackCompiler.Yaml

/-- How many collections may stand inside one another. -/
def depthLimit : Nat := 128

/-- How many aliases may be followed for each part of a document. -/
def aliasLimit : Nat := 100

/-- A step of building a tree: it counts the aliases that it follows, and fails where there is no
    tree. -/
abbrev Build (α : Type) := StateT Nat Option α

namespace Document

/-- The node that a number means: of several, the one that starts last. -/
def target? (d : Document) (number : Nat) : Option Node :=
  let found := d.targets.filter (·.number == number)
  (found.foldl (fun best t =>
    match best with
    | some b => if b.start < t.start then some t else some b
    | none => some t) none).map (·.node)

/-- Follows an alias; other nodes are as they are. -/
def follow (d : Document) : Node → Build Node
  | .alias number => do
    let followed := (← get) + 1
    if aliasLimit * d.parts < followed then StateT.lift none
    else
      set followed
      StateT.lift (d.target? number)
  | node => pure node

/-- What a scalar means. Where `tagged` is set, its tag has been taken into account. Tags of the
    document's own do not change what a scalar means, and tags of unknown types make it text. -/
def scalarTree? (text : String) (plain tagged : Bool) (tag : Option Tag) : Option Tree :=
  let untagged := if plain then Tree.ofPlain? text else some (.str text)
  match if tagged then none else tag with
  | none => untagged
  | some t => (Tree.ofCore? t text).getD (if t.isLocal then untagged else some (.str text))

/-- Puts a tag before a tree, if there is one. -/
def withTag (name : Option String) (tree : Tree) : Tree :=
  match name with
  | some n => .tagged n tree
  | none => tree

/-- Entries of a mapping; a key must not be there already. -/
def entries (key value : Node → Build Tree) : List (Node × Node) → List (Tree × Tree) → Build (List (Tree × Tree))
  | [], done => pure done.reverse
  | (k, v) :: rest, done => do
    let k ← key k
    if done.any fun (other, _) => other.same k then StateT.lift none
    else
      let v ← value v
      entries key value rest ((k, v) :: done)

def isAlias : Node → Bool
  | .alias _ => true
  | _ => false

/-- The tree of a scalar, whose tag counts unless `tagged` is set. -/
def scalarIn (text : String) (plain tagged : Bool) (tag : Option Tag) : Build Tree := do
  let name := if tagged then none else tag.bind (·.localName?)
  return withTag name (← StateT.lift (scalarTree? text plain (tagged || name.isSome) tag))

/-- The tree of a node in which collections nest at most `depth` deep. The tag of the node counts
    unless `tagged` is set. The keys of a mapping under a tag have no tags of their own. -/
def tree (d : Document) : (depth : Nat) → (tagged : Bool) → Node → Build Tree
  | 0, tagged, node => do
    match node, ← d.follow node with
    | .alias _, .scalar text plain tag => scalarIn text plain false tag
    | _, .scalar text plain tag => scalarIn text plain tagged tag
    | _, _ => StateT.lift none
  | depth + 1, tagged, node => do
    let followed ← d.follow node
    let tagged := tagged && ! isAlias node
    match followed with
    | .scalar text plain tag => scalarIn text plain tagged tag
    | .sequence items tag =>
      let name := if tagged then none else tag.bind (·.localName?)
      return withTag name (.seq (← items.mapM (d.tree depth false)))
    | .mapping es tag =>
      let name := if tagged then none else tag.bind (·.localName?)
      return withTag name (.map (← entries (d.tree depth (tagged || name.isSome)) (d.tree depth false) es []))
    | .alias _ => StateT.lift none

end Document

/-- The tree of a text that is one document. -/
def parse? (text : String) : Option Tree := do
  let document ← Document.ofTokens? (← tokens? text)
  let (tree, _) ← (document.tree depthLimit false document.root).run 0
  return tree

end StackCompiler.Yaml
