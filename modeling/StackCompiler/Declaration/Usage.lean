import StackCompiler.Declaration.Basic
import StackCompiler.Distinct

/-!
The attribute usages that count for a declaration: its own, those of values that it
uses as they are, and those of the resources that it depends on.
-/
namespace StackCompiler

/-- How a usage came to count for a declaration. -/
inductive Origin where
  | own
  /-- Through a field that uses another declaration's value. -/
  | forwarded
  /-- Through a dependency. -/
  | transitive
deriving DecidableEq

def Origin.name : Origin → String
  | own => "own"
  | forwarded => "forwarded"
  | transitive => "transitive"

/-- The origin of what a field passes on. -/
def Origin.passedOn : Origin → Origin
  | own => forwarded
  | origin => origin

/-- A usage at its path inside the declaration for which it counts. -/
structure Usage where
  path : FieldPath
  resource : String
  name : String
  origin : Origin

/-- Whether two usages say the same, wherever they came from. -/
def Usage.same (u v : Usage) : Bool :=
  u.path == v.path && u.resource == v.resource && u.name == v.name

namespace Declarations

/-- The usages recorded on a declaration itself. -/
def usagesOf (d : Declarations) (name : String) : List AttrUsage :=
  (d.resources.filter (·.name == name)).flatMap (·.attrUsages)
    ++ (d.outputs.filter (·.name == name)).flatMap (·.attrUsages)
    ++ ((d.forwardings.lookup name).map (·.attrUsages)).getD []

/-- The fields in which a declaration uses the value of another. -/
def fieldsOf (d : Declarations) (name : String) : List (String × String) :=
  ((d.forwardings.lookup name).map (·.fields)).getD []

def dependenciesOf (d : Declarations) (name : String) : List String :=
  (d.resources.filter (·.name == name)).flatMap (·.dependencies)

/-- Usages that have been found, and the declarations that have given theirs. -/
structure Found where
  visited : List String
  usages : List Usage

/-- Adds the usages of `name` and of what it leads to. They stand at `lead`, and each declaration
    gives its usages once. -/
def collect (d : Declarations) : (depth : Nat) → FieldPath → Origin → String → Found → Found
  | 0, _, _, _, found => found
  | depth + 1, lead, origin, name, found =>
    if found.visited.contains name then found
    else
      let own := (d.usagesOf name).map fun u => ⟨lead.join u.path, u.resource, u.name, origin⟩
      let found : Found := ⟨name :: found.visited, found.usages ++ own⟩
      let found := (d.fieldsOf name).foldl (fun found (field, target) =>
        d.collect depth (lead.join (.parse field)) origin.passedOn target found) found
      (d.dependenciesOf name).foldl (fun found next =>
        d.collect depth .root .transitive next found) found

/-- How many links lead from one declaration to another, which bounds the declarations that can be
    visited one inside the other. -/
def linkCount (d : Declarations) : Nat :=
  (d.forwardings.flatMap fun (_, f) => f.fields).length
    + (d.resources.flatMap fun r => r.dependencies).length

/-- The usages that count for `name`, by origin and without repetitions. -/
def resolve (d : Declarations) (name : String) : List Usage :=
  let found := d.collect (d.linkCount + 2) .root .own name ⟨[], []⟩
  let distinct := keepFirst Usage.same found.usages
  [Origin.own, .forwarded, .transitive].flatMap fun origin => distinct.filter (·.origin == origin)

end Declarations

namespace Usage

/-- The usage for an attribute that is read at `path`. One at the very path is best, then one at
    the path but for list positions, then one whose path is how the path ends; of several, the first.
    Where the attribute has no name, a usage of any attribute will do. -/
def find? (usages : List Usage) (path : FieldPath) (name : String) : Option Usage :=
  let candidates := usages.filter fun u => name.isEmpty || u.name == name
  let stripped := path.stripIndices
  candidates.find? (·.path == path)
    <|> candidates.find? (·.path.stripIndices == stripped)
    <|> candidates.find? (stripped.endsWith ·.path.stripIndices)

end Usage

end StackCompiler
