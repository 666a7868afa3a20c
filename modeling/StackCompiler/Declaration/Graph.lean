import StackCompiler.Declaration.Basic
import StackCompiler.Distinct

/-!
Dependencies between names, and an order in which every name comes after those that it
depends on. Of the names that may come next, the least comes first. Dependencies on
names that are no nodes count for nothing.
-/
namespace StackCompiler

namespace DependencyGraph

structure Node where
  name : String
  location : Option Location
  /-- The names that this one depends on, in ascending order. -/
  needs : List String

end DependencyGraph

/-- Nodes in ascending order of their names. -/
structure DependencyGraph where
  nodes : List DependencyGraph.Node

namespace DependencyGraph

def empty : DependencyGraph := ⟨[]⟩

/-- Changes the node `name`, which is made where there is none. -/
def changeNode (name : String) (change : Node → Node) : List Node → List Node
  | [] => [change ⟨name, none, []⟩]
  | node :: rest =>
    if name < node.name then change ⟨name, none, []⟩ :: node :: rest
    else if name = node.name then change node :: rest
    else node :: changeNode name change rest

/-- Adds a node. One that is there keeps its dependencies, and its location unless one is given. -/
def addNode (g : DependencyGraph) (name : String) (location : Option Location) : DependencyGraph :=
  ⟨changeNode name (fun node => { node with location := location <|> node.location }) g.nodes⟩

/-- Adds that `source` depends on `target`. The source becomes a node, and the target does not. -/
def addEdge (g : DependencyGraph) (source target : String) : DependencyGraph :=
  ⟨changeNode source (fun node => { node with needs := insertName target node.needs }) g.nodes⟩

def size (g : DependencyGraph) : Nat :=
  g.nodes.length

def find? (g : DependencyGraph) (name : String) : Option Node :=
  g.nodes.find? (·.name == name)

def contains (g : DependencyGraph) (name : String) : Bool :=
  g.nodes.any (·.name == name)

/-- The nodes that a node depends on. -/
def needsOf (g : DependencyGraph) (name : String) : List String :=
  match g.find? name with
  | some node => node.needs.filter g.contains
  | none => []

/-- The nodes that depend on `name`. -/
def dependents (g : DependencyGraph) (name : String) : List String :=
  (g.nodes.filter (·.needs.contains name)).map (·.name)

/-! ### Ordering -/

/-- An order that is being made. -/
structure Progress where
  /-- For each node, how many of its dependencies are not placed yet. -/
  waiting : List (String × Nat)
  /-- Nodes that wait for nothing and are not placed, in ascending order. -/
  ready : List String
  /-- What has been placed, last name first. -/
  placed : List String

/-- One dependency of `name` has been placed. -/
def Progress.release (p : Progress) (name : String) : Progress :=
  match p.waiting.lookup name with
  | none => p
  | some count =>
    { p with
      waiting := p.waiting.map fun (other, n) => if other = name then (other, n - 1) else (other, n),
      ready := if count = 1 then insertName name p.ready else p.ready }

def start (g : DependencyGraph) : Progress :=
  let waiting := g.nodes.map fun node => (node.name, (node.needs.filter g.contains).length)
  ⟨waiting, (waiting.filter (·.2 == 0)).map (·.1), []⟩

/-- Places the least name that is ready, as often as there is one and at most `steps` times. -/
def place (g : DependencyGraph) : (steps : Nat) → Progress → Progress
  | 0, p => p
  | steps + 1, p =>
    match p.ready with
    | [] => p
    | name :: ready =>
      let p := { p with ready := ready, placed := name :: p.placed }
      g.place steps ((g.dependents name).foldl Progress.release p)

/-! ### Cycles -/

/-- Looks for a cycle through `name`, which hangs on the names of `stack`, innermost first. Gives
    the names from which no cycle can be reached, or else a cycle. -/
def search (g : DependencyGraph) (among : List String) :
    (depth : Nat) → (stack clear : List String) → String → Except (List String) (List String)
  | 0, _, clear, _ => pure clear
  | depth + 1, stack, clear, name => do
    let stack := name :: stack
    let clear ← ((g.needsOf name).filter among.contains).foldlM (fun clear next =>
      if stack.contains next then throw (stack.reverse.dropWhile (· != next))
      else if clear.contains next then pure clear
      else g.search among depth stack clear next) clear
    return name :: clear

/-- The first cycle among names of which each depends on another of them. -/
def findCycle (g : DependencyGraph) (among : List String) : List String :=
  let found := among.foldlM (fun clear name =>
    if clear.contains name then pure clear else g.search among (among.length + 1) [] clear name) []
  match found with
  | .error cycle => cycle
  | .ok _ => []

/-- A cycle of dependencies: each name depends on the next, and the last on the first. -/
structure Cycle where
  path : List (String × Option Location)
deriving DecidableEq

def Cycle.names (c : Cycle) : List String :=
  c.path.map (·.1)

def Cycle.message (c : Cycle) : String :=
  let parts := c.path.map fun (name, location) =>
    match location with
    | some l => name ++ " (" ++ l.text ++ ")"
    | none => name
  "dependency cycle detected: " ++ " -> ".intercalate (parts ++ (c.names.head?).toList)

/-- The nodes in order, or a cycle that stands in the way. -/
def order (g : DependencyGraph) : Except Cycle (List String) :=
  let done := g.place g.size g.start
  if done.placed.length = g.size then pure done.placed.reverse
  else
    let stuck := (done.waiting.filter (0 < ·.2)).map (·.1)
    throw ⟨(g.findCycle stuck).map fun name => (name, (g.find? name).bind (·.location))⟩

end DependencyGraph

end StackCompiler
