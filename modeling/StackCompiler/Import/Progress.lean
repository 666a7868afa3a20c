/-!
How far each resource of a template has come. Stages only move forward, and the last
ones are never left.
-/
namespace StackCompiler.Import

inductive Stage where
  | unseen
  | typeResolved
  | valueFlattened
  | cyclesBroken
  | emitted
  /-- Only a placeholder without a type was made. -/
  | skipped (reason : String)
deriving DecidableEq

namespace Stage

def text : Stage → String
  | unseen => "unseen"
  | typeResolved => "type resolved"
  | valueFlattened => "value flattened"
  | cyclesBroken => "references rewritten"
  | emitted => "emitted"
  | skipped reason => "skipped (" ++ reason ++ ")"

def rank : Stage → Nat
  | unseen => 0
  | typeResolved => 1
  | valueFlattened => 2
  | cyclesBroken => 3
  | emitted => 4
  | skipped _ => 5

def isFinal : Stage → Bool
  | emitted => true
  | skipped _ => true
  | _ => false

/-- The stage after a move to `next`, which happens only if it leads forward. -/
def moved (current next : Stage) : Stage :=
  if current.isFinal || next.rank ≤ current.rank then current else next

end Stage

/-- The stage of every resource, in the order of the template. -/
structure Progress where
  stages : List (String × Stage)

namespace Progress

def start (names : List String) : Progress :=
  ⟨names.map (·, .unseen)⟩

/-- Moves the resource `name` to `next`. -/
def advance (p : Progress) (name : String) (next : Stage) : Progress :=
  ⟨p.stages.map fun (other, stage) =>
    if other = name then (other, stage.moved next) else (other, stage)⟩

/-- Moves every resource that is at `stage` to `next`. -/
def advanceAll (p : Progress) (stage next : Stage) : Progress :=
  ⟨p.stages.map fun (name, current) =>
    if current = stage then (name, current.moved next) else (name, current)⟩

/-- The resources that were skipped, with the reasons. -/
def skipped (p : Progress) : List (String × String) :=
  p.stages.filterMap fun (name, stage) =>
    match stage with
    | .skipped reason => some (name, reason)
    | _ => none

end Progress

end StackCompiler.Import
