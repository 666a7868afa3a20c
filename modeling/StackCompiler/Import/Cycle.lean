import StackCompiler.Distinct
import StackCompiler.Import.Static

/-!
Cycles of initialisation. A declaration is made when one that goes through it is made,
so declarations must not go through each other in a circle. A walk through all of them
finds the references that lead back to where it came from, and makes these by name.
-/
namespace StackCompiler.Import

/-- A reference from one declaration to another that is made by name. -/
structure BrokenEdge where
  source : String
  target : String
deriving DecidableEq

/-- The declarations that one goes through, each once, and whether it may do so by name. -/
def edgesOf (statics : List Static) (ident : String) : List (String × Bool) :=
  match statics.find? (·.ident == ident) with
  | none => []
  | some s =>
    (keepFirst (·.1 == ·.1) s.body.directReferences).filter fun (target, _) =>
      statics.any (·.ident == target)

/-- A walk: the declarations that are done with, and the references that led back. -/
structure BackWalk where
  done : List String
  broken : List BrokenEdge
  /-- References that led back and cannot be made by name. -/
  stuck : List BrokenEdge

/-- Goes on with `ident`, unless the walk is done with it. -/
def BackWalk.visit (next : String → BackWalk → BackWalk) (w : BackWalk) (ident : String) : BackWalk :=
  if w.done.contains ident then w else next ident w

/-- Follows a reference of `ident`. One that leads back to `stack` is made by name if it may be. -/
def BackWalk.follow (next : String → BackWalk → BackWalk) (stack : List String) (ident : String)
    (w : BackWalk) : String × Bool → BackWalk
  | (target, byName) =>
    if stack.contains target then
      if byName then { w with broken := w.broken ++ [⟨ident, target⟩] }
      else { w with stuck := w.stuck ++ [⟨ident, target⟩] }
    else w.visit next target

/-- Walks from `ident`, which was reached through `stack`, innermost first. -/
def walkFrom (edges : String → List (String × Bool)) :
    (depth : Nat) → (stack : List String) → String → BackWalk → BackWalk
  | 0, _, _, w => w
  | depth + 1, stack, ident, w =>
    let stack := ident :: stack
    let w := (edges ident).foldl (·.follow (walkFrom edges depth stack) stack ident ·) w
    { w with done := ident :: w.done }

/-- Where walks start: at the entries of the template first. -/
def walkStarts (statics : List Static) : List String :=
  ((statics.filter (·.topLevel)) ++ statics.filter (! ·.topLevel)).map (·.ident)

/-- The walk through all declarations. -/
def walk (statics : List Static) : BackWalk :=
  (walkStarts statics).foldl (·.visit (walkFrom (edgesOf statics) (statics.length + 1) []) ·) ⟨[], [], []⟩

/-- Makes the references of `broken` by name. -/
def Static.demoteEdges (broken : List BrokenEdge) (s : Static) : Static :=
  { s with
    body := (broken.filter (·.source == s.ident)).foldl (fun body edge => body.demote edge.target)
      s.body }

/-- The declarations without cycles, and the references that are now by name. -/
def breakCycles (statics : List Static) : List Static × List BrokenEdge :=
  let broken := (walk statics).broken
  (statics.map (Static.demoteEdges broken), broken)

end StackCompiler.Import
