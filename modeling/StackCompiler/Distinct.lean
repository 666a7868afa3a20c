/-!
Lists without repetitions.
-/
namespace StackCompiler

/-- `name` in its place among names in ascending order; one that is there is not added again. -/
def insertName (name : String) : List String → List String
  | [] => [name]
  | other :: rest =>
    if name < other then name :: other :: rest
    else if name = other then other :: rest
    else other :: insertName name rest

/-- Names in ascending order, each once. -/
def sortedNames (names : List String) : List String :=
  names.foldl (fun sorted name => insertName name sorted) []

/-- The elements of a list without those that `same` says are there already. -/
def keepFirst {α : Type} (same : α → α → Bool) : List α → List α
  | [] => []
  | a :: rest => a :: (keepFirst same rest).filter (! same a ·)

end StackCompiler
