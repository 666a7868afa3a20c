import StackCompiler.Text.Case

/-!
Logical names: what the entries of a template's sections may be called.
-/
namespace StackCompiler

inductive NameProblem where
  | empty
  | punctuation
deriving DecidableEq

def NameProblem.message : NameProblem → String
  | empty => "name is empty"
  | punctuation => "name contains punctuation or spaces"

/-- What is wrong with a logical name: it must be ASCII letters and digits, and at least one. -/
def nameProblem? (name : String) : Option NameProblem :=
  if name.isEmpty then some .empty
  else if name.toList.all Text.isAsciiAlphanumeric then none
  else some .punctuation

end StackCompiler
