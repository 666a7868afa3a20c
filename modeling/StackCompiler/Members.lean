/-!
Members of an object: names with their values, in the order in which the names
first came. Reading uses `List.lookup`.
-/
namespace StackCompiler

variable {α : Type}

/-- Gives `name` the value `value`: in place where the name is there, else at the end. -/
def putMember (name : String) (value : α) : List (String × α) → List (String × α)
  | [] => [(name, value)]
  | (other, old) :: rest =>
    if other = name then (name, value) :: rest else (other, old) :: putMember name value rest

/-- The members after putting each of `entries` in turn: a repeated name keeps its first place
    and its last value. -/
def collectMembers (entries : List (String × α)) : List (String × α) :=
  entries.foldl (fun members (name, value) => putMember name value members) []

def hasMember (name : String) (members : List (String × α)) : Bool :=
  members.any (·.1 == name)

def memberNames (members : List (String × α)) : List String :=
  members.map (·.1)

end StackCompiler
