import StackCompiler.Declaration.Graph
import StackCompiler.Template.Name

/-!
Why no template can be built from declarations.
-/
namespace StackCompiler

inductive BuildError where
  | cycle (cycle : DependencyGraph.Cycle)
  | unknownType (name type : String) (location : Option Location)
  | invalidName (name sectionName : String) (problem : NameProblem) (location : Option Location)
  | duplicateName (name first second : String) (location : Option Location)
  | unresolvedReference (name : String) (path : FieldPath) (attrName : String)
  | serialization (name reason : String)
deriving DecidableEq

namespace BuildError

/-- A location at the end of a message. -/
def at? : Option Location → String
  | some l => " at " ++ l.text
  | none => ""

def message : BuildError → String
  | cycle c => c.message
  | unknownType name type location =>
    "unknown resource type '" ++ type ++ "' for '" ++ name ++ "'" ++ at? location
  | invalidName name sectionName problem location =>
    "invalid logical name '" ++ name ++ "' in " ++ sectionName ++ ": " ++ problem.message
      ++ at? location
  | duplicateName name first second location =>
    "logical name '" ++ name ++ "' is declared in both " ++ first ++ " and " ++ second
      ++ at? location
  | unresolvedReference name path attrName =>
    "unresolved attribute reference '" ++ attrName ++ "' at '" ++ path.text ++ "' in '" ++ name
      ++ "'"
  | serialization name reason => "cannot serialize '" ++ name ++ "': " ++ reason

/-- The code under which the error is documented. -/
def code : BuildError → String
  | cycle _ => "stratus::cycle"
  | unknownType .. => "stratus::unknown_type"
  | invalidName .. => "stratus::invalid_name"
  | duplicateName .. => "stratus::duplicate_name"
  | unresolvedReference .. => "stratus::unresolved_reference"
  | serialization .. => "stratus::serialization"

/-- What may be done about it. -/
def help? : BuildError → Option String
  | cycle _ =>
    some "break the cycle by removing a reference or using an explicit attribute reference"
  | unknownType .. => some "declared types are written '<namespace>.<Kind>', e.g. 's3.Bucket'"
  | invalidName .. => some "logical names must be non-empty and ASCII alphanumeric"
  | duplicateName .. =>
    some "logical names are shared by every template section and must be unique"
  | unresolvedReference .. =>
    some "the declaration graph has no recorded usage for this field"
  | serialization .. => none

end BuildError

end StackCompiler
