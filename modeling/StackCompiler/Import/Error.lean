import StackCompiler.Json.Fault
import StackCompiler.Schema.Lookup

/-!
Why no source can be generated from a template.
-/
namespace StackCompiler.Import

inductive ImportError where
  | invalidIdentifier (name : String)
  | missingType (missing : MissingType)
  /-- A specification at `path` cannot be read. -/
  | specification (path : String) (fault : Json.Fault)

namespace ImportError

def message : ImportError → String
  | invalidIdentifier name =>
    "logical name '" ++ name ++ "' has no characters usable in an identifier"
  | missingType missing => missing.message
  | specification path _ => "failed to parse schema '" ++ path ++ "'"

/-- The code under which the error is documented. -/
def code : ImportError → String
  | invalidIdentifier _ => "stratus::invalid_identifier"
  | missingType _ => "stratus::missing_nested_type"
  | specification .. => "stratus::schema"

/-- What may be done about it. -/
def help? : ImportError → Option String
  | missingType _ => some "the resource specification may be out of date"
  | _ => none

end ImportError

/-- The schema of a specification's text. -/
def schemaOf (path text : String) : Except ImportError Schema :=
  match Specification.parse text with
  | .ok specification => pure (.specified specification)
  | .error fault => throw (.specification path fault)

end StackCompiler.Import
