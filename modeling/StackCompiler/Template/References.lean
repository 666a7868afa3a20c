import StackCompiler.Template.Implicit
import StackCompiler.Value.Reference

/-!
The references of a template: which of its parameters are used, and which references
lead nowhere.
-/
namespace StackCompiler.Template

/-- A reference and where it stands. -/
structure Reference where
  location : String
  target : String
deriving DecidableEq

def Reference.undefinedMessage (r : Reference) : String :=
  r.location ++ " refers to undefined '" ++ r.target ++ "'"

/-- The references of a value that stands at `location`. -/
def referencesIn (location : String) (value : Value) : List Reference :=
  (value.walk .root).flatMap fun (path, node) =>
    let place := if path.isRoot then location else location ++ "." ++ path.text
    node.ownReferences.map fun target => ⟨place, target⟩

/-- The values of a template in which references are looked for, with their locations. -/
def referringValues (t : Template) : List (String × Value) :=
  (t.resources.flatMap fun (name, resource) =>
    ("Resources." ++ name ++ ".Properties", resource.properties)
      :: (resource.metadata.map fun m => ("Resources." ++ name ++ ".Metadata", m)).toList)
    ++ t.conditions.map (fun (name, condition) => ("Conditions." ++ name, condition))
    ++ t.outputs.flatMap fun (name, output) =>
      ("Outputs." ++ name ++ ".Value", output.value)
        :: (output.exportName.map fun e => ("Outputs." ++ name ++ ".Export.Name", e)).toList

def references (t : Template) : List Reference :=
  t.referringValues.flatMap fun (location, value) => referencesIn location value

/-- The parameters that are referred to, in ascending order. -/
def referencedParameters (t : Template) : List String :=
  sortedNames ((t.references.map (·.target)).filter (hasMember · t.parameters))

/-- The references that lead nowhere, each once. -/
def undefinedReferences (t : Template) : List Reference :=
  keepFirst (· == ·) (t.references.filter (! t.isKnownTarget ·.target))

end StackCompiler.Template
