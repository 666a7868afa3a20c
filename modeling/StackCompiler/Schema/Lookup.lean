import StackCompiler.Members
import StackCompiler.Schema.Inferred
import StackCompiler.Schema.Specification

/-!
Where the shapes of properties come from: the values themselves or a specification.
-/
namespace StackCompiler

inductive Schema where
  | inferred
  | specified (specification : Specification)

/-- A property type that a specification uses and does not have. -/
structure MissingType where
  resource : String
  property : String
  type : String

def MissingType.message (m : MissingType) : String :=
  "property type '" ++ m.type ++ "' used by " ++ m.resource ++ " property '" ++ m.property
    ++ "' is not in the schema"

namespace Schema

/-- Whether anything is known of a resource type. -/
def supports (schema : Schema) (resource : String) : Bool :=
  match schema with
  | inferred => true
  | specified s => hasMember resource s.resourceTypes

/-- The shape of a property whose value is `value`. What a specification does not mention may have
    any form. -/
def shapeOf (schema : Schema) (context : TypeContext) (property : String) (value : Value) :
    Except MissingType Shape :=
  match schema with
  | inferred => pure (.infer property value)
  | specified s =>
    match s.property? context property with
    | none => pure .json
    | some p =>
      match Specification.neededType? p.shape with
      | none => pure p.shape
      | some type =>
        if (s.propertyType? context.resource type).isSome then pure p.shape
        else throw ⟨context.resource, property, type⟩

end Schema

end StackCompiler
