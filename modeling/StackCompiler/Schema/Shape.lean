/-!
Shapes of property values, which decide how a value is written in source.
-/
namespace StackCompiler

inductive Shape where
  /-- Text, a number, a truth value or a time. -/
  | scalar
  /-- A document of any form. -/
  | json
  /-- A property type of the enclosing resource type. -/
  | nested (type : String)
  | list (item : Shape)
  | map (item : Shape)
deriving DecidableEq

namespace Shape

def isList : Shape → Bool
  | list _ => true
  | _ => false

/-- How many lists are around the shape that is no list. -/
def listDepth : Shape → Nat
  | list item => item.listDepth + 1
  | _ => 0

/-- The shape inside all lists. -/
def core : Shape → Shape
  | list item => item.core
  | shape => shape

end Shape

/-- Where a property is declared: on a resource type or on one of its property types. -/
structure TypeContext where
  resource : String
  nested : Option String := none

/-- The context of the properties of a property type. -/
def TypeContext.inside (context : TypeContext) (type : String) : TypeContext :=
  { context with nested := some type }

end StackCompiler
