import StackCompiler.Json.Record
import StackCompiler.Schema.Shape

/-!
A published specification: the properties of resource types and of the property types
that they use.
-/
namespace StackCompiler

namespace Specification

structure Property where
  primitiveType : Option String := none
  primitiveItemType : Option String := none
  type : Option String := none
  itemType : Option String := none

structure TypeEntry where
  properties : List (String × Property) := []

end Specification

structure Specification where
  resourceTypes : List (String × Specification.TypeEntry) := []
  propertyTypes : List (String × Specification.TypeEntry) := []

namespace Specification

/-! ### Reading -/

open Json.Reader

def readProperty : Json.Reader Property :=
  record "PropertySpec" [
    unlistedField "PrimitiveType" (nullable text) fun primitiveType p => { p with primitiveType },
    unlistedField "PrimitiveItemType" (nullable text) fun primitiveItemType p =>
      { p with primitiveItemType },
    unlistedField "Type" (nullable text) fun type p => { p with type },
    unlistedField "ItemType" (nullable text) fun itemType p => { p with itemType }] {}

def readType : Json.Reader TypeEntry :=
  record "TypeSpec" [
    field "Properties" (mapOf readProperty) fun properties t => { t with properties }] {}

def reader : Json.Reader Specification :=
  record "SpecSchema" [
    field "ResourceTypes" (mapOf readType) fun resourceTypes s => { s with resourceTypes },
    field "PropertyTypes" (mapOf readType) fun propertyTypes s => { s with propertyTypes }] {}

def parse (text : String) : Except Json.Fault Specification :=
  Json.readWhole Json.standardRoom reader text

/-! ### Shapes -/

def primitiveShape : Option String → Shape
  | some "Json" => .json
  | _ => .scalar

def Property.itemShape (p : Property) : Shape :=
  match p.itemType with
  | some type => .nested type
  | none => primitiveShape p.primitiveItemType

def Property.shape (p : Property) : Shape :=
  match p.type with
  | some "List" => .list p.itemShape
  | some "Map" => .map p.itemShape
  | some type => .nested type
  | none => primitiveShape p.primitiveType

/-- The property type that a shape needs. -/
def neededType? : Shape → Option String
  | .nested type => some type
  | .list (.nested type) => some type
  | .map (.nested type) => some type
  | _ => none

/-- The entry of a property type: that of the resource type itself, or else a shared one. -/
def propertyType? (s : Specification) (resource type : String) : Option TypeEntry :=
  s.propertyTypes.lookup (resource ++ "." ++ type) <|> s.propertyTypes.lookup type

/-- The entry that declares the properties of a context. -/
def declaringType? (s : Specification) (context : TypeContext) : Option TypeEntry :=
  match context.nested with
  | none => s.resourceTypes.lookup context.resource
  | some type => s.propertyType? context.resource type

def property? (s : Specification) (context : TypeContext) (property : String) : Option Property :=
  (s.declaringType? context).bind (·.properties.lookup property)

end Specification

end StackCompiler
