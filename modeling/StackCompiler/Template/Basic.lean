import StackCompiler.Value.Encode

/-!
Templates: a document with sections of parameters, mappings, conditions, resources and
outputs, each a list of named entries in the order of the document.
-/
namespace StackCompiler

structure Parameter where
  type : String
  description : Option String := none
  default : Option Value := none
  allowedValues : List Value := []
  allowedPattern : Option String := none
  constraintDescription : Option String := none
  minLength : Option Nat := none
  maxLength : Option Nat := none
  minValue : Option Number := none
  maxValue : Option Number := none
  noEcho : Bool := false

structure Resource where
  type : String
  /-- Null where the resource has no properties. -/
  properties : Value
  dependsOn : List String := []
  condition : Option String := none
  deletionPolicy : Option String := none
  updateReplacePolicy : Option String := none
  metadata : Option Value := none

structure Output where
  description : Option String := none
  value : Value
  /-- The name under which other stacks see the output. -/
  exportName : Option Value := none
  condition : Option String := none

structure Template where
  formatVersion : String
  description : Option String := none
  /-- The name of a macro or a list of them. -/
  transform : Option Value := none
  parameters : List (String × Parameter) := []
  mappings : List (String × Value) := []
  conditions : List (String × Value) := []
  resources : List (String × Resource) := []
  outputs : List (String × Output) := []

namespace Template

/-- The one format version that there is. -/
def currentVersion : String := "2010-09-09"

/-- The transform that serverless resources need. -/
def serverlessTransform : String := "AWS::Serverless-2016-10-31"

def empty : Template := { formatVersion := currentVersion }

/-- Whether the serverless transform is applied. -/
def hasServerlessTransform (t : Template) : Bool :=
  match t.transform with
  | some (.str s) => s == serverlessTransform
  | some (.arr items) => items.any fun item => item.asStr? == some serverlessTransform
  | _ => false

end Template

/-! ### Documents -/

/-- A member that is written only where there is a value for it. -/
def optionalMember {α : Type} (name : String) (encode : α → Json) : Option α → List (String × Json)
  | some a => [(name, encode a)]
  | none => []

/-- A member that is written only where there are entries for it. -/
def listMember {α : Type} (name : String) (encode : List α → Json) (items : List α) :
    List (String × Json) :=
  if items.isEmpty then [] else [(name, encode items)]

/-- A section: every entry under its name. -/
def sectionJson {α : Type} (encode : α → Json) (entries : List (String × α)) : Json :=
  .obj (entries.map fun (name, entry) => (name, encode entry))

def Parameter.toJson (p : Parameter) : Json :=
  .obj ([("Type", .str p.type)]
    ++ optionalMember "Description" .str p.description
    ++ optionalMember "Default" Value.toJson p.default
    ++ listMember "AllowedValues" (fun values => .arr (values.map Value.toJson)) p.allowedValues
    ++ optionalMember "AllowedPattern" .str p.allowedPattern
    ++ optionalMember "ConstraintDescription" .str p.constraintDescription
    ++ optionalMember "MinLength" .nat p.minLength
    ++ optionalMember "MaxLength" .nat p.maxLength
    ++ optionalMember "MinValue" .num p.minValue
    ++ optionalMember "MaxValue" .num p.maxValue
    ++ (if p.noEcho then [("NoEcho", .bool true)] else []))

namespace Resource

/-- Whether there are properties to write. -/
def hasProperties (r : Resource) : Bool :=
  match r.properties with
  | .null => false
  | .obj members => ! members.isEmpty
  | _ => true

def toJson (r : Resource) : Json :=
  .obj ([("Type", .str r.type)]
    ++ optionalMember "Condition" .str r.condition
    ++ listMember "DependsOn" .strings r.dependsOn
    ++ (if r.hasProperties then [("Properties", r.properties.toJson)] else [])
    ++ optionalMember "DeletionPolicy" .str r.deletionPolicy
    ++ optionalMember "UpdateReplacePolicy" .str r.updateReplacePolicy
    ++ optionalMember "Metadata" Value.toJson r.metadata)

end Resource

def Output.toJson (o : Output) : Json :=
  .obj (optionalMember "Description" .str o.description
    ++ optionalMember "Condition" .str o.condition
    ++ [("Value", o.value.toJson)]
    ++ optionalMember "Export" (fun name => .obj [("Name", name.toJson)]) o.exportName)

/-- The document of a template. Sections have a fixed order, and of the empty ones only the
    resources are written. -/
def Template.toJson (t : Template) : Json :=
  .obj ([("AWSTemplateFormatVersion", .str t.formatVersion)]
    ++ optionalMember "Description" .str t.description
    ++ optionalMember "Transform" Value.toJson t.transform
    ++ listMember "Parameters" (sectionJson Parameter.toJson) t.parameters
    ++ listMember "Mappings" (sectionJson Value.toJson) t.mappings
    ++ listMember "Conditions" (sectionJson Value.toJson) t.conditions
    ++ [("Resources", sectionJson Resource.toJson t.resources)]
    ++ listMember "Outputs" (sectionJson Output.toJson) t.outputs)

end StackCompiler
