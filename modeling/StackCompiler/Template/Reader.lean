import StackCompiler.Json.Reader
import StackCompiler.Json.Writer
import StackCompiler.Template.Basic
import StackCompiler.Template.Error

/-!
Templates from documents. Every entry is checked as it is read, in the order of the
sections; at the end, dependencies and conditions must name what there is.
-/
namespace StackCompiler.Template

/-- A value inside the entry `owner` of a section. -/
def readValue (sectionName owner : String) (json : Json) : Except TemplateError Value :=
  match Value.decode Value.callLimit ((FieldPath.root.key sectionName).key owner) json with
  | .ok value => pure value
  | .error cause => throw (.intrinsic owner cause)

/-- The value of a member, where there is one. -/
def readOptionalValue (sectionName owner : String) : Option Json → Except TemplateError (Option Value)
  | none => pure none
  | some json => some <$> readValue sectionName owner json

/-- The members of an entry. -/
def entryMembers (sectionName name : String) : Json → Except TemplateError (List (String × Json))
  | .obj members => pure members
  | _ => throw (.defect (.entryShape sectionName name))

/-- A field that is text. Numbers and truth values count as the text that they are written as. -/
def textField (name : String) (body : List (String × Json)) (field : String) :
    Except TemplateError (Option String) :=
  match body.lookup field with
  | none => pure none
  | some .null => pure none
  | some (.str s) => pure (some s)
  | some (.num n) => pure (some (n.text .json))
  | some (.bool b) => pure (some (Json.bool b).compact)
  | some _ => throw (.defect (.fieldShape name field "a string"))

/-- A field that is a number, which text may spell. -/
def numberField (name : String) (body : List (String × Json)) (field : String) :
    Except TemplateError (Option Number) :=
  match body.lookup field with
  | none => pure none
  | some .null => pure none
  | some (.num n) => pure (some n)
  | some (.str s) =>
    match Json.parseNumber? s with
    | some n => pure (some n)
    | none => throw (.defect (.fieldShape name field "a number"))
  | some _ => throw (.defect (.fieldShape name field "a number"))

/-- A field that is a length: an integer from zero to below `2 ^ 32`. -/
def lengthField (name : String) (body : List (String × Json)) (field : String) :
    Except TemplateError (Option Nat) := do
  match ← numberField name body field with
  | none => return none
  | some (.int i) =>
    if 0 ≤ i && i < twoPow 32 then return some i.toNat
    else throw (.defect (.fieldShape name field "a non-negative integer"))
  | some (.float _) => throw (.defect (.fieldShape name field "a non-negative integer"))

/-! ### Entries -/

def readAllowedValues (name : String) : Option Json → Except TemplateError (List Value)
  | none => pure []
  | some (.arr items) => items.mapM (readValue "Parameters" name)
  | some _ => throw (.defect (.fieldShape name "AllowedValues" "a list"))

def readNoEcho (name : String) : Option Json → Except TemplateError Bool
  | none => pure false
  | some (.bool b) => pure b
  | some (.str s) => pure (Text.asciiLower s == "true")
  | some _ => throw (.defect (.fieldShape name "NoEcho" "a boolean"))

def readParameter (name : String) (json : Json) : Except TemplateError Parameter := do
  let body ← entryMembers "Parameters" name json
  let some type ← textField name body "Type" | throw (.defect (.noType "parameter" name))
  return {
    type := type,
    description := ← textField name body "Description",
    default := ← readOptionalValue "Parameters" name (body.lookup "Default"),
    allowedValues := ← readAllowedValues name (body.lookup "AllowedValues"),
    allowedPattern := ← textField name body "AllowedPattern",
    constraintDescription := ← textField name body "ConstraintDescription",
    minLength := ← lengthField name body "MinLength",
    maxLength := ← lengthField name body "MaxLength",
    minValue := ← numberField name body "MinValue",
    maxValue := ← numberField name body "MaxValue",
    noEcho := ← readNoEcho name (body.lookup "NoEcho") }

/-- A name or a list of names. -/
def readDependsOn (name : String) : Option Json → Except TemplateError (List String)
  | none => pure []
  | some .null => pure []
  | some (.str s) => pure [s]
  | some (.arr items) =>
    items.mapM fun
      | .str s => pure s
      | _ => throw (.defect (.dependsOnItems name))
  | some _ => throw (.defect (.fieldShape name "DependsOn" "a name or a list of names"))

/-- The type of a resource, which must not be empty. -/
def readResourceType (name : String) (body : List (String × Json)) : Except TemplateError String := do
  match ← textField name body "Type" with
  | some type => if type.isEmpty then throw (.defect (.noType "resource" name)) else return type
  | none => throw (.defect (.noType "resource" name))

def readResource (name : String) (json : Json) : Except TemplateError Resource := do
  let body ← entryMembers "Resources" name json
  return {
    type := ← readResourceType name body,
    properties := (← readOptionalValue "Resources" name (body.lookup "Properties")).getD .null,
    dependsOn := ← readDependsOn name (body.lookup "DependsOn"),
    condition := ← textField name body "Condition",
    deletionPolicy := ← textField name body "DeletionPolicy",
    updateReplacePolicy := ← textField name body "UpdateReplacePolicy",
    metadata := ← readOptionalValue "Resources" name (body.lookup "Metadata") }

def readExport (name : String) : Option Json → Except TemplateError (Option Value)
  | none => pure none
  | some .null => pure none
  | some (.obj members) =>
    match members.lookup "Name" with
    | some json => some <$> readValue "Outputs" name json
    | none => throw (.defect (.noExportName name))
  | some _ => throw (.defect (.fieldShape name "Export" "a mapping"))

def readOutput (name : String) (json : Json) : Except TemplateError Output := do
  let body ← entryMembers "Outputs" name json
  let some value := body.lookup "Value" | throw (.defect (.noValue name))
  let exportName ← readExport name (body.lookup "Export")
  return {
    description := ← textField name body "Description",
    value := ← readValue "Outputs" name value,
    exportName := exportName,
    condition := ← textField name body "Condition" }

/-! ### Documents -/

/-- The entries of a section, each under a valid name. -/
def readEntries {α : Type} (sectionName : String) (entry : String → Json → Except TemplateError α) :
    List (String × Json) → Except TemplateError (List (String × α))
  | [] => pure []
  | (name, json) :: rest =>
    match nameProblem? name with
    | some problem => throw (.invalidName name sectionName problem)
    | none => do
      let value ← entry name json
      return (name, value) :: (← readEntries sectionName entry rest)

def readSection {α : Type} (root : List (String × Json)) (sectionName : String)
    (entry : String → Json → Except TemplateError α) : Except TemplateError (List (String × α)) :=
  match root.lookup sectionName with
  | none => pure []
  | some .null => pure []
  | some (.obj members) => readEntries sectionName entry members
  | some _ => throw (.defect (.sectionShape sectionName))

/-- A field of the document itself that must be text. -/
def topText (root : List (String × Json)) (field : String) : Except TemplateError (Option String) :=
  match root.lookup field with
  | none => pure none
  | some (.str s) => pure (some s)
  | some _ => throw (.defect (.topFieldShape field))

/-- A condition that is named but is none of the template's. -/
def conditionDefect? (t : Template) (name : String) (condition : Option String) : Option Defect :=
  (condition.filter (! hasMember · t.conditions)).map (.undefinedCondition name)

/-- A dependency or a condition of a resource that the template does not have. -/
def resourceDefect? (t : Template) (name : String) (resource : Resource) : Option Defect :=
  (resource.dependsOn.find? (! hasMember · t.resources)).map (.undeclaredDependency name)
    <|> t.conditionDefect? name resource.condition

/-- The first dependency or condition that the template does not have. -/
def linkDefect? (t : Template) : Option Defect :=
  (t.resources.findSome? fun (name, resource) => t.resourceDefect? name resource)
    <|> t.outputs.findSome? fun (name, output) => t.conditionDefect? name output.condition

/-- The template that the members of a document are. -/
def ofMembers (root : List (String × Json)) : Except TemplateError Template := do
  let formatVersion ← topText root "AWSTemplateFormatVersion"
  let description ← topText root "Description"
  let transform ← readOptionalValue "Transform" "Transform" (root.lookup "Transform")
  let parameters ← readSection root "Parameters" readParameter
  let mappings ← readSection root "Mappings" (readValue "Mappings")
  let conditions ← readSection root "Conditions" (readValue "Conditions")
  if ! hasMember "Resources" root then throw (.defect .noResources)
  let resources ← readSection root "Resources" readResource
  let outputs ← readSection root "Outputs" readOutput
  let t : Template := {
    formatVersion := formatVersion.getD currentVersion,
    description := description,
    transform := transform,
    parameters := parameters,
    mappings := mappings,
    conditions := conditions,
    resources := resources,
    outputs := outputs }
  match t.linkDefect? with
  | some defect => throw (.defect defect)
  | none => return t

/-- The template that a document is. -/
def ofJson : Json → Except TemplateError Template
  | .obj members => ofMembers members
  | _ => throw (.defect .rootShape)

end StackCompiler.Template
