import StackCompiler.Import.Progress
import StackCompiler.Import.Property

/-!
The declarations of a template's entries.
-/
namespace StackCompiler.Import

open Rust (Expr)

/-- A field that is set only where there is a value for it. -/
def optionalField {α : Type} (name : String) (initialiser : α → Expr) :
    Option α → List (String × Expr)
  | some a => [(name, .some (initialiser a))]
  | none => []

/-- A field that is set only where there are items for it. -/
def listField {α : Type} (name : String) (initialiser : α → Expr) (items : List α) :
    List (String × Expr) :=
  if items.isEmpty then [] else [(name, .list (items.map initialiser))]

/-! ### Resources -/

def metaFields (r : Resource) : List (String × Expr) :=
  listField "depends_on" textLiteral r.dependsOn
    ++ optionalField "condition" textLiteral r.condition
    ++ optionalField "deletion_policy" textLiteral r.deletionPolicy
    ++ optionalField "update_replace_policy" textLiteral r.updateReplacePolicy
    ++ optionalField "metadata" (fun v : Value => .json v.toJson) r.metadata

/-- What a template says of a resource beside its properties, if anything. -/
def metaField (r : Resource) : List (String × Expr) :=
  match metaFields r with
  | [] => []
  | fields => [("meta", .struct "ResourceMeta" fields)]

/-- The placeholder for a resource whose type is not known. -/
def placeholder (ident reason : String) (r : Resource) : Static :=
  let properties :=
    if r.properties.isNull then [] else [("properties", Expr.json r.properties.toJson)]
  { Static.ofStruct ident "RawResource"
      (("resource_type", textLiteral r.type) :: properties ++ metaField r) (.category .misc) with
    comment := some reason }

/-- The fields for a resource's properties. Properties that are no object stay as they are. -/
def lowerProperties (scope : Scope) (type ident : String) :
    Value → Lowering (List (String × Expr) × List Static)
  | .null => pure ([], [])
  | .obj members => lowerFields scope { resource := type } ident members
  | other => pure ([("properties", .json other.toJson)], [])

/-- The declarations of a resource, its own first, and the stages through which it went. -/
def lowerResource (ids : Identifiers) (schema : Schema) (logical : String) (r : Resource) :
    Lowering (List Static × List Stage) := do
  let ident := ids.of .resource logical
  match (DeclaredType.ofCanonical? r.type).filter fun _ => schema.supports r.type with
  | none =>
    let reason := "unsupported resource type " ++ r.type
    return ([placeholder ident reason r], [.skipped reason])
  | some declared =>
    let home := Rust.fieldName declared.ns.short
    let group := FileGroup.category (Category.of r.type)
    let (fields, statics) ← lowerProperties ⟨ids, schema, group⟩ r.type ident r.properties
    let own := { Static.ofStruct ident (home ++ "::" ++ declared.kind) (fields ++ metaField r) group with
      docs := [r.type], home := some home }
    return (own :: statics, [.typeResolved, .valueFlattened])

/-! ### Other entries -/

def parameterStatic (ids : Identifiers) (logical : String) (p : Parameter) : Static :=
  let fields := [("param_type", textLiteral p.type)]
    ++ optionalField "description" textLiteral p.description
    ++ optionalField "default" (argument ids) p.default
    ++ listField "allowed_values" (argument ids) p.allowedValues
    ++ optionalField "allowed_pattern" textLiteral p.allowedPattern
    ++ optionalField "constraint_description" textLiteral p.constraintDescription
    ++ optionalField "min_length" (fun n : Nat => .literal (.nat n)) p.minLength
    ++ optionalField "max_length" (fun n : Nat => .literal (.nat n)) p.maxLength
    ++ optionalField "min_value" (fun n : Number => .literal (.num n)) p.minValue
    ++ optionalField "max_value" (fun n : Number => .literal (.num n)) p.maxValue
    ++ (if p.noEcho then [("no_echo", .literal (.bool true))] else [])
  { Static.ofStruct (ids.of .parameter logical) "Parameter" fields .params with
    docs := p.description.toList }

/-- A declaration of a value that a constructor function makes. -/
def constructed (ident type : String) (arg : Expr) : Static :=
  { ident := ident, type := type, body := .call (type ++ "::new") [arg], group := .params }

def mappingStatic (ids : Identifiers) (logical : String) (mapping : Value) : Static :=
  constructed (ids.of .mapping logical) "Mapping" (.json mapping.toJson)

def conditionStatic (ids : Identifiers) (logical : String) (condition : Value) : Static :=
  constructed (ids.of .condition logical) "Condition" (argument ids condition)

def outputStatic (ids : Identifiers) (logical : String) (o : Output) : Static :=
  let fields := optionalField "description" textLiteral o.description
    ++ [("value", argument ids o.value)]
    ++ optionalField "export" (fun name => .call "Export::new" [argument ids name]) o.exportName
    ++ optionalField "condition" textLiteral o.condition
  { Static.ofStruct (ids.of .output logical) "Output" fields .outputs with
    docs := o.description.toList }

/-! ### Templates -/

/-- The declarations of resources and how far each has come. -/
def lowerResources (ids : Identifiers) (schema : Schema) :
    List (String × Resource) → Progress → Lowering (List Static × Progress)
  | [], progress => pure ([], progress)
  | (logical, r) :: rest, progress => do
    let (statics, stages) ← lowerResource ids schema logical r
    let (others, progress) ← lowerResources ids schema rest (stages.foldl (·.advance logical) progress)
    return (statics ++ others, progress)

/-- The declarations of a template in the order in which they are written. -/
def lowerTemplate (schema : Schema) (t : Template) : Except ImportError (List Static × Progress) :=
  let steps : Lowering (List Static × Progress) := do
    let ids ← assignIdents t
    let (resources, progress) ←
      lowerResources ids schema t.resources (.start (memberNames t.resources))
    let others := t.parameters.map (fun (name, p) => parameterStatic ids name p)
      ++ t.mappings.map (fun (name, m) => mappingStatic ids name m)
      ++ t.conditions.map (fun (name, c) => conditionStatic ids name c)
      ++ t.outputs.map (fun (name, o) => outputStatic ids name o)
    return (resources ++ others, progress)
  (steps.run reservedTable).map (·.1)

end StackCompiler.Import
