import StackCompiler.Json.Fault
import StackCompiler.Template.Name
import StackCompiler.Template.SourceText
import StackCompiler.Value.Decode
import StackCompiler.Yaml.Problem

/-!
What can be wrong with a template.
-/
namespace StackCompiler

/-- A document that is no template. -/
inductive Defect where
  | rootShape
  | topFieldShape (field : String)
  | noResources
  | sectionShape (sectionName : String)
  | entryShape (sectionName name : String)
  | noType (kind name : String)
  | fieldShape (name field expected : String)
  | dependsOnItems (name : String)
  | noValue (name : String)
  | noExportName (name : String)
  | undeclaredDependency (name target : String)
  | undefinedCondition (name condition : String)
deriving DecidableEq

namespace Defect

def message : Defect → String
  | rootShape => "template root must be a mapping"
  | topFieldShape field => field ++ " must be a string"
  | noResources => "template has no Resources section"
  | sectionShape sectionName => sectionName ++ " must be a mapping"
  | entryShape sectionName name => sectionName ++ " entry '" ++ name ++ "' must be a mapping"
  | noType kind name => kind ++ " '" ++ name ++ "' has no Type"
  | fieldShape name field expected => name ++ "." ++ field ++ " must be " ++ expected
  | dependsOnItems name => name ++ ".DependsOn must list names"
  | noValue name => "output '" ++ name ++ "' has no Value"
  | noExportName name => name ++ ".Export has no Name"
  | undeclaredDependency name target =>
    "resource '" ++ name ++ "' depends on undeclared resource '" ++ target ++ "'"
  | undefinedCondition name condition =>
    "'" ++ name ++ "' uses undefined condition '" ++ condition ++ "'"

/-- The name at which a report points. -/
def owner? : Defect → Option String
  | rootShape => none
  | topFieldShape _ => none
  | noResources => none
  | sectionShape sectionName => some sectionName
  | entryShape _ name => some name
  | noType _ name => some name
  | fieldShape name _ _ => some name
  | dependsOnItems name => some name
  | noValue name => some name
  | noExportName name => some name
  | undeclaredDependency name _ => some name
  | undefinedCondition name _ => some name

end Defect

inductive TemplateError where
  | json (fault : Json.Fault)
  | yaml (problem : Yaml.Problem)
  | defect (defect : Defect)
  | invalidName (name sectionName : String) (problem : NameProblem)
  | intrinsic (owner : String) (cause : DecodeError)
  | unwritable
deriving DecidableEq

namespace TemplateError

def message : TemplateError → String
  | json fault => "failed to parse template as JSON: " ++ fault.message
  | yaml problem => "failed to parse template as YAML: " ++ problem.message
  | defect d => d.message
  | invalidName name sectionName _ =>
    "invalid logical name '" ++ name ++ "' in " ++ sectionName
  | intrinsic owner _ => "invalid intrinsic function in '" ++ owner ++ "'"
  | unwritable => "failed to write template as YAML"

/-- The code under which the error is documented. -/
def code : TemplateError → String
  | json _ => "stratus::parse_error"
  | yaml _ => "stratus::parse_error"
  | defect _ => "stratus::invalid_template"
  | invalidName .. => "stratus::invalid_name"
  | intrinsic .. => "stratus::intrinsic"
  | unwritable => "stratus::emit"

/-- What may be done about it. -/
def help? : TemplateError → Option String
  | invalidName _ _ problem =>
    some (problem.message ++ "; logical names must be non-empty and alphanumeric")
  | _ => none

/-- The part of the source at which a report points. Where a text is no YAML document, that is the byte
    `stopped` at which its reader says that it gave up, if it says so: which byte that is, is not
    computed here. -/
def span? (source : String) (e : TemplateError) (stopped : Option Nat := none) : Option Span :=
  match e with
  | json fault => some ⟨SourceText.offsetOf source fault.place.line fault.place.column, 0⟩
  | yaml .syntaxFault => stopped.map (⟨·, 0⟩)
  | yaml _ => none
  | defect d => d.owner?.bind (SourceText.keySpan? source)
  | invalidName name _ _ => SourceText.keySpan? source name
  | intrinsic owner _ => SourceText.keySpan? source owner
  | unwritable => none

end TemplateError

end StackCompiler
