import StackCompiler.Json.Writer
import StackCompiler.Template.Basic
import StackCompiler.Template.Error
import StackCompiler.Template.Format
import StackCompiler.Template.ShortForm
import StackCompiler.Yaml.Writer

/-!
The text of templates.
-/
namespace StackCompiler.Template

/-- A template over several lines of JSON. -/
def jsonText (t : Template) : String :=
  t.toJson.pretty ++ "\n"

/-- A template as YAML, with calls in their short form. -/
def yamlText (t : Template) : Except TemplateError String :=
  match (Yaml.Tree.ofJson t.toJson).text? with
  | some text => pure text
  | none => throw .unwritable

def emit (t : Template) : Format → Except TemplateError String
  | .json => pure t.jsonText
  | .yaml => t.yamlText

end StackCompiler.Template
