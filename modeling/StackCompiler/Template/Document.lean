import StackCompiler.Template.Format
import StackCompiler.Template.Reader
import StackCompiler.Template.ShortForm
import StackCompiler.Text.Blank
import StackCompiler.Yaml.Reader

/-!
Templates from text, which may be JSON or YAML.
-/
namespace StackCompiler.Template

/-- Whether a text that is no document at all is taken for JSON. -/
def looksLikeJson (text : String) : Bool :=
  (Text.trimStart text.toList).head? == some '\x7b'

/-- The document of a text and its format. JSON is tried first. -/
def readDocument (text : String) : Except TemplateError (Json × Format) :=
  match Json.parse text with
  | .ok json => pure (json, .json)
  | .error fault =>
    match Yaml.parse? text with
    | some tree =>
      match tree.toJson with
      | .ok json => pure (json, .yaml)
      | .error problem => throw (.yaml problem)
    | none => throw (if looksLikeJson text then .json fault else .yaml .syntaxFault)

/-- The template of a text and its format. -/
def parse (text : String) : Except TemplateError (Template × Format) := do
  let (json, format) ← readDocument text
  return (← ofJson json, format)

end StackCompiler.Template
