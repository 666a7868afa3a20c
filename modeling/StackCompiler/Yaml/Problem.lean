/-!
What can be wrong with a YAML document.
-/
namespace StackCompiler.Yaml

inductive Problem where
  /-- The text is no document, or one that cannot be represented. -/
  | syntaxFault
  /-- A mapping has a key that is a collection or has a tag. -/
  | keyShape
  | tooDeep (limit : Nat)
deriving DecidableEq

/-- What a report says. Of a text that is no document a reader of YAML says more, in words of its own;
    the text here only stands for them. -/
def Problem.message : Problem → String
  | syntaxFault => "invalid document"
  | keyShape => "mapping keys must be scalars"
  | tooDeep limit => "document nests deeper than " ++ toString limit ++ " levels"

end StackCompiler.Yaml
