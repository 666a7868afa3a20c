import StackCompiler.Yaml.Tag

/-!
The tokens of a YAML text. Indentation has become tokens for the start and end of
blocks, and a key that stands before its colon has a token before it.
-/
namespace StackCompiler.Yaml

inductive Token where
  | versionDirective (major minor : Nat)
  | tagDirective (handle : String) (meaning : Tag)
  | documentStart
  | documentEnd
  | blockSequence
  | blockMapping
  | blockEnd
  | flowSequence
  | flowSequenceEnd
  | flowMapping
  | flowMappingEnd
  | blockEntry
  | flowEntry
  | key
  | value
  | alias (name : String)
  | anchor (name : String)
  | tag (handle : String) (rest : Tag)
  | scalar (text : String) (plain : Bool)
deriving DecidableEq

end StackCompiler.Yaml
