import StackCompiler.Text.Case

/-!
The formats in which documents are written.
-/
namespace StackCompiler

inductive Format where
  | json
  | yaml
deriving DecidableEq

namespace Format

def name : Format → String
  | json => "json"
  | yaml => "yaml"

/-- The format that a word names, in whatever case. -/
def ofName? (word : String) : Option Format :=
  match Text.asciiLower word with
  | "json" => some json
  | "yaml" => some yaml
  | "yml" => some yaml
  | _ => none

/-- What to say of a word that names no format. -/
def unknownMessage (word : String) : String :=
  "unknown format '" ++ Text.asciiLower word ++ "', expected json or yaml"

end Format

end StackCompiler
