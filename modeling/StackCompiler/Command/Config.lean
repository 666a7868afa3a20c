import StackCompiler.Template.Format
import StackCompiler.Toml.Reader

/-!
Defaults for a project. A document with an entry that is not known, or with one of
another type, is refused as a whole.
-/
namespace StackCompiler.Command

structure BuildDefaults where
  format : Option Format := none
  output : Option String := none

structure ImportDefaults where
  output : Option String := none
  schema : Option String := none
  package : Option String := none

structure Config where
  build : BuildDefaults := {}
  importing : ImportDefaults := {}

namespace Config

/-- Where defaults are looked for unless a path is given. -/
def standardPath : String := "stratus.toml"

/-- The values of the fields `names`: of a table that has no other entries, or of a list that has
    at least as many items. -/
def fieldsOf? (names : List String) (t : Toml) : Option (String → Option Toml) :=
  match t.items?, t.entries? with
  | some items, _ =>
    if names.length ≤ items.length then some fun name => (names.zip items).lookup name else none
  | none, some entries =>
    if entries.all fun (name, _) => names.contains name then some fun name => entries.lookup name else none
  | none, none => none

/-- An optional field that `read?` must accept where it is given. -/
def optionalField? {α : Type} (read? : Toml → Option α) (field : Option Toml) : Option (Option α) :=
  match field with
  | some t => (read? t).map some
  | none => some none

def text? : Toml → Option String
  | .text s => some s
  | _ => none

def isEmptyPart (t : Toml) : Bool :=
  (t.items?.any (·.isEmpty)) || (t.entries?.any (·.isEmpty))

/-- A format by its exact name, which may also be the one entry of a table. -/
def format? (t : Toml) : Option Format :=
  match t with
  | .text s => [Format.json, .yaml].find? (·.name == s)
  | t =>
    match t.entries? with
    | some [(name, part)] =>
      if isEmptyPart part then [Format.json, .yaml].find? (·.name == name) else none
    | _ => none

def buildDefaults? (t : Toml) : Option BuildDefaults := do
  let field ← fieldsOf? ["format", "output"] t
  return { format := ← optionalField? format? (field "format"),
           output := ← optionalField? text? (field "output") }

def importDefaults? (t : Toml) : Option ImportDefaults := do
  let field ← fieldsOf? ["output", "schema", "package"] t
  return { output := ← optionalField? text? (field "output"),
           schema := ← optionalField? text? (field "schema"),
           package := ← optionalField? text? (field "package") }

/-- The defaults that a text states. -/
def parse? (text : String) : Option Config := do
  let entries ← Toml.parse? text
  let field ← fieldsOf? ["build", "import"] (.table .header entries)
  let build ← optionalField? buildDefaults? (field "build")
  let importing ← optionalField? importDefaults? (field "import")
  return { build := build.getD {}, importing := importing.getD {} }

end Config

end StackCompiler.Command
