import StackCompiler.Import.Error
import StackCompiler.Rust.Identifier
import StackCompiler.Rust.NameTable
import StackCompiler.Template.Basic

/-!
The identifiers of a template's entries. Every entry has one of its own, and none is a
name that generated files import.
-/
namespace StackCompiler.Import

/-- Names that generated files import. -/
def reservedNames : List String :=
  ["Box", "Condition", "Default", "Export", "Expr", "LazyLock", "Mapping", "None", "Option",
   "Output", "Parameter", "RawResource", "ResourceMeta", "Some", "String", "Tag", "Vec"]

inductive EntryKind where
  | resource
  | parameter
  | mapping
  | condition
  | output
deriving DecidableEq

namespace EntryKind

/-- What is added to a name that an entry of another kind has taken. -/
def suffix : EntryKind → String
  | resource => "Resource"
  | parameter => "Parameter"
  | mapping => "Mapping"
  | condition => "Condition"
  | output => "Output"

/-- Resources and parameters are referred to in the same way and keep their names. -/
def isReferable : EntryKind → Bool
  | resource => true
  | parameter => true
  | _ => false

end EntryKind

/-- Steps that may take identifiers or fail. -/
abbrev Lowering (α : Type) := StateT Rust.NameTable (Except ImportError) α

/-- Takes `base` or, where it is taken, `base` with a number. -/
def freshIdent (base : String) : Lowering String := do
  let (ident, table) := (← get).derive base
  set table
  return ident

/-- Takes an identifier for an entry. -/
def claimIdent (kind : EntryKind) (logical : String) : Lowering String := do
  match Rust.declarationName? logical with
  | none => throw (.invalidIdentifier logical)
  | some base =>
    let taken := (← get).contains base
    freshIdent (if ! kind.isReferable && taken then base ++ kind.suffix else base)

/-- The identifiers of entries. -/
structure Identifiers where
  entries : List ((EntryKind × String) × String)

namespace Identifiers

def find? (ids : Identifiers) (kind : EntryKind) (logical : String) : Option String :=
  ids.entries.lookup (kind, logical)

def of (ids : Identifiers) (kind : EntryKind) (logical : String) : String :=
  (ids.find? kind logical).getD logical

/-- What a reference to `logical` goes through. A parameter comes before a resource of the same
    name. -/
def ofReference? (ids : Identifiers) (logical : String) : Option String :=
  ids.find? .parameter logical <|> ids.find? .resource logical

/-- What a reference to an attribute of `logical` goes through: only resources have attributes. -/
def ofAttribute? (ids : Identifiers) (logical : String) : Option String :=
  if (ids.find? .resource logical).isSome then ids.ofReference? logical else none

end Identifiers

/-- The entries of a template in the order in which they take identifiers. -/
def entriesOf (t : Template) : List (EntryKind × String) :=
  (memberNames t.resources).map (.resource, ·)
    ++ (memberNames t.parameters).map (.parameter, ·)
    ++ (memberNames t.mappings).map (.mapping, ·)
    ++ (memberNames t.conditions).map (.condition, ·)
    ++ (memberNames t.outputs).map (.output, ·)

def assignIdents (t : Template) : Lowering Identifiers := do
  let entries ← (entriesOf t).mapM fun (kind, logical) => do
    return ((kind, logical), ← claimIdent kind logical)
  return ⟨entries⟩

/-- The table in which only the reserved names are taken. -/
def reservedTable : Rust.NameTable :=
  reservedNames.foldl (fun table name => (table.claim name).2) .empty

end StackCompiler.Import
