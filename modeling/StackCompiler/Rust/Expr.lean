import StackCompiler.Json.Basic

/-!
Initialisers of generated declarations. A reference goes through another declaration
while it carries that one's identifier, and by name otherwise.
-/
namespace StackCompiler.Rust

inductive Expr where
  /-- Plain text: names, delimiters, templates. -/
  | str (s : String)
  /-- A scalar. -/
  | literal (scalar : Json)
  | list (items : List Expr)
  /-- A document of any form. -/
  | json (document : Json)
  /-- Another generated declaration. -/
  | static (ident : String)
  | ref (target : String) (ident : Option String)
  | attr (target name : String) (ident : Option String)
  | call (func : String) (args : List Expr)
  | pairs (fields : List (String × Expr))
  | some (inner : Expr)
  | struct (type : String) (fields : List (String × Expr))
deriving Inhabited

namespace Expr

mutual

/-- The declarations that an initialiser goes through, each with whether the reference may be made
    by name instead. -/
def directReferences : Expr → List (String × Bool)
  | .static ident => [(ident, false)]
  | .ref _ (Option.some ident) => [(ident, true)]
  | .attr _ _ (Option.some ident) => [(ident, true)]
  | .list items => itemReferences items
  | .call _ args => itemReferences args
  | .pairs fields => fieldReferences fields
  | .struct _ fields => fieldReferences fields
  | .some inner => inner.directReferences
  | .str _ => []
  | .literal _ => []
  | .json _ => []
  | .ref _ none => []
  | .attr _ _ none => []

def itemReferences : List Expr → List (String × Bool)
  | [] => []
  | item :: rest => item.directReferences ++ itemReferences rest

def fieldReferences : List (String × Expr) → List (String × Bool)
  | [] => []
  | (_, value) :: rest => value.directReferences ++ fieldReferences rest

end

/-- A reference's identifier, unless it is `ident`. -/
def cleared (ident : String) (slot : Option String) : Option String :=
  if slot = Option.some ident then none else slot

mutual

/-- Makes every reference through `ident` one by name. -/
def demote (ident : String) : Expr → Expr
  | .ref target slot => .ref target (cleared ident slot)
  | .attr target name slot => .attr target name (cleared ident slot)
  | .list items => .list (demoteItems ident items)
  | .call func args => .call func (demoteItems ident args)
  | .pairs fields => .pairs (demoteFields ident fields)
  | .struct type fields => .struct type (demoteFields ident fields)
  | .some inner => .some (inner.demote ident)
  | .str s => .str s
  | .literal scalar => .literal scalar
  | .json document => .json document
  | .static other => .static other

def demoteItems (ident : String) : List Expr → List Expr
  | [] => []
  | item :: rest => item.demote ident :: demoteItems ident rest

def demoteFields (ident : String) : List (String × Expr) → List (String × Expr)
  | [] => []
  | (name, value) :: rest => (name, value.demote ident) :: demoteFields ident rest

end

/-- How many references `demote` changes. -/
def demotions (ident : String) (e : Expr) : Nat :=
  e.directReferences.count (ident, true)

mutual

/-- Whether the source of an initialiser holds a JSON document. -/
def usesJson : Expr → Bool
  | .json _ => true
  | .literal .null => true
  | .list items => itemsUseJson items
  | .call _ args => itemsUseJson args
  | .pairs fields => fieldsUseJson fields
  | .struct _ fields => fieldsUseJson fields
  | .some inner => inner.usesJson
  | .str _ => false
  | .literal _ => false
  | .static _ => false
  | .ref _ _ => false
  | .attr _ _ _ => false

def itemsUseJson : List Expr → Bool
  | [] => false
  | item :: rest => item.usesJson || itemsUseJson rest

def fieldsUseJson : List (String × Expr) → Bool
  | [] => false
  | (_, value) :: rest => value.usesJson || fieldsUseJson rest

end

end Expr

end StackCompiler.Rust
