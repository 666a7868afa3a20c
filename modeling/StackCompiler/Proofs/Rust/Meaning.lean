import StackCompiler.Proofs.Members
import StackCompiler.Rust.Expr

/-!
What initialisers mean on the wire. A reference means the call that names its target, and
a call in source means what the function called builds of the meanings of its arguments
(`callMeaning`). A reference means the same through a declaration and by name, so making
references by name changes no meaning (`meaning_demote`).
-/
namespace StackCompiler.Rust

/-- A call on the wire: an object whose one member has the key of the function. -/
def wireCall (key : String) (args : Json) : Json :=
  .obj [(key, args)]

/-- What the function `func` of the library builds of arguments. Constructors of entries keep what
    they are given, and an export stands under its name. -/
def callMeaning (func : String) (args : List Json) : Option Json :=
  match func, args with
  | "sub", [template] => some (wireCall "Fn::Sub" template)
  | "sub_with", [template, bindings] => some (wireCall "Fn::Sub" (.arr [template, bindings]))
  | "join", [delimiter, values] => some (wireCall "Fn::Join" (.arr [delimiter, values]))
  | "select", [index, list] => some (wireCall "Fn::Select" (.arr [index, list]))
  | "if_", [condition, ifTrue, ifFalse] => some (wireCall "Fn::If" (.arr [condition, ifTrue, ifFalse]))
  | "equals", [left, right] => some (wireCall "Fn::Equals" (.arr [left, right]))
  | "and", [conditions] => some (wireCall "Fn::And" conditions)
  | "or", [conditions] => some (wireCall "Fn::Or" conditions)
  | "not", [operand] => some (wireCall "Fn::Not" (.arr [operand]))
  | "condition", [name] => some (wireCall "Condition" name)
  | "split", [delimiter, source] => some (wireCall "Fn::Split" (.arr [delimiter, source]))
  | "base64", [value] => some (wireCall "Fn::Base64" value)
  | "cidr", [ipBlock, count, cidrBits] => some (wireCall "Fn::Cidr" (.arr [ipBlock, count, cidrBits]))
  | "import_value", [name] => some (wireCall "Fn::ImportValue" name)
  | "find_in_map", [mapName, topKey, secondKey] =>
    some (wireCall "Fn::FindInMap" (.arr [mapName, topKey, secondKey]))
  | "transform", [name, parameters] =>
    some (wireCall "Fn::Transform" (.obj [("Name", name), ("Parameters", parameters)]))
  | "get_azs", [region] => some (wireCall "Fn::GetAZs" region)
  | "raw", [document] => some document
  | "Mapping::new", [mapping] => some mapping
  | "Condition::new", [condition] => some condition
  | "Export::new", [name] => some (.obj [("Name", name)])
  | _, _ => none

namespace Expr

mutual

/-- The document that an initialiser stands for. What goes through the declaration of a part has
    none of its own. -/
def meaning : Expr → Option Json
  | .str s => Option.some (.str s)
  | .literal scalar => Option.some scalar
  | .json document => Option.some document
  | .ref target _ => Option.some (wireCall "Ref" (.str target))
  | .attr target name _ => Option.some (wireCall "Fn::GetAtt" (.arr [.str target, .str name]))
  | .list items => (itemMeanings items).map .arr
  | .call func args => (itemMeanings args).bind (callMeaning func)
  | .pairs fields => (fieldMeanings fields).map .obj
  | .struct _ fields => (fieldMeanings fields).map .obj
  | .some inner => inner.meaning
  | .static _ => none

def itemMeanings : List Expr → Option (List Json)
  | [] => Option.some []
  | item :: rest => do return (← item.meaning) :: (← itemMeanings rest)

def fieldMeanings : List (String × Expr) → Option (List (String × Json))
  | [] => Option.some []
  | (name, value) :: rest => do return (name, ← value.meaning) :: (← fieldMeanings rest)

end

/-! ### References by name -/

mutual

theorem meaning_demote (ident : String) : (e : Expr) → (e.demote ident).meaning = e.meaning
  | .list items => by rw [demote, meaning, meaning, itemMeanings_demoteItems ident items]
  | .call _ args => by rw [demote, meaning, meaning, itemMeanings_demoteItems ident args]
  | .pairs fields => by rw [demote, meaning, meaning, fieldMeanings_demoteFields ident fields]
  | .struct _ fields => by rw [demote, meaning, meaning, fieldMeanings_demoteFields ident fields]
  | .some inner => by rw [demote, meaning, meaning, meaning_demote ident inner]
  | .ref _ _ | .attr _ _ _ | .str _ | .literal _ | .json _ | .static _ => rfl

theorem itemMeanings_demoteItems (ident : String) :
    (items : List Expr) → itemMeanings (demoteItems ident items) = itemMeanings items
  | [] => rfl
  | item :: rest => by
    rw [demoteItems, itemMeanings, itemMeanings, meaning_demote ident item, itemMeanings_demoteItems ident rest]

theorem fieldMeanings_demoteFields (ident : String) :
    (fields : List (String × Expr)) → fieldMeanings (demoteFields ident fields) = fieldMeanings fields
  | [] => rfl
  | (_, value) :: rest => by
    rw [demoteFields, fieldMeanings, fieldMeanings, meaning_demote ident value, fieldMeanings_demoteFields ident rest]

end

/-- Any number of references may be made by name. -/
theorem meaning_demoteAll (idents : List String) (e : Expr) :
    (idents.foldl (fun e ident => e.demote ident) e).meaning = e.meaning := by
  induction idents generalizing e with
  | nil => rfl
  | cons ident rest ih => rw [List.foldl_cons, ih, meaning_demote]

/-! ### Items and fields -/

section Each

variable {α : Type} {initialiser : α → Expr} {document : α → Json}

theorem itemMeanings_map {items : List α} (each : ∀ a ∈ items, (initialiser a).meaning = Option.some (document a)) :
    itemMeanings (items.map initialiser) = Option.some (items.map document) := by
  induction items with
  | nil => rfl
  | cons item rest ih =>
    rw [List.forall_mem_cons] at each
    simp [itemMeanings, each.1, ih each.2]

theorem fieldMeanings_mapEntries {entries : List (String × α)}
    (each : ∀ a ∈ entries.map (·.2), (initialiser a).meaning = Option.some (document a)) :
    fieldMeanings (mapEntries initialiser entries) = Option.some (mapEntries document entries) := by
  induction entries with
  | nil => rfl
  | cons entry rest ih =>
    rw [List.map_cons, List.forall_mem_cons] at each
    have later := ih each.2
    unfold mapEntries at later ⊢
    simp [fieldMeanings, each.1, later]

theorem meaning_struct {type : String} {fields : List (String × Expr)} {members : List (String × Json)}
    (means : fieldMeanings fields = Option.some members) : (struct type fields).meaning = Option.some (.obj members) := by
  rw [meaning, means]
  rfl

theorem fieldMeanings_append {fields others : List (String × Expr)} {members more : List (String × Json)}
    (first : fieldMeanings fields = Option.some members) (second : fieldMeanings others = Option.some more) :
    fieldMeanings (fields ++ others) = Option.some (members ++ more) := by
  induction fields generalizing members with
  | nil =>
    cases first
    exact second
  | cons field rest ih =>
    obtain ⟨name, value⟩ := field
    simp only [fieldMeanings, Option.bind_eq_bind, Option.bind_eq_some_iff, Option.pure_def, Option.some.injEq] at first
    obtain ⟨document, means, later, done, rfl⟩ := first
    simp [fieldMeanings, means, ih done]

end Each

end Expr

end StackCompiler.Rust
