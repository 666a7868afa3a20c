import StackCompiler.Proofs.Import.Initialisers
import StackCompiler.Proofs.Outcome

/-!
Lowering step by step. An initialiser is either made at once (`Leaf`) or put together from those of
the parts of a value, in one of a few ways. What each of these keeps (`Steps`) holds of all that is
lowered (`Steps.value_ends`, `Steps.fields_ends`), and nothing fails unless a specification lacks a
type.
-/
namespace StackCompiler.Import

open Rust (Expr NameTable)

/-! ### How steps end -/

section Ends

variable {α β : Type} {before : NameTable}

@[simp] theorem run_pure_eq_ok (a : α) (result : α × NameTable) :
    (pure a : Lowering α).run before = .ok result ↔ (a, before) = result :=
  pure_eq_ok (a, before) result

@[simp] theorem run_throw_ne_ok (e : ImportError) (result : α × NameTable) :
    (throw e : Lowering α).run before ≠ .ok result :=
  throw_ne_ok e result

@[simp] theorem run_bind_eq_ok (x : Lowering α) (f : α → Lowering β) (result : β × NameTable) :
    (x >>= f).run before = .ok result ↔
      ∃ a mid, x.run before = .ok (a, mid) ∧ (f a).run mid = .ok result := by
  rw [StateT.run_bind, bind_eq_ok, Prod.exists]

/-- Where the names of `before` are taken, `x` gives something with `P`, unless it fails, for which
    there must be a reason. -/
def Ends (failing : Prop) (before : NameTable) (P : α → NameTable → Prop) (x : Lowering α) : Prop :=
  (∃ a after, x.run before = .ok (a, after) ∧ P a after) ∨ failing ∧ ∃ e, x.run before = .error e

namespace Ends

variable {failing : Prop} {P : α → NameTable → Prop} {Q : β → NameTable → Prop} {x : Lowering α}

theorem pure {a : α} (holds : P a before) : Ends failing before P (pure a) := .inl ⟨a, before, rfl, holds⟩

theorem throw (reason : failing) (e : ImportError) : Ends failing before P (throw e) := .inr ⟨reason, e, rfl⟩

theorem mono {R : α → NameTable → Prop} (ends : Ends failing before P x) (implies : ∀ a after, P a after → R a after) :
    Ends failing before R x :=
  ends.imp_left fun ⟨a, after, done, holds⟩ => ⟨a, after, done, implies a after holds⟩

theorem bind {f : α → Lowering β} (first : Ends failing before P x) (next : ∀ a mid, P a mid → Ends failing mid Q (f a)) :
    Ends failing before Q (x >>= f) := by
  rw [Ends, StateT.run_bind]
  rcases first with ⟨a, mid, done, holds⟩ | ⟨reason, e, failed⟩
  · rw [done]
    exact next a mid holds
  · exact .inr ⟨reason, e, by rw [failed]; rfl⟩

theorem freshIdent (base : String) :
    Ends failing before (fun ident after => before.derive base = (ident, after)) (freshIdent base) :=
  .inl ⟨_, _, rfl, rfl⟩

/-- What is given has `P`. -/
theorem of_run (ends : Ends failing before P x) {a : α} {after : NameTable} (done : x.run before = .ok (a, after)) :
    P a after := by
  rcases ends with ⟨b, mid, also, holds⟩ | ⟨-, e, failed⟩
  · obtain ⟨rfl, rfl⟩ : b = a ∧ mid = after := by simpa [done] using also.symm
    exact holds
  · rw [failed] at done
    cases done

end Ends

end Ends

/-! ### Places -/

/-- A place in a resource: a property and the shape that is expected there, if one is. -/
structure Place where
  context : TypeContext
  property : String
  expected : Option Shape := none

namespace Place

/-- The place of what stands in a list whose items have the shape `item`. -/
def holding (place : Place) (item : Shape) : Place :=
  { place with expected := some item }

/-- The shape of a value at a place, which the schema says unless one is expected. -/
def shapeOf (schema : Schema) (place : Place) (v : Value) : Except MissingType Shape :=
  match place.expected with
  | some shape => .ok shape
  | none => schema.shapeOf place.context place.property v

end Place

/-- The place at which a value is lowered. -/
def Spot.place (spot : Spot) (expected : Option Shape) : Place :=
  ⟨spot.context, spot.property, expected⟩

/-- Finding the shape of a value takes no names, and fails only where a specification lacks a type. -/
theorem shapeAt_ends (scope : Scope) (spot : Spot) (expected : Option Shape) (v : Value) (before : NameTable) :
    Ends (scope.schema ≠ .inferred) before
      (fun shape after => before = after ∧ (spot.place expected).shapeOf scope.schema v = .ok shape)
      (shapeAt scope spot expected v) := by
  unfold shapeAt
  cases expected with
  | some shape => exact .pure ⟨rfl, rfl⟩
  | none =>
    cases found : scope.schema.shapeOf spot.context spot.property v with
    | ok shape => exact .pure ⟨rfl, found⟩
    | error missing =>
      -- A guess finds a shape for every value.
      have specified : scope.schema ≠ .inferred := fun inferred => by
        rw [inferred] at found
        cases found
      exact .throw specified _

/-! ### Steps -/

def IsScalar : Value → Prop
  | .null | .bool _ | .num _ | .str _ => True
  | .arr _ | .obj _ | .fn _ => False

/-- An initialiser that is made for a value at once. -/
inductive Leaf (scope : Scope) (place : Place) : Value → Expr → Prop
  | choice {condition : String} {ifTrue ifFalse : Value} (document : place.expected = some .json) :
      Leaf scope place (.fn (.cond condition ifTrue ifFalse)) (.json (Value.fn (.cond condition ifTrue ifFalse)).toJson)
  | call {call : Intrinsic Value} {shape : Shape} (noChoice : ∀ condition ifTrue ifFalse, call ≠ .cond condition ifTrue ifFalse)
      (shaped : place.shapeOf scope.schema (.fn call) = .ok shape) :
      Leaf scope place (.fn call) (shapedCall scope.ids shape call)
  | array {items : List Value} {shape : Shape} (noList : ∀ item, shape ≠ .list item)
      (shaped : place.shapeOf scope.schema (.arr items) = .ok shape) :
      Leaf scope place (.arr items) (.json (Value.arr items).toJson)
  | object {members : List (String × Value)} {shape : Shape} (untyped : ∀ type, shape.core ≠ .nested type)
      (shaped : place.shapeOf scope.schema (.obj members) = .ok shape) :
      Leaf scope place (.obj members) (inLists shape.listDepth (.json (Value.obj members).toJson))
  | scalar {v : Value} {shape : Shape} (isScalar : IsScalar v) (shaped : place.shapeOf scope.schema v = .ok shape) :
      Leaf scope place v (scalarExpr shape v)

theorem Leaf.initial {scope : Scope} {place : Place} {v : Value} {e : Expr} (leaf : Leaf scope place v e) :
    Initial scope.ids e := by
  cases leaf with
  | choice | array => exact initial_json _
  | object => exact initial_inLists (initial_json _) _
  | call => exact initial_shapedCall _ _
  | scalar => exact initial_scalarExpr _ _

/-- What may be said of all that is made for a value: of where it stands, of the names that are taken
    before, of the initialiser and the declarations, and of the names that are taken after. -/
abbrev OfValue := Spot → Option Shape → Value → NameTable → Expr → List Static → NameTable → Prop

/-- The same for the items of a list. -/
abbrev OfItems := Spot → Shape → List Value → NameTable → List Expr → List Static → NameTable → Prop

/-- The same for the members of an object. -/
abbrev OfFields :=
  TypeContext → String → List (String × Value) → NameTable → List (String × Expr) → List Static → NameTable → Prop

/-- Every step of lowering keeps what is said. -/
structure Steps (scope : Scope) (value : OfValue) (items : OfItems) (fields : OfFields) : Prop where
  leaf {spot expected v e} (leaf : Leaf scope (spot.place expected) v e) (table : NameTable) :
    value spot expected v table e [] table
  /-- The branches of a choice one after the other. -/
  choice {spot expected condition ifTrue ifFalse before whenTrue forTrue mid whenFalse forFalse after}
    (noDocument : (spot.place expected).expected ≠ some .json)
    (first : value spot expected ifTrue before whenTrue forTrue mid)
    (second : value spot expected ifFalse mid whenFalse forFalse after) :
    value spot expected (.fn (.cond condition ifTrue ifFalse)) before (.call "if_" [.str condition, whenTrue, whenFalse])
      (forTrue ++ forFalse) after
  list {spot expected item vs before entries statics after}
    (shaped : (spot.place expected).shapeOf scope.schema (.arr vs) = .ok (.list item))
    (each : items spot item vs before entries statics after) :
    value spot expected (.arr vs) before (.list entries) statics after
  /-- An object with a declaration of its own. -/
  nested {spot expected members shape type before ident mid fs statics after}
    (shaped : (spot.place expected).shapeOf scope.schema (.obj members) = .ok shape) (core : shape.core = .nested type)
    (derived : before.derive spot.base = (ident, mid))
    (each : fields (spot.context.inside type) ident members mid fs statics after) :
    value spot expected (.obj members) before (inLists shape.listDepth (.static ident))
      (nestedStatic scope spot.context ident type fs :: statics) after
  noItems (spot : Spot) (item : Shape) (table : NameTable) : items spot item [] table [] [] table
  item {spot item v rest before e statics mid entries others after}
    (first : value spot (some item) v before e statics mid) (later : items spot item rest mid entries others after) :
    items spot item (v :: rest) before (e :: entries) (statics ++ others) after
  noFields (context : TypeContext) (base : String) (table : NameTable) : fields context base [] table [] [] table
  field {context base property v rest before e statics mid fs others after}
    (first : value ⟨context, property, base ++ Text.pascalCase property⟩ none v before e statics mid)
    (later : fields context base rest mid fs others after) :
    fields context base ((property, v) :: rest) before ((Rust.fieldName property, e) :: fs) (statics ++ others) after

namespace Steps

variable {scope : Scope} {value : OfValue} {items : OfItems} {fields : OfFields}

/-- What is made for a value, wherever it stands, is as `value` says. -/
def ValueEnds (scope : Scope) (value : OfValue) (v : Value) : Prop :=
  ∀ spot expected before, Ends (scope.schema ≠ .inferred) before
    (fun result after => value spot expected v before result.1 result.2 after) (lowerValue scope spot expected v)

theorem items_ends_of (steps : Steps scope value items fields) {vs : List Value} (each : ∀ v ∈ vs, ValueEnds scope value v)
    (spot : Spot) (item : Shape) (before : NameTable) :
    Ends (scope.schema ≠ .inferred) before (fun result after => items spot item vs before result.1 result.2 after)
      (lowerItems scope spot item vs) := by
  induction vs generalizing before with
  | nil =>
    rw [lowerItems]
    exact .pure (steps.noItems _ _ _)
  | cons v rest ih =>
    rw [List.forall_mem_cons] at each
    rw [lowerItems]
    refine .bind (each.1 _ _ _) fun first mid own => ?_
    exact .bind (ih each.2 _) fun others after later => .pure (steps.item own later)

theorem fields_ends_of (steps : Steps scope value items fields) {members : List (String × Value)}
    (each : ∀ v ∈ members.map (·.2), ValueEnds scope value v) (context : TypeContext) (base : String) (before : NameTable) :
    Ends (scope.schema ≠ .inferred) before (fun result after => fields context base members before result.1 result.2 after)
      (lowerFields scope context base members) := by
  induction members generalizing before with
  | nil =>
    rw [lowerFields]
    exact .pure (steps.noFields _ _ _)
  | cons member rest ih =>
    obtain ⟨property, v⟩ := member
    rw [List.map_cons, List.forall_mem_cons] at each
    rw [lowerFields]
    refine .bind (each.1 _ _ _) fun first mid own => ?_
    exact .bind (ih each.2 _) fun others after later => .pure (steps.field own later)

theorem value_ends (steps : Steps scope value items fields) (v : Value) : ValueEnds scope value v := by
  induction v using Value.node_induction with
  | step v ih =>
    intro spot expected before
    cases v with
    | fn call =>
      -- Only the branches of a choice are lowered themselves; any other call is made at once.
      by_cases choice : ∃ condition ifTrue ifFalse, call = .cond condition ifTrue ifFalse
      · obtain ⟨condition, ifTrue, ifFalse, rfl⟩ := choice
        rw [Value.forall_child_cond] at ih
        rw [lowerValue]
        split
        · exact .pure (steps.leaf (.choice ‹_›) _)
        · refine .bind (ih.1 _ _ _) fun first mid whenTrue => ?_
          exact .bind (ih.2 _ _ _) fun second after whenFalse => .pure (steps.choice ‹_› whenTrue whenFalse)
      · have noChoice (condition : String) (ifTrue ifFalse : Value) : call ≠ .cond condition ifTrue ifFalse :=
          fun same => choice ⟨condition, ifTrue, ifFalse, same⟩
        rw [lowerValue]
        · refine .bind (shapeAt_ends _ _ _ _ _) ?_
          rintro shape _ ⟨rfl, shaped⟩
          exact .pure (steps.leaf (.call noChoice shaped) _)
        · exact noChoice
    | arr vs =>
      rw [lowerValue]
      refine .bind (shapeAt_ends _ _ _ _ _) ?_
      rintro shape _ ⟨rfl, shaped⟩
      split
      · exact .bind (steps.items_ends_of ih _ _ _) fun entries after each => .pure (steps.list shaped each)
      · exact .pure (steps.leaf (.array ‹_› shaped) _)
    | obj members =>
      rw [lowerValue]
      refine .bind (shapeAt_ends _ _ _ _ _) ?_
      rintro shape _ ⟨rfl, shaped⟩
      split
      · refine .bind (.freshIdent _) fun ident mid derived => ?_
        exact .bind (steps.fields_ends_of ih _ _ _) fun fs after each => .pure (steps.nested shaped ‹_› derived each)
      · exact .pure (steps.leaf (.object ‹_› shaped) _)
    | null | bool _ | num _ | str _ =>
      rw [lowerValue]
      refine .bind (shapeAt_ends _ _ _ _ _) ?_
      rintro shape _ ⟨rfl, shaped⟩
      refine .pure (steps.leaf (.scalar ?_ shaped) _)
      exact trivial

theorem fields_ends (steps : Steps scope value items fields) (context : TypeContext) (base : String)
    (members : List (String × Value)) (before : NameTable) :
    Ends (scope.schema ≠ .inferred) before (fun result after => fields context base members before result.1 result.2 after)
      (lowerFields scope context base members) :=
  steps.fields_ends_of (fun v _ => steps.value_ends v) context base before

end Steps

end StackCompiler.Import
