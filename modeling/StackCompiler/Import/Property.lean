import StackCompiler.Import.Argument
import StackCompiler.Import.Static
import StackCompiler.Registry.Type
import StackCompiler.Schema.Lookup
import StackCompiler.Text.WordCase

/-!
Initialisers of properties. An object that has a type of its own becomes a declaration of
its own, which stands right before those of its parts.
-/
namespace StackCompiler.Import

open Rust (Expr)

/-- What does not change inside a resource. -/
structure Scope where
  ids : Identifiers
  schema : Schema
  group : FileGroup

/-- Where a value stands. -/
structure Spot where
  context : TypeContext
  property : String
  /-- The identifier for a declaration made of the value, if it is free. -/
  base : String

/-- The path of a property type, with the module in which it lives. -/
def nestedTypePath (resource type : String) : String × Option String :=
  if type = "Tag" then ("Tag", none)
  else
    match DeclaredType.ofCanonical? resource with
    | some declared =>
      let home := Rust.fieldName declared.ns.short
      (home ++ "::" ++ Text.snakeCase declared.kind ++ "::" ++ type, some home)
    | none => (type, none)

/-- The declaration of an object of a property type. -/
def nestedStatic (scope : Scope) (context : TypeContext) (ident type : String)
    (fields : List (String × Expr)) : Static :=
  let (path, home) := nestedTypePath context.resource type
  { Static.ofStruct ident path fields scope.group with home := home, topLevel := false }

/-- The shape of a value: the one that is expected, or else the one that the schema says. -/
def shapeAt (scope : Scope) (spot : Spot) (expected : Option Shape) (value : Value) :
    Lowering Shape :=
  match expected with
  | some shape => pure shape
  | none =>
    match scope.schema.shapeOf spot.context spot.property value with
    | .ok shape => pure shape
    | .error missing => throw (.missingType missing)

/-- An expression inside as many lists. -/
def inLists : Nat → Expr → Expr
  | 0, e => e
  | depth + 1, e => .list [inLists depth e]

/-- A scalar where `shape` is expected. -/
def scalarExpr (shape : Shape) (value : Value) : Expr :=
  inLists shape.listDepth <|
    match shape.core, value with
    | .json, v => .json v.toJson
    | .map _, v => .json v.toJson
    | _, .bool b => .literal (.bool b)
    | _, .num n => .literal (.num n)
    | _, .str s => textLiteral s
    | _, v => .json v.toJson

/-- A call where `shape` is expected. One that gives no list stands in a list alone. -/
def shapedCall (ids : Identifiers) (shape : Shape) (call : Intrinsic Value) : Expr :=
  match shape with
  | .json => .json (Value.fn call).toJson
  | .list _ => if call.yieldsList then callExpr ids call else .list [callExpr ids call]
  | _ => callExpr ids call

mutual

/-- The initialiser of a value and the declarations that it needs. Without an expected shape,
    each branch of a choice is shaped on its own. -/
def lowerValue (scope : Scope) (spot : Spot) (expected : Option Shape) :
    Value → Lowering (Expr × List Static)
  | .fn (.cond condition ifTrue ifFalse) =>
    if expected = some .json then
      pure (.json (Value.fn (.cond condition ifTrue ifFalse)).toJson, [])
    else do
      let (whenTrue, forTrue) ← lowerValue scope spot expected ifTrue
      let (whenFalse, forFalse) ← lowerValue scope spot expected ifFalse
      return (.call "if_" [.str condition, whenTrue, whenFalse], forTrue ++ forFalse)
  | .fn call => do
    let shape ← shapeAt scope spot expected (.fn call)
    return (shapedCall scope.ids shape call, [])
  | .arr items => do
    match ← shapeAt scope spot expected (.arr items) with
    | .list item =>
      let (entries, statics) ← lowerItems scope spot item items
      return (.list entries, statics)
    | _ => return (.json (Value.arr items).toJson, [])
  | .obj members => do
    let shape ← shapeAt scope spot expected (.obj members)
    match shape.core with
    | .nested type =>
      let ident ← freshIdent spot.base
      let (fields, statics) ← lowerFields scope (spot.context.inside type) ident members
      return (inLists shape.listDepth (.static ident),
        nestedStatic scope spot.context ident type fields :: statics)
    | _ => return (inLists shape.listDepth (.json (Value.obj members).toJson), [])
  | .null => do return (scalarExpr (← shapeAt scope spot expected .null) .null, [])
  | .bool b => do return (scalarExpr (← shapeAt scope spot expected (.bool b)) (.bool b), [])
  | .num n => do return (scalarExpr (← shapeAt scope spot expected (.num n)) (.num n), [])
  | .str s => do return (scalarExpr (← shapeAt scope spot expected (.str s)) (.str s), [])

/-- The items of a list, which all have the shape `item`. -/
def lowerItems (scope : Scope) (spot : Spot) (item : Shape) :
    List Value → Lowering (List Expr × List Static)
  | [] => pure ([], [])
  | value :: rest => do
    let (entry, statics) ← lowerValue scope spot (some item) value
    let (entries, others) ← lowerItems scope spot item rest
    return (entry :: entries, statics ++ others)

/-- The fields of the object that the declaration `base` is made of. -/
def lowerFields (scope : Scope) (context : TypeContext) (base : String) :
    List (String × Value) → Lowering (List (String × Expr) × List Static)
  | [] => pure ([], [])
  | (property, value) :: rest => do
    let spot : Spot := ⟨context, property, base ++ Text.pascalCase property⟩
    let (e, statics) ← lowerValue scope spot none value
    let (fields, others) ← lowerFields scope context base rest
    return ((Rust.fieldName property, e) :: fields, statics ++ others)

end

end StackCompiler.Import
