import StackCompiler.Import.Entry
import StackCompiler.Proofs.Members
import StackCompiler.Proofs.Rust.JsonUse
import StackCompiler.Proofs.Value.Nodes

/-!
Initialisers that need no declarations. Those of calls and their arguments, and those of all that
an entry has beside properties, are made of the same few nodes (`Initial`). The fields that are
made for an entry are listed here once, with that (`FieldsOf`, `EntryBody`); what else holds of
them follows.
-/
namespace StackCompiler.Import

open Rust (Expr)
open Rust.Expr (StartsApart)

/-- A node of an initialiser that goes through nothing but entries: references carry the identifier
    that is found for their target, and no call begins as one of the macro for documents does. -/
@[simp] def InitialNode (ids : Identifiers) : Expr → Prop
  | .ref target slot => slot = ids.ofReference? target
  | .attr target _ slot => slot = ids.ofAttribute? target
  | .call func _ => StartsApart func
  | .static _ | .struct _ _ => False
  | _ => True

def Initial (ids : Identifiers) (e : Expr) : Prop := e.Everywhere (InitialNode ids)

variable {ids : Identifiers}

@[simp] theorem initial_str (s : String) : Initial ids (.str s) := by simp [Initial]

@[simp] theorem initial_literal (scalar : Json) : Initial ids (.literal scalar) := by simp [Initial]

@[simp] theorem initial_json (document : Json) : Initial ids (.json document) := by simp [Initial]

@[simp] theorem initial_list (items : List Expr) : Initial ids (.list items) ↔ ∀ e ∈ items, Initial ids e := by
  simp [Initial]

@[simp] theorem initial_some (e : Expr) : Initial ids (.some e) ↔ Initial ids e := by simp [Initial]

@[simp] theorem initial_call (func : String) (args : List Expr) :
    Initial ids (.call func args) ↔ StartsApart func ∧ ∀ e ∈ args, Initial ids e := by
  simp [Initial]

@[simp] theorem initial_pairs (fields : List (String × Expr)) :
    Initial ids (.pairs fields) ↔ ∀ e ∈ fields.map (·.2), Initial ids e := by
  rw [Initial, Expr.everywhere_pairs]
  exact and_iff_right trivial

theorem initial_textLiteral (s : String) : Initial ids (textLiteral s) := initial_literal _

/-! ### Values -/

theorem arguments_eq_map (ids : Identifiers) (items : List Value) : arguments ids items = items.map (argument ids) := by
  induction items with
  | nil => rfl
  | cons item rest ih => rw [arguments, ih, List.map_cons]

theorem argumentPairs_eq_mapEntries (ids : Identifiers) (members : List (String × Value)) :
    argumentPairs ids members = mapEntries (argument ids) members := by
  induction members with
  | nil => rfl
  | cons member rest ih =>
    rw [argumentPairs, ih]
    rfl

theorem callExpr_sub_cons (ids : Identifiers) (template : String) (first : String × Value) (rest : List (String × Value)) :
    callExpr ids (.sub template (first :: rest)) =
      .call "sub_with" [.str template, .pairs (mapEntries (argument ids) (first :: rest))] := by
  rw [callExpr, argumentPairs_eq_mapEntries]
  rfl

theorem initial_callExpr {call : Intrinsic Value} (args : ∀ w ∈ call.argValues, Initial ids (argument ids w)) :
    Initial ids (callExpr ids call) := by
  unfold Intrinsic.argValues at args
  cases call with
  | ref _ | getAtt _ => simp [callExpr, Initial]
  | condition _ | verbatim _ _ | transform _ _ => simp +decide [callExpr]
  | sub template bindings =>
    rw [Intrinsic.args, Intrinsic.keyed_values] at args
    cases bindings with
    | nil => simp +decide [callExpr]
    | cons first rest =>
      rw [callExpr_sub_cons, initial_call, List.forall_mem_cons, List.forall_mem_singleton, initial_pairs,
        values_mapEntries, List.forall_mem_map]
      exact ⟨by decide, initial_str template, args⟩
  | and conditions | or conditions =>
    rw [Intrinsic.args, Intrinsic.indexed_values] at args
    simpa +decide [callExpr, arguments_eq_map] using args
  | _ => simpa +decide [callExpr, Intrinsic.args] using args

theorem initial_argument (v : Value) : Initial ids (argument ids v) := by
  induction v using Value.node_induction with
  | step v ih =>
    cases v with
    | fn call => exact initial_callExpr ih
    | arr items =>
      rw [argument, initial_list, arguments_eq_map, List.forall_mem_map]
      exact ih
    | null | bool _ | num _ | str _ | obj _ => simp [argument, textLiteral]

/-- Lists around an initialiser add no nodes but lists. -/
theorem everywhere_inLists {P : Expr → Prop} (lists : ∀ items, P (.list items)) {e : Expr} (inner : e.Everywhere P)
    (depth : Nat) : (inLists depth e).Everywhere P := by
  induction depth with
  | zero => exact inner
  | succ depth ih => exact (Expr.everywhere_list _).mpr ⟨lists _, List.forall_mem_singleton.mpr ih⟩

theorem initial_inLists {e : Expr} (initial : Initial ids e) (depth : Nat) : Initial ids (inLists depth e) :=
  everywhere_inLists (fun _ => trivial) initial depth

theorem initial_scalarExpr (shape : Shape) (v : Value) : Initial ids (scalarExpr shape v) := by
  refine initial_inLists ?_ _
  split <;> simp [textLiteral]

theorem initial_shapedCall (shape : Shape) (call : Intrinsic Value) : Initial ids (shapedCall ids shape call) := by
  have initial : Initial ids (callExpr ids call) := initial_callExpr fun w _ => initial_argument w
  unfold shapedCall
  split
  · exact initial_json _
  · split
    · exact initial
    · exact (initial_list _).mpr (List.forall_mem_singleton.mpr initial)
  · exact initial

/-! ### Fields -/

/-- Fields that are made for an entry: some of those in `names`. -/
structure FieldsOf (ids : Identifiers) (names : List String) (fields : List (String × Expr)) : Prop where
  named : (fields.map (·.1)).Sublist names
  initial : ∀ e ∈ fields.map (·.2), Initial ids e

namespace FieldsOf

variable {names more : List String} {fields others : List (String × Expr)} {α : Type} {initialiser : α → Expr}

theorem nil (names : List String) : FieldsOf ids names [] := ⟨List.nil_sublist _, List.forall_mem_nil _⟩

theorem one (name : String) {e : Expr} (initial : Initial ids e) : FieldsOf ids [name] [(name, e)] :=
  ⟨List.Sublist.refl _, List.forall_mem_singleton.mpr initial⟩

theorem append (first : FieldsOf ids names fields) (second : FieldsOf ids more others) :
    FieldsOf ids (names ++ more) (fields ++ others) where
  named := List.map_append ▸ first.named.append second.named
  initial := by
    rw [List.map_append, List.forall_mem_append]
    exact ⟨first.initial, second.initial⟩

theorem optional (name : String) (initial : ∀ a, Initial ids (initialiser a)) (o : Option α) :
    FieldsOf ids [name] (optionalField name initialiser o) := by
  cases o with
  | none => exact .nil _
  | some a => exact .one name ((initial_some _).mpr (initial a))

theorem items (name : String) (initial : ∀ a, Initial ids (initialiser a)) (items : List α) :
    FieldsOf ids [name] (listField name initialiser items) := by
  cases items with
  | nil => exact .nil _
  | cons a rest => exact .one name ((initial_list _).mpr (List.forall_mem_map.mpr fun a _ => initial a))

end FieldsOf

/-! ### Resources -/

/-- The fields for what a template says of a resource beside its properties. -/
def metaNames : List String := ["depends_on", "condition", "deletion_policy", "update_replace_policy", "metadata"]

theorem metaFields_fields (r : Resource) : FieldsOf ids metaNames (metaFields r) := by
  have conditions : FieldsOf ids _ _ := (FieldsOf.items "depends_on" initial_textLiteral r.dependsOn).append
    (.optional "condition" initial_textLiteral r.condition)
  have policies := (conditions.append (.optional "deletion_policy" initial_textLiteral r.deletionPolicy)).append
    (.optional "update_replace_policy" initial_textLiteral r.updateReplacePolicy)
  exact policies.append (.optional "metadata" (fun _ => initial_json _) r.metadata)

/-- What is said beside the properties stands in a struct of its own. -/
theorem forall_metaField {P : Expr → Prop} (ids : Identifiers)
    (struct : ∀ fields, FieldsOf ids metaNames fields → P (.struct "ResourceMeta" fields)) (r : Resource) :
    ∀ e ∈ (metaField r).map (·.2), P e := by
  unfold metaField
  split
  · exact List.forall_mem_nil _
  · exact List.forall_mem_singleton.mpr (struct _ (metaFields_fields r))

/-- The fields of a placeholder before what the template says beside the properties. -/
def rawFields : List String := ["resource_type", "properties"]

theorem placeholder_body (ids : Identifiers) (ident reason : String) (r : Resource) :
    ∃ fields, (placeholder ident reason r).body = .struct "RawResource" (fields ++ metaField r) ∧
      FieldsOf ids rawFields fields := by
  have properties : FieldsOf ids ["properties"]
      (if r.properties.isNull then [] else [("properties", Expr.json r.properties.toJson)]) := by
    split
    · exact .nil _
    · exact .one _ (initial_json _)
  exact ⟨_, rfl, (FieldsOf.one "resource_type" (initial_textLiteral r.type)).append properties⟩

/-! ### Other entries -/

def parameterFields : List String :=
  ["param_type", "description", "default", "allowed_values", "allowed_pattern", "constraint_description", "min_length",
   "max_length", "min_value", "max_value", "no_echo"]

def outputFields : List String := ["description", "value", "export", "condition"]

/-- The value of an entry that is no resource: made by a constructor function, or a struct with some
    of the fields for its type. -/
inductive EntryBody (ids : Identifiers) : String → Expr → Prop
  | constructed {type : String} {arg : Expr} (known : type ∈ ["Mapping", "Condition"]) (initial : Initial ids arg) :
      EntryBody ids type (.call (type ++ "::new") [arg])
  | struct {type : String} {names : List String} {fields : List (String × Expr)}
      (known : (type, names) ∈ [("Parameter", parameterFields), ("Output", outputFields)]) (of : FieldsOf ids names fields) :
      EntryBody ids type (.struct type fields)

theorem parameterStatic_body (logical : String) (p : Parameter) :
    EntryBody ids "Parameter" (parameterStatic ids logical p).body := by
  have texts : FieldsOf ids _ _ := (FieldsOf.one "param_type" (initial_textLiteral p.type)).append
    (.optional "description" initial_textLiteral p.description)
  have values := (texts.append (.optional "default" initial_argument p.default)).append
    (.items "allowed_values" initial_argument p.allowedValues)
  have patterns := (values.append (.optional "allowed_pattern" initial_textLiteral p.allowedPattern)).append
    (.optional "constraint_description" initial_textLiteral p.constraintDescription)
  have lengths := (patterns.append (.optional "min_length" (fun n => initial_literal (.nat n)) p.minLength)).append
    (.optional "max_length" (fun n => initial_literal (.nat n)) p.maxLength)
  have bounds := (lengths.append (.optional "min_value" (fun n => initial_literal (.num n)) p.minValue)).append
    (.optional "max_value" (fun n => initial_literal (.num n)) p.maxValue)
  have echo : FieldsOf ids ["no_echo"] (if p.noEcho then [("no_echo", .literal (.bool true))] else []) := by
    split
    · exact .one _ (initial_literal _)
    · exact .nil _
  exact .struct (.head _) (bounds.append echo)

theorem mappingStatic_body (logical : String) (mapping : Value) :
    EntryBody ids "Mapping" (mappingStatic ids logical mapping).body :=
  .constructed (.head _) (initial_json _)

theorem conditionStatic_body (logical : String) (condition : Value) :
    EntryBody ids "Condition" (conditionStatic ids logical condition).body :=
  .constructed (.tail _ (.head _)) (initial_argument _)

theorem outputStatic_body (logical : String) (o : Output) : EntryBody ids "Output" (outputStatic ids logical o).body := by
  have value : FieldsOf ids _ _ := (FieldsOf.optional "description" initial_textLiteral o.description).append
    (.one "value" (initial_argument o.value))
  have exported (v : Value) : Initial ids (.call "Export::new" [argument ids v]) :=
    (initial_call _ _).mpr ⟨by decide, List.forall_mem_singleton.mpr (initial_argument v)⟩
  exact .struct (.tail _ (.head _))
    ((value.append (.optional "export" exported o.exportName)).append (.optional "condition" initial_textLiteral o.condition))

/-- The declarations of the entries that are no resources. -/
def otherStatics (ids : Identifiers) (t : Template) : List Static :=
  t.parameters.map (fun e => parameterStatic ids e.1 e.2) ++ t.mappings.map (fun e => mappingStatic ids e.1 e.2)
    ++ t.conditions.map (fun e => conditionStatic ids e.1 e.2) ++ t.outputs.map (fun e => outputStatic ids e.1 e.2)

theorem otherStatics_body (t : Template) : ∀ s ∈ otherStatics ids t, s.home = none ∧ EntryBody ids s.type s.body := by
  unfold otherStatics
  simp only [List.forall_mem_append, List.forall_mem_map]
  exact ⟨⟨⟨fun _ _ => ⟨rfl, parameterStatic_body _ _⟩, fun _ _ => ⟨rfl, mappingStatic_body _ _⟩⟩,
    fun _ _ => ⟨rfl, conditionStatic_body _ _⟩⟩, fun _ _ => ⟨rfl, outputStatic_body _ _⟩⟩

end StackCompiler.Import
