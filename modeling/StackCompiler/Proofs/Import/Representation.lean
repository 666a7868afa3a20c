import StackCompiler.Proofs.Import.Entry

/-!
Nothing is lost on the way from properties to fields. An initialiser represents a value at
a place (`Represents`): as its wire form, as a literal, item by item, alone in a list where
a list is expected, through the declaration of a part, branch by branch, or as a call. The
fields of a resource represent its properties one by one (`lowerTemplate_represents`).
-/
namespace StackCompiler.Import

open Rust (Expr NameTable)

section Relation

variable (schema : Schema) (ids : Identifiers) (statics : List Static)

mutual

/-- An initialiser stands for all of a value, where `statics` are the declarations of parts. -/
inductive Represents : Place → Expr → Value → Prop
  | json {place : Place} {v : Value} : Represents place (.json v.toJson) v
  | bool {place : Place} {b : Bool} : Represents place (.literal (.bool b)) (.bool b)
  | num {place : Place} {n : Number} : Represents place (.literal (.num n)) (.num n)
  | str {place : Place} {s : String} : Represents place (.literal (.str s)) (.str s)
  | items {place : Place} {item : Shape} {entries : List Expr} {items : List Value}
      (shaped : place.shapeOf schema (.arr items) = .ok (.list item))
      (each : ItemsRepresent (place.holding item) entries items) : Represents place (.list entries) (.arr items)
  | single {place : Place} {item : Shape} {e : Expr} {v : Value} (shaped : place.shapeOf schema v = .ok (.list item))
      (noArray : v.asArr? = none) (only : Represents (place.holding item) e v) : Represents place (.list [e]) v
  | part {place : Place} {type : String} {s : Static} {fields : List (String × Expr)} {members : List (String × Value)}
      (shaped : place.shapeOf schema (.obj members) = .ok (.nested type)) (declared : s ∈ statics)
      (body : s.body = .struct (nestedTypePath place.context.resource type).1 fields)
      (each : FieldsRepresent (place.context.inside type) fields members) :
      Represents place (.static s.ident) (.obj members)
  | choice {place : Place} {condition : String} {whenTrue whenFalse : Expr} {ifTrue ifFalse : Value}
      (first : Represents place whenTrue ifTrue) (second : Represents place whenFalse ifFalse) :
      Represents place (.call "if_" [.str condition, whenTrue, whenFalse]) (.fn (.cond condition ifTrue ifFalse))
  | call {place : Place} {call : Intrinsic Value} : Represents place (callExpr ids call) (.fn call)

/-- Initialisers represent the items of a list, one each. -/
inductive ItemsRepresent : Place → List Expr → List Value → Prop
  | nil {place : Place} : ItemsRepresent place [] []
  | cons {place : Place} {e : Expr} {v : Value} {entries : List Expr} {items : List Value}
      (first : Represents place e v) (rest : ItemsRepresent place entries items) :
      ItemsRepresent place (e :: entries) (v :: items)

/-- Fields represent the members of an object, one each and under the names of fields. -/
inductive FieldsRepresent : TypeContext → List (String × Expr) → List (String × Value) → Prop
  | nil {context : TypeContext} : FieldsRepresent context [] []
  | cons {context : TypeContext} {property : String} {e : Expr} {v : Value} {fields : List (String × Expr)}
      {members : List (String × Value)} (first : Represents { context, property } e v)
      (rest : FieldsRepresent context fields members) :
      FieldsRepresent context ((Rust.fieldName property, e) :: fields) ((property, v) :: members)

end

end Relation

variable {schema : Schema} {ids : Identifiers} {all : List Static}

theorem FieldsRepresent.forall₂ {context : TypeContext} {fields : List (String × Expr)} {members : List (String × Value)}
    (represent : FieldsRepresent schema ids all context fields members) :
    List.Forall₂ (fun field member => field.1 = Rust.fieldName member.1 ∧
      Represents schema ids all { context, property := member.1 } field.2 member.2) fields members := by
  induction members generalizing fields with
  | nil =>
    cases represent
    exact .nil
  | cons member rest ih =>
    cases represent with
    | cons first later => exact .cons ⟨rfl, first⟩ (ih later)

/-! ### Values -/

/-- Where a list of lists is expected, what represents a value that is no list stands in as many
    lists as there are around the innermost shape. -/
theorem inLists_represents {place : Place} {shape : Shape} {e : Expr} {v : Value} (noArray : v.asArr? = none)
    (core : ∀ expected, Place.shapeOf schema { place with expected } v = .ok shape.core →
      Represents schema ids all { place with expected } e v)
    (shaped : place.shapeOf schema v = .ok shape) : Represents schema ids all place (inLists shape.listDepth e) v := by
  induction shape generalizing place with
  | list item ih => exact .single shaped noArray (ih core rfl)
  | scalar | json | nested _ | map _ _ => exact core place.expected shaped

theorem scalarExpr_represents {place : Place} {v : Value} {shape : Shape} (noArray : v.asArr? = none)
    (shaped : place.shapeOf schema v = .ok shape) : Represents schema ids all place (scalarExpr shape v) v := by
  refine inLists_represents noArray (fun _ _ => ?_) shaped
  split
  · exact .json
  · exact .json
  · exact .bool
  · exact .num
  · exact .str
  · exact .json

theorem shapedCall_represents {place : Place} {call : Intrinsic Value} {shape : Shape}
    (shaped : place.shapeOf schema (.fn call) = .ok shape) :
    Represents schema ids all place (shapedCall ids shape call) (.fn call) := by
  unfold shapedCall
  split
  · exact .json
  · split
    · exact .call
    · exact .single shaped rfl .call
  · exact .call

theorem IsScalar.asArr? {v : Value} (isScalar : IsScalar v) : v.asArr? = none := by
  cases v with
  | arr _ => exact isScalar.elim
  | _ => rfl

variable {scope : Scope}

theorem Leaf.represents {place : Place} {v : Value} {e : Expr} (leaf : Leaf scope place v e) :
    Represents scope.schema scope.ids all place e v := by
  cases leaf with
  | choice | array => exact .json
  | call _ shaped => exact shapedCall_represents shaped
  | object _ shaped => exact inLists_represents rfl (fun _ _ => .json) shaped
  | scalar isScalar shaped => exact scalarExpr_represents isScalar.asArr? shaped

/-- An initialiser represents its value among all declarations that hold those of its parts. -/
theorem represents_steps (scope : Scope) (all : List Static) : Steps scope
    (fun spot expected v _ e parts _ => parts ⊆ all → Represents scope.schema scope.ids all (spot.place expected) e v)
    (fun spot item items _ entries parts _ =>
      parts ⊆ all → ItemsRepresent scope.schema scope.ids all (spot.place (some item)) entries items)
    (fun context _ members _ fields parts _ =>
      parts ⊆ all → FieldsRepresent scope.schema scope.ids all context fields members) where
  leaf leaf _ _ := leaf.represents
  choice _ first second inside := by
    rw [List.append_subset] at inside
    exact .choice (first inside.1) (second inside.2)
  list shaped each inside := .items shaped (each inside)
  nested shaped core _ each inside := by
    rw [List.cons_subset] at inside
    -- The lists are peeled off before the declaration is reached, so its shape is the innermost one.
    refine inLists_represents rfl (fun _ shaped => ?_) shaped
    exact .part (core ▸ shaped) inside.1 rfl (each inside.2)
  noItems _ _ _ _ := .nil
  item first later inside := by
    rw [List.append_subset] at inside
    exact .cons (first inside.1) (later inside.2)
  noFields _ _ _ _ := .nil
  field first later inside := by
    rw [List.append_subset] at inside
    exact .cons (first inside.1) (later inside.2)

/-! ### Resources -/

variable {before after : NameTable}

/-- The properties of a resource that has none or an object of them. -/
def propertyMembers? : Value → Option (List (String × Value))
  | .null => some []
  | .obj members => some members
  | _ => none

/-- The type of a resource is known, and the schema has it. -/
def IsTyped (schema : Schema) (r : Resource) : Prop :=
  (DeclaredType.ofCanonical? r.type).isSome ∧ schema.supports r.type = true

theorem lowerProperties_represent (scope : Scope) (all : List Static) (type ident : String) {v : Value}
    {members : List (String × Value)} (properties : propertyMembers? v = some members) (before : NameTable) :
    Ends (scope.schema ≠ .inferred) before
      (fun result _ => result.2 ⊆ all → FieldsRepresent scope.schema scope.ids all { resource := type } result.1 members)
      (lowerProperties scope type ident v) := by
  cases v with
  | null =>
    obtain rfl := Option.some.inj properties
    exact .pure fun _ => .nil
  | obj _ =>
    obtain rfl := Option.some.inj properties
    exact (represents_steps scope all).fields_ends _ _ _ before
  | _ => cases properties

/-- The declaration of a resource has a field for every property, and then what the template says
    beside them. -/
def DeclaresProperties (schema : Schema) (ids : Identifiers) (statics : List Static) (logical : String) (r : Resource)
    (members : List (String × Value)) : Prop :=
  ∃ s ∈ statics, s.ident = ids.of .resource logical ∧ ∃ type fields, s.body = .struct type (fields ++ metaField r) ∧
    List.Forall₂ (fun field member => field.1 = Rust.fieldName member.1 ∧
      Represents schema ids statics { context := { resource := r.type }, property := member.1 } field.2 member.2)
      fields members

theorem lowerResource_represents {logical : String} {r : Resource} (typed : IsTyped schema r)
    {members : List (String × Value)} (properties : propertyMembers? r.properties = some members) {statics : List Static}
    {stages : List Stage} (done : (lowerResource ids schema logical r).run before = .ok ((statics, stages), after))
    (inside : statics ⊆ all) : DeclaresProperties schema ids all logical r members := by
  obtain ⟨known, supported⟩ := typed
  obtain ⟨declared, found⟩ := Option.isSome_iff_exists.mp known
  have kept : (DeclaredType.ofCanonical? r.type).filter (fun _ => schema.supports r.type) = some declared := by
    simp [found, supported]
  simp only [lowerResource, kept, run_bind_eq_ok, run_pure_eq_ok, Prod.exists, Prod.mk.injEq] at done
  obtain ⟨fields, parts, _, inner, ⟨rfl, rfl⟩, rfl⟩ := done
  rw [List.cons_subset] at inside
  have represent := (lowerProperties_represent _ all _ _ properties _).of_run inner inside.2
  exact ⟨_, inside.1, rfl, _, fields, rfl, represent.forall₂⟩

/-- Every resource is lowered, and its declarations are among those of all. -/
theorem lowerResources_each {resources : List (String × Resource)} {statics : List Static} {start progress : Progress}
    (done : (lowerResources ids schema resources start).run before = .ok ((statics, progress), after)) :
    ∀ e ∈ resources, ∃ before own stages after,
      (lowerResource ids schema e.1 e.2).run before = .ok ((own, stages), after) ∧ own ⊆ statics := by
  induction resources generalizing before statics start with
  | nil => exact List.forall_mem_nil _
  | cons entry rest ih =>
    obtain ⟨logical, r⟩ := entry
    simp only [lowerResources, run_bind_eq_ok, run_pure_eq_ok, Prod.exists, Prod.mk.injEq] at done
    obtain ⟨own, stages, mid, first, others, _, _, later, ⟨rfl, rfl⟩, rfl⟩ := done
    refine List.forall_mem_cons.mpr ⟨⟨before, own, stages, mid, first, List.subset_append_left own others⟩, ?_⟩
    intro e member
    obtain ⟨before, own, stages, after, run, inside⟩ := ih later e member
    exact ⟨before, own, stages, after, run, List.subset_append_of_subset_right _ inside⟩

/-- The declaration of every typed resource has a field for each of its properties, in their order
    and under their names, whose initialiser represents the value. All declarations have different
    identifiers. -/
theorem lowerTemplate_represents {t : Template} {statics : List Static} {progress : Progress}
    (distinct : (entriesOf t).Nodup) (lowered : lowerTemplate schema t = .ok (statics, progress)) :
    (idents statics).Nodup ∧ ∃ ids table, (assignIdents t).run reservedTable = .ok (ids, table) ∧
      ∀ logical r members, (logical, r) ∈ t.resources → IsTyped schema r → propertyMembers? r.properties = some members →
        DeclaresProperties schema ids statics logical r members := by
  refine ⟨(lowerTemplate_forest distinct lowered).distinct, ?_⟩
  obtain ⟨ids, table, resources, _, assigned, run, rfl⟩ := lowerTemplate_eq_ok lowered
  refine ⟨ids, table, assigned, fun logical r members member typed properties => ?_⟩
  obtain ⟨_, own, _, _, done, inside⟩ := lowerResources_each run (logical, r) member
  exact lowerResource_represents typed properties done (List.subset_append_of_subset_left _ inside)

/-- A schema in which a queue has rules, each with a target. -/
def ruleSchema : Schema :=
  .specified {
    resourceTypes := [("AWS::SQS::Queue", ⟨[("Rules", { type := some "List", itemType := some "Rule" })]⟩)]
    propertyTypes := [("AWS::SQS::Queue.Rule", ⟨[("Target", { primitiveType := some "String" })]⟩)] }

/-- A queue with a rule that does not stand in a list, and with a property that the schema does not have. -/
def ruleQueue : Resource where
  type := "AWS::SQS::Queue"
  properties := .obj [
    ("Rules", .obj [("Target", .fn (.cond "Main" (.str "first") (.fn (.ref "Other"))))]),
    ("Extra", .arr [.null, .bool true])]
  deletionPolicy := some "Retain"

def ruleTemplate : Template :=
  { Template.empty with resources := [("Queue", ruleQueue)] }

theorem lowerTemplate_represents_rule :
    (entriesOf ruleTemplate).Nodup ∧ IsTyped ruleSchema ruleQueue ∧
      ∃ statics progress ids, lowerTemplate ruleSchema ruleTemplate = .ok (statics, progress) ∧
        idents statics = ["Queue", "QueueRules"] ∧
        DeclaresProperties ruleSchema ids statics "Queue" ruleQueue [
          ("Rules", .obj [("Target", .fn (.cond "Main" (.str "first") (.fn (.ref "Other"))))]),
          ("Extra", .arr [.null, .bool true])] := by
  have distinct : (entriesOf ruleTemplate).Nodup := by decide
  have typed : IsTyped ruleSchema ruleQueue := ⟨by decide +kernel, by decide⟩
  have computed : ((lowerTemplate ruleSchema ruleTemplate).toOption.map fun r => idents r.1) =
      some ["Queue", "QueueRules"] := by decide +kernel
  cases lowered : lowerTemplate ruleSchema ruleTemplate with
  | error _ => rw [lowered] at computed; cases computed
  | ok r =>
    obtain ⟨statics, progress⟩ := r
    rw [lowered] at computed
    obtain ⟨-, ids, -, -, represented⟩ := lowerTemplate_represents distinct lowered
    exact ⟨distinct, typed, statics, progress, ids, rfl, Option.some.inj computed,
      represented "Queue" ruleQueue _ List.mem_cons_self typed rfl⟩

end StackCompiler.Import
