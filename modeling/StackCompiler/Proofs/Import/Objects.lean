import StackCompiler.Proofs.Import.Heading
import StackCompiler.Proofs.Import.Representation
import StackCompiler.Proofs.Rust.Nodes

/-!
The objects of which declarations are made. Which objects inside a resource's properties have
declarations of their own can be said without lowering them (`partsAt`). Lowering makes one
declaration for each, in their order: it is called after the properties on the way to the object,
and its fields after the object's keys (`Declares`). No other struct stands in the initialisers.
-/
namespace StackCompiler.Import

open Rust (Expr NameTable)

/-! ### Initialisers of values -/

/-- What may stand in the initialiser of a value: no struct, and references only if they carry the
    identifier that is found for their target. -/
@[simp] def Made (ids : Identifiers) : Expr → Prop
  | .ref target slot => slot = ids.ofReference? target
  | .attr target _ slot => slot = ids.ofAttribute? target
  | .struct _ _ => False
  | _ => True

def AllMade (ids : Identifiers) (e : Expr) : Prop := e.Everywhere (Made ids)

def FieldsMade (ids : Identifiers) (fields : List (String × Expr)) : Prop := ∀ e ∈ fields.map (·.2), AllMade ids e

variable {ids : Identifiers}

theorem Initial.made {e : Expr} (initial : Initial ids e) : AllMade ids e := by
  refine initial.mono fun w node => ?_
  cases w with
  | ref _ _ | attr _ _ _ => exact node
  | static _ | struct _ _ => exact node.elim
  | _ => trivial

theorem FieldsOf.made {names : List String} {fields : List (String × Expr)} (of : FieldsOf ids names fields) :
    FieldsMade ids fields :=
  fun e member => (of.initial e member).made

theorem allMade_list (items : List Expr) : AllMade ids (.list items) ↔ ∀ e ∈ items, AllMade ids e := by simp [AllMade]

theorem allMade_call (func : String) (args : List Expr) : AllMade ids (.call func args) ↔ ∀ e ∈ args, AllMade ids e := by
  simp [AllMade]

/-! ### Parts -/

/-- An object that has a declaration of its own: the properties on the way to it from the declaration
    of what holds it, and its members. -/
structure Part where
  trail : List String
  members : List (String × Value)

namespace Part

/-- A part of what stands under a property. -/
def under (property : String) (part : Part) : Part :=
  { part with trail := property :: part.trail }

def keys (part : Part) : List String := part.members.map (·.1)

end Part

/-- The shape of the items of a list at a place, if they are lowered one by one. -/
def itemShape? (schema : Schema) (place : Place) (v : Value) : Option Shape :=
  match place.shapeOf schema v with
  | .ok (.list item) => some item
  | _ => none

/-- The property type of an object at a place, if it has one. -/
def partType? (schema : Schema) (place : Place) (v : Value) : Option String :=
  match place.shapeOf schema v with
  | .ok shape =>
    match shape.core with
    | .nested type => some type
    | _ => none
  | .error _ => none

mutual

/-- The parts in a value at a place, each before its own parts. -/
def partsAt (schema : Schema) (place : Place) : Value → List Part
  | .fn (.cond _ ifTrue ifFalse) =>
    if place.expected = some .json then [] else partsAt schema place ifTrue ++ partsAt schema place ifFalse
  | .arr items =>
    match itemShape? schema place (.arr items) with
    | some item => itemParts schema (place.holding item) items
    | none => []
  | .obj members =>
    match partType? schema place (.obj members) with
    | some type =>
      ⟨[place.property], members⟩ :: (memberParts schema (place.context.inside type) members).map (.under place.property)
    | none => []
  | _ => []

def itemParts (schema : Schema) (place : Place) : List Value → List Part
  | [] => []
  | item :: rest => partsAt schema place item ++ itemParts schema place rest

def memberParts (schema : Schema) (context : TypeContext) : List (String × Value) → List Part
  | [] => []
  | (property, value) :: rest => partsAt schema { context, property } value ++ memberParts schema context rest

end

/-- `ident` is what the declaration of a part is called whose trail starts at the declaration `holder`:
    each property adds its words, and a number where the name is taken. -/
inductive IsPartIdent : String → List String → String → Prop
  | here (ident : String) : IsPartIdent ident [] ident
  | under {holder property next ident : String} {trail : List String}
      (step : next = holder ++ Text.pascalCase property ∨
        ∃ n, 2 ≤ n ∧ next = NameTable.withNumber (holder ++ Text.pascalCase property) n)
      (rest : IsPartIdent next trail ident) : IsPartIdent holder (property :: trail) ident

/-- A struct with a field for each key, and no struct inside. -/
def HasFields (ids : Identifiers) (keys : List String) (fields : List (String × Expr)) : Prop :=
  fields.map (·.1) = keys.map Rust.fieldName ∧ FieldsMade ids fields

/-- `s` is the declaration of a part of what `holder` declares. -/
structure Declares (ids : Identifiers) (holder : String) (part : Part) (s : Static) : Prop where
  named : IsPartIdent holder part.trail s.ident
  body : ∃ type fields, s.body = .struct type fields ∧ HasFields ids part.keys fields
  inner : s.topLevel = false

/-! ### Lowering -/

/-- What is made at once has no parts. -/
theorem Leaf.partsAt_eq_nil {scope : Scope} {place : Place} {v : Value} {e : Expr} (leaf : Leaf scope place v e) :
    partsAt scope.schema place v = [] := by
  cases leaf with
  | choice document => rw [partsAt, if_pos document]
  | call noChoice =>
    rw [partsAt]
    all_goals simp [noChoice]
  | @array _ shape noList shaped =>
    rw [partsAt, itemShape?, shaped]
    cases shape with
    | list item => exact absurd rfl (noList item)
    | _ => rfl
  | @object _ shape untyped shaped =>
    rw [partsAt, partType?, shaped]
    dsimp only
    cases core : shape.core with
    | nested type => exact absurd core (untyped type)
    | _ => rfl
  | scalar isScalar =>
    cases v with
    | arr _ | obj _ | fn _ => exact isScalar.elim
    | null | bool _ | num _ | str _ => simp [partsAt]

/-- The declaration of a part of what another part declares. -/
theorem Declares.under {ids : Identifiers} {holder property next : String} {part : Part} {s : Static}
    (step : next = holder ++ Text.pascalCase property ∨
      ∃ n, 2 ≤ n ∧ next = NameTable.withNumber (holder ++ Text.pascalCase property) n)
    (declares : Declares ids next part s) : Declares ids holder (part.under property) s :=
  ⟨.under step declares.named, declares.body, declares.inner⟩

/-- A declaration is made for each part, and no struct stands in what is made for the value. -/
theorem declares_steps (scope : Scope) : Steps scope
    (fun spot expected v _ e statics _ => ∀ holder, spot.base = holder ++ Text.pascalCase spot.property →
      AllMade scope.ids e ∧ List.Forall₂ (Declares scope.ids holder) (partsAt scope.schema (spot.place expected) v) statics)
    (fun spot item items _ entries statics _ => ∀ holder, spot.base = holder ++ Text.pascalCase spot.property →
      (∀ e ∈ entries, AllMade scope.ids e) ∧
        List.Forall₂ (Declares scope.ids holder) (itemParts scope.schema (spot.place (some item)) items) statics)
    (fun context holder members _ fields statics _ => HasFields scope.ids (members.map (·.1)) fields ∧
      List.Forall₂ (Declares scope.ids holder) (memberParts scope.schema context members) statics) where
  leaf leaf _ holder _ := by
    rw [leaf.partsAt_eq_nil]
    exact ⟨leaf.initial.made, .nil⟩
  choice noDocument first second holder base := by
    obtain ⟨whenTrue, forTrue⟩ := first holder base
    obtain ⟨whenFalse, forFalse⟩ := second holder base
    rw [partsAt, if_neg noDocument]
    refine ⟨?_, List.rel_append forTrue forFalse⟩
    simp [allMade_call, (initial_str _).made, whenTrue, whenFalse]
  list shaped each holder base := by
    rw [partsAt, itemShape?, shaped]
    exact (each holder base).imp_left (allMade_list _).mpr
  nested {spot _ _ _ _ before ident _ _ _ _} shaped core derived each holder base := by
    have step := NameTable.derive_stem before spot.base
    rw [derived, base] at step
    obtain ⟨own, others⟩ := each
    have made : AllMade scope.ids (.static ident) := by simp [AllMade]
    rw [partsAt, partType?, shaped]
    dsimp only
    rw [core]
    refine ⟨everywhere_inLists (fun _ => trivial) made _, .cons ⟨.under step (.here ident), ⟨_, _, rfl, own⟩, rfl⟩ ?_⟩
    exact List.forall₂_map_left_iff.mpr (others.imp fun _ _ declares => declares.under step)
  noItems _ _ _ _ _ := ⟨List.forall_mem_nil _, .nil⟩
  item first later holder base := by
    obtain ⟨made, own⟩ := first holder base
    obtain ⟨others, more⟩ := later holder base
    exact ⟨List.forall_mem_cons.mpr ⟨made, others⟩, List.rel_append own more⟩
  noFields _ _ _ := ⟨⟨rfl, List.forall_mem_nil _⟩, .nil⟩
  field first later := by
    obtain ⟨made, own⟩ := first _ rfl
    obtain ⟨⟨names, others⟩, more⟩ := later
    exact ⟨⟨congrArg (_ :: ·) names, List.forall_mem_cons.mpr ⟨made, others⟩⟩, List.rel_append own more⟩

/-- The keys after which the fields for a resource's properties are called. -/
def propertyKeys : Value → List String
  | .null => []
  | .obj members => members.map (·.1)
  | _ => ["properties"]

def propertyParts (schema : Schema) (type : String) : Value → List Part
  | .obj members => memberParts schema { resource := type } members
  | _ => []

variable {schema : Schema} {before after : NameTable}

theorem lowerProperties_declares (scope : Scope) (type holder : String) (v : Value) (before : NameTable) :
    Ends (scope.schema ≠ .inferred) before (fun result _ => HasFields scope.ids (propertyKeys v) result.1 ∧
      List.Forall₂ (Declares scope.ids holder) (propertyParts scope.schema type v) result.2)
      (lowerProperties scope type holder v) := by
  have named : ["properties"] = ["properties"].map Rust.fieldName := by decide +kernel
  cases v with
  | obj members => exact (declares_steps scope).fields_ends _ _ members before
  | null => exact .pure ⟨⟨rfl, List.forall_mem_nil _⟩, .nil⟩
  | _ => exact .pure ⟨⟨named, List.forall_mem_singleton.mpr (initial_json _).made⟩, .nil⟩

/-! ### Resources -/

/-- The parts of a resource, which has some only if there is a type for it. -/
def partsOf (schema : Schema) (r : Resource) : List Part :=
  match resourceType? schema r with
  | some _ => propertyParts schema r.type r.properties
  | none => []

/-- The fields of a resource's declaration before what the template says beside the properties. -/
def OwnFields (ids : Identifiers) (schema : Schema) (r : Resource) (fields : List (String × Expr)) : Prop :=
  match resourceType? schema r with
  | some _ => HasFields ids (propertyKeys r.properties) fields
  | none => FieldsOf ids rawFields fields

/-- `own` is the declaration of a resource, and `parts` are those of its parts. -/
structure DeclaresResource (ids : Identifiers) (schema : Schema) (logical : String) (r : Resource) (own : Static)
    (parts : List Static) : Prop where
  named : own.ident = ids.of .resource logical
  top : own.topLevel = true
  body : ∃ type fields, own.body = .struct type (fields ++ metaField r) ∧ OwnFields ids schema r fields
  parts : List.Forall₂ (Declares ids own.ident) (partsOf schema r) parts

theorem OwnFields.made {schema : Schema} {r : Resource} {fields : List (String × Expr)}
    (own : OwnFields ids schema r fields) : FieldsMade ids fields := by
  unfold OwnFields at own
  split at own
  · exact own.2
  · exact own.made

theorem lowerResource_declares {logical : String} {r : Resource} {statics : List Static} {stages : List Stage}
    (done : (lowerResource ids schema logical r).run before = .ok ((statics, stages), after)) :
    ∃ own parts, statics = own :: parts ∧ DeclaresResource ids schema logical r own parts := by
  have typed : (DeclaredType.ofCanonical? r.type).filter (fun _ => schema.supports r.type) = resourceType? schema r := rfl
  rw [lowerResource, typed] at done
  cases found : resourceType? schema r with
  | none =>
    simp only [found, run_pure_eq_ok, Prod.mk.injEq] at done
    obtain ⟨⟨rfl, rfl⟩, rfl⟩ := done
    obtain ⟨fields, body, of⟩ := placeholder_body ids (ids.of .resource logical) (unsupported r) r
    refine ⟨_, [], rfl, rfl, rfl, ⟨_, fields, body, ?_⟩, ?_⟩
    · rw [OwnFields, found]
      exact of
    · rw [partsOf, found]
      exact .nil
  | some declared =>
    simp only [found, run_bind_eq_ok, run_pure_eq_ok, Prod.exists, Prod.mk.injEq] at done
    obtain ⟨fields, parts, _, inner, ⟨rfl, rfl⟩, rfl⟩ := done
    obtain ⟨own, others⟩ := (lowerProperties_declares _ _ _ _ _).of_run inner
    refine ⟨_, parts, rfl, rfl, rfl, ⟨_, fields, rfl, ?_⟩, ?_⟩
    · rw [OwnFields, found]
      exact own
    · rw [partsOf, found]
      exact others

/-- The declarations of resources follow each other, each before those of its parts. -/
theorem lowerResources_declares {resources : List (String × Resource)} {statics : List Static} {start progress : Progress}
    (done : (lowerResources ids schema resources start).run before = .ok ((statics, progress), after)) :
    ∃ groups : List (Static × List Static), statics = groups.flatMap (fun group => group.1 :: group.2) ∧
      List.Forall₂ (fun e group => DeclaresResource ids schema e.1 e.2 group.1 group.2) resources groups := by
  induction resources generalizing before statics start with
  | nil =>
    simp only [lowerResources, run_pure_eq_ok, Prod.mk.injEq] at done
    obtain ⟨⟨rfl, rfl⟩, rfl⟩ := done
    exact ⟨[], rfl, .nil⟩
  | cons entry rest ih =>
    obtain ⟨logical, r⟩ := entry
    simp only [lowerResources, run_bind_eq_ok, run_pure_eq_ok, Prod.exists, Prod.mk.injEq] at done
    obtain ⟨statics, stages, mid, first, others, _, _, later, ⟨rfl, rfl⟩, rfl⟩ := done
    obtain ⟨own, parts, rfl, declares⟩ := lowerResource_declares first
    obtain ⟨groups, rfl, each⟩ := ih later
    exact ⟨(own, parts) :: groups, rfl, .cons declares each⟩

end StackCompiler.Import
