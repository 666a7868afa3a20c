import StackCompiler.Proofs.Import.Objects
import StackCompiler.Proofs.Template.Dotted

/-!
What the references of generated source go through. Every reference carries the identifier
that is found for its name, wherever it stands (`Link`). Resources and parameters are found
under one name, a parameter first: a reference to the name of both goes through the
parameter, whatever was meant.
-/
namespace StackCompiler.Import

open Rust (Expr NameTable)

/-! ### Initialisers -/

/-- A reference carries the identifier that is found for its target. -/
@[simp] def Link (ids : Identifiers) : Expr → Prop
  | .ref target slot => slot = ids.ofReference? target
  | .attr target _ slot => slot = ids.ofAttribute? target
  | _ => True

/-- Every reference of an initialiser carries the identifier that is found for its target. -/
def Linked (ids : Identifiers) (e : Expr) : Prop := e.Everywhere (Link ids)

def FieldsLinked (ids : Identifiers) (fields : List (String × Expr)) : Prop := ∀ e ∈ fields.map (·.2), Linked ids e

variable {ids : Identifiers}

/-- What is made for a value is linked. -/
theorem AllMade.linked {e : Expr} (made : AllMade ids e) : Linked ids e := by
  refine made.mono fun w node => ?_
  cases w with
  | ref _ _ | attr _ _ _ => exact node
  | _ => trivial

theorem FieldsMade.linked {fields : List (String × Expr)} (made : FieldsMade ids fields) : FieldsLinked ids fields :=
  fun e member => (made e member).linked

theorem linked_struct_iff (type : String) (fields : List (String × Expr)) :
    Linked ids (.struct type fields) ↔ FieldsLinked ids fields := by
  rw [Linked, Expr.everywhere_struct]
  exact and_iff_right trivial

/-! ### Entries -/

theorem FieldsOf.linked {names : List String} {fields : List (String × Expr)} (of : FieldsOf ids names fields)
    (type : String) : Linked ids (.struct type fields) :=
  (linked_struct_iff type fields).mpr of.made.linked

theorem fieldsLinked_metaField (r : Resource) : FieldsLinked ids (metaField r) :=
  forall_metaField ids (fun _ of => of.linked _) r

theorem Declares.linked {holder : String} {part : Part} {s : Static} (declares : Declares ids holder part s) :
    Linked ids s.body := by
  obtain ⟨type, fields, body, -, made⟩ := declares.body
  rw [body, linked_struct_iff]
  exact made.linked

theorem DeclaresResource.linked {schema : Schema} {logical : String} {r : Resource} {own : Static} {parts : List Static}
    (declares : DeclaresResource ids schema logical r own parts) : ∀ s ∈ own :: parts, Linked ids s.body := by
  refine List.forall_mem_cons.mpr ⟨?_, fun s member => ?_⟩
  · obtain ⟨type, fields, body, ownFields⟩ := declares.body
    rw [body, linked_struct_iff, FieldsLinked, List.map_append, List.forall_mem_append]
    exact ⟨ownFields.made.linked, fieldsLinked_metaField r⟩
  · obtain ⟨part, -, declares⟩ := exists_mem_of_forall₂ declares.parts member
    exact declares.linked

theorem lowerResources_linked {schema : Schema} {resources : List (String × Resource)} {before after : NameTable}
    {statics : List Static} {start progress : Progress}
    (done : (lowerResources ids schema resources start).run before = .ok ((statics, progress), after)) :
    ∀ s ∈ statics, Linked ids s.body := by
  obtain ⟨groups, rfl, each⟩ := lowerResources_declares done
  refine List.forall_mem_flatMap.mpr fun group member => ?_
  obtain ⟨e, -, declares⟩ := exists_mem_of_forall₂ each member
  exact declares.linked

theorem EntryBody.linked {type : String} {e : Expr} (body : EntryBody ids type e) : Linked ids e := by
  cases body with
  | constructed _ initial => exact ((allMade_call _ _).mpr (List.forall_mem_singleton.mpr initial.made)).linked
  | struct _ of => exact of.linked _

theorem otherStatics_linked (t : Template) : ∀ s ∈ otherStatics ids t, Linked ids s.body :=
  fun s member => (otherStatics_body t s member).2.linked

/-! ### Templates -/

section Templates

variable {schema : Schema} {t : Template} {statics : List Static} {progress : Progress}

/-- The identifier of an entry's declaration. Entries are declared in their order. -/
def declared? (t : Template) (statics : List Static) (kind : EntryKind) (logical : String) : Option String :=
  ((entriesOf t).zip (topIdents statics)).lookup (kind, logical)

/-- Lowering a template gives linked declarations, with the identifiers of the entries' declarations. -/
theorem lowerTemplate_linked (distinct : (entriesOf t).Nodup) (lowered : lowerTemplate schema t = .ok (statics, progress)) :
    ∃ ids, ids.find? = declared? t statics ∧ ids.entries.map (·.1) = entriesOf t ∧ ids.idents.Nodup ∧
      ∀ s ∈ statics, Linked ids s.body := by
  obtain ⟨ids, mid, after, assigned, declared⟩ := lowerTemplate_declared lowered
  obtain ⟨keys, -, -⟩ := assignIdents_takes assigned
  have tops := topIdents_eq_idents distinct assigned declared
  refine ⟨ids, ?found, keys, ?nodup, ?linked⟩
  case found =>
    funext kind logical
    rw [declared?, tops, ← keys, Identifiers.idents, List.zip_map']
    simp [Identifiers.find?]
  case nodup =>
    rw [← tops]
    exact ((lowerTemplate_forest distinct lowered).distinct).sublist (List.filter_sublist.map _)
  case linked =>
    obtain ⟨again, table, resources, _, same, run, rfl⟩ := lowerTemplate_eq_ok lowered
    obtain ⟨rfl, rfl⟩ : ids = again ∧ mid = table := by simpa using assigned.symm.trans same
    exact List.forall_mem_append.mpr ⟨lowerResources_linked run, otherStatics_linked t⟩

theorem entriesOf_nodup (resources : (memberNames t.resources).Nodup) (parameters : (memberNames t.parameters).Nodup)
    (mappings : (memberNames t.mappings).Nodup) (conditions : (memberNames t.conditions).Nodup)
    (outputs : (memberNames t.outputs).Nodup) : (entriesOf t).Nodup := by
  have apart {kind other : EntryKind} (differ : kind ≠ other) (names others : List String) :
      (names.map (kind, ·)).Disjoint (others.map (other, ·)) := by
    simp [List.disjoint_left, differ.symm]
  simp only [entriesOf, List.nodup_append', List.nodup_map_iff (Prod.mk_right_injective _), List.disjoint_append_left]
  simp [apart, resources, parameters, mappings, conditions, outputs]

/-- No section of a text has two entries of one name. -/
theorem entriesOf_nodup_of_parse {text : String} {format : Format} (parsed : Template.parse text = .ok (t, format)) :
    (entriesOf t).Nodup := by
  obtain ⟨root, fits, read⟩ := Template.parse_eq_ok parsed
  have fields := (Template.ofMembers_eq_ok root t).mp read
  exact entriesOf_nodup (Template.readSection_nodup fits fields.resources) (Template.readSection_nodup fits fields.parameters)
    (Template.readSection_nodup fits fields.mappings) (Template.readSection_nodup fits fields.conditions)
    (Template.readSection_nodup fits fields.outputs)

/-- A name is that of a resource and that of a parameter. -/
def Shared (t : Template) (logical : String) : Prop :=
  logical ∈ memberNames t.resources ∧ logical ∈ memberNames t.parameters

theorem Identifiers.find?_eq_none_iff (keys : ids.entries.map (·.1) = entriesOf t) (kind : EntryKind) (logical : String) :
    ids.find? kind logical = none ↔ (kind, logical) ∉ entriesOf t := by
  simp only [find?, List.lookup_eq_none_iff, ← keys, bne_iff_ne, List.mem_map, not_exists, not_and]
  exact forall₂_congr fun e _ => ne_comm

theorem Identifiers.key_of_find? (distinct : ids.idents.Nodup) {kind other : EntryKind} {logical name ident : String}
    (found : ids.find? kind logical = some ident) (also : ids.find? other name = some ident) :
    (kind, logical) = (other, name) :=
  congrArg Prod.fst (List.inj_on_of_nodup_map distinct (mem_of_lookup found) (mem_of_lookup also) rfl)

/-- Where a name is shared, its resource and its parameter have different identifiers. -/
theorem shared_iff (keys : ids.entries.map (·.1) = entriesOf t) (distinct : ids.idents.Nodup) (logical : String) :
    Shared t logical ↔ ∃ r p, ids.find? .resource logical = some r ∧ ids.find? .parameter logical = some p ∧ r ≠ p := by
  have resource : logical ∈ memberNames t.resources ↔ ids.find? .resource logical ≠ none := by
    rw [Ne, ids.find?_eq_none_iff keys]
    simp [entriesOf]
  have parameter : logical ∈ memberNames t.parameters ↔ ids.find? .parameter logical ≠ none := by
    rw [Ne, ids.find?_eq_none_iff keys]
    simp [entriesOf]
  rw [Shared, resource, parameter, Option.ne_none_iff_exists', Option.ne_none_iff_exists']
  constructor
  · rintro ⟨⟨r, asResource⟩, p, asParameter⟩
    refine ⟨r, p, asResource, asParameter, ?_⟩
    rintro rfl
    cases ids.key_of_find? distinct asResource asParameter
  · rintro ⟨r, p, asResource, asParameter, -⟩
    exact ⟨⟨r, asResource⟩, p, asParameter⟩

end Templates

/-! ### What references go through -/

variable (t : Template) (statics : List Static)

/-- A reference goes through what it names: one to an attribute through the resource, any other through
    the resource or, where no resource has the name, through the parameter. -/
def GoesRight : Expr → Prop
  | .ref target slot => slot = (declared? t statics .resource target <|> declared? t statics .parameter target)
  | .attr target _ slot => slot = declared? t statics .resource target
  | _ => True

/-- A reference goes through the parameter that it names, and through the resource where no parameter
    has the name. One to an attribute does so if there is such a resource. -/
def ParameterFirst : Expr → Prop
  | .ref target slot => slot = (declared? t statics .parameter target <|> declared? t statics .resource target)
  | .attr target _ slot =>
    slot = if (declared? t statics .resource target).isSome then
      declared? t statics .parameter target <|> declared? t statics .resource target else none
  | _ => True

/-- What a reference names is not both a resource and a parameter. -/
def Unshared : Expr → Prop
  | .ref target _ => ¬ Shared t target
  | .attr target _ _ => ¬ Shared t target
  | _ => True

variable {t statics}

theorem parameterFirst_of_link (found : ids.find? = declared? t statics) {e : Expr} (link : Link ids e) :
    ParameterFirst t statics e := by
  cases e with
  | ref target slot | attr target name slot =>
    rw [ParameterFirst, ← found]
    exact link
  | _ => trivial

/-- A reference that carries what is found for its target goes right unless its target is shared. -/
theorem goesRight_iff_of_link (found : ids.find? = declared? t statics) (keys : ids.entries.map (·.1) = entriesOf t)
    (distinct : ids.idents.Nodup) {e : Expr} (link : Link ids e) : GoesRight t statics e ↔ Unshared t e := by
  cases e with
  | ref target slot =>
    obtain rfl : slot = ids.ofReference? target := link
    rw [GoesRight, Unshared, ← found, shared_iff keys distinct, Identifiers.ofReference?]
    cases asResource : ids.find? .resource target <;> cases asParameter : ids.find? .parameter target <;> simp [eq_comm]
  | attr target name slot =>
    obtain rfl : slot = ids.ofAttribute? target := link
    rw [GoesRight, Unshared, ← found, shared_iff keys distinct, Identifiers.ofAttribute?, Identifiers.ofReference?]
    cases asResource : ids.find? .resource target <;> cases asParameter : ids.find? .parameter target <;> simp [eq_comm]
  | _ => exact Iff.rfl

/-- For a template that was read, every entry has a declaration, and every reference goes through a
    parameter first. So all references go through what they name exactly if none names both a
    resource and a parameter. -/
theorem references_right_iff_unshared {text : String} {format : Format} {schema : Schema} {t : Template}
    {statics : List Static} {progress : Progress} (parsed : Template.parse text = .ok (t, format))
    (lowered : lowerTemplate schema t = .ok (statics, progress)) :
    (∀ kind logical, (declared? t statics kind logical).isSome ↔ (kind, logical) ∈ entriesOf t) ∧
      (∀ s ∈ statics, s.body.Everywhere (ParameterFirst t statics)) ∧
      ((∀ s ∈ statics, s.body.Everywhere (GoesRight t statics)) ↔ ∀ s ∈ statics, s.body.Everywhere (Unshared t)) := by
  obtain ⟨ids, found, keys, distinct, linked⟩ := lowerTemplate_linked (entriesOf_nodup_of_parse parsed) lowered
  refine ⟨fun kind logical => ?declared, fun s member w inside => ?first, ?right⟩
  case declared => rw [← found, ← Option.ne_none_iff_isSome, Ne, ids.find?_eq_none_iff keys, not_not]
  case first => exact parameterFirst_of_link found (linked s member w inside)
  case right =>
    refine forall₂_congr fun s member => forall₂_congr fun w inside => ?_
    exact goesRight_iff_of_link found keys distinct (linked s member w inside)

/-- A key with the name of a type that is imported, and a parameter with the name that the key's
    declaration has instead. -/
def tagText : String :=
  "\x7b\"Parameters\":\x7b\"Tag2\":\x7b\"Type\":\"String\"\x7d\x7d,\"Resources\":\x7b\"Tag\":\x7b\"Type\":\"AWS::KMS::Key\"\x7d\x7d,\"Outputs\":\x7b\"Arn\":\x7b\"Value\":[\x7b\"Ref\":\"Tag2\"\x7d,\x7b\"Fn::GetAtt\":[\"Tag\",\"Arn\"]\x7d]\x7d\x7d\x7d"

def tagTemplate : Template :=
  { Template.empty with
    parameters := [("Tag2", { type := "String" })]
    resources := [("Tag", { type := "AWS::KMS::Key", properties := .null })]
    outputs := [("Arn", { value := .arr [.fn (.ref "Tag2"), .fn (.getAtt ⟨"Tag", "Arn"⟩)] })] }

theorem references_right_tag :
    Template.parse tagText = .ok (tagTemplate, .json) ∧
      ∃ statics progress, lowerTemplate .inferred tagTemplate = .ok (statics, progress) ∧
        declared? tagTemplate statics .resource "Tag" = some "Tag2" ∧
        declared? tagTemplate statics .parameter "Tag2" = some "Tag22" ∧
        (statics.map (·.body.directReferences)).flatten = [("Tag22", true), ("Tag2", true)] ∧
        ∀ s ∈ statics, s.body.Everywhere (GoesRight tagTemplate statics) := by
  have parsed : Template.parse tagText = .ok (tagTemplate, .json) := by decide +kernel
  have computed : ((lowerTemplate .inferred tagTemplate).toOption.map fun r =>
      (topIdents r.1, (r.1.map (·.body.directReferences)).flatten)) =
      some (["Tag2", "Tag22", "Arn"], [("Tag22", true), ("Tag2", true)]) := by decide +kernel
  have apart (logical : String) : ¬ Shared tagTemplate logical := by
    rintro ⟨resource, parameter⟩
    obtain rfl := List.mem_singleton.mp resource
    exact absurd (List.mem_singleton.mp parameter) (by decide)
  have unshared (e : Expr) : Unshared tagTemplate e := by
    cases e with
    | ref target _ | attr target _ _ => exact apart target
    | _ => trivial
  cases lowered : lowerTemplate .inferred tagTemplate with
  | error _ => rw [lowered] at computed; cases computed
  | ok r =>
    obtain ⟨statics, progress⟩ := r
    rw [lowered] at computed
    obtain ⟨tops, direct⟩ := Prod.mk.inj (Option.some.inj computed)
    have right := (references_right_iff_unshared parsed lowered).2.2.mpr fun _ _ e _ => unshared e
    exact ⟨parsed, statics, progress, rfl, by rw [declared?, tops]; decide, by rw [declared?, tops]; decide, direct, right⟩

/-- A key and a parameter of one name, and an attribute of the key. -/
def sharedText : String :=
  "\x7b\"Parameters\":\x7b\"Key\":\x7b\"Type\":\"String\"\x7d\x7d,\"Resources\":\x7b\"Key\":\x7b\"Type\":\"AWS::KMS::Key\"\x7d\x7d,\"Outputs\":\x7b\"Arn\":\x7b\"Value\":\x7b\"Fn::GetAtt\":[\"Key\",\"Arn\"]\x7d\x7d\x7d\x7d"

def sharedTemplate : Template :=
  { Template.empty with
    parameters := [("Key", { type := "String" })]
    resources := [("Key", { type := "AWS::KMS::Key", properties := .null })]
    outputs := [("Arn", { value := .fn (.getAtt ⟨"Key", "Arn"⟩) })] }

/-- The attribute of the key is taken of the parameter's declaration. -/
theorem attribute_of_parameter :
    Template.parse sharedText = .ok (sharedTemplate, .json) ∧
      ∃ statics progress, lowerTemplate .inferred sharedTemplate = .ok (statics, progress) ∧
        declared? sharedTemplate statics .resource "Key" = some "Key" ∧
        declared? sharedTemplate statics .parameter "Key" = some "Key2" ∧
        (∃ s ∈ statics, (Expr.attr "Key" "Arn" (some "Key2")).Occurs s.body) ∧
        ¬ ∀ s ∈ statics, s.body.Everywhere (GoesRight sharedTemplate statics) := by
  have computed : ((lowerTemplate .inferred sharedTemplate).toOption.map fun r => topIdents r.1) =
      some ["Key", "Key2", "Arn"] := by decide +kernel
  cases lowered : lowerTemplate .inferred sharedTemplate with
  | error _ => rw [lowered] at computed; cases computed
  | ok r =>
    obtain ⟨statics, progress⟩ := r
    rw [lowered] at computed
    have tops : topIdents statics = ["Key", "Key2", "Arn"] := Option.some.inj computed
    have resource : declared? sharedTemplate statics .resource "Key" = some "Key" := by
      rw [declared?, tops]
      decide
    have parameter : declared? sharedTemplate statics .parameter "Key" = some "Key2" := by
      rw [declared?, tops]
      decide
    obtain ⟨ids, found, -, -, linked⟩ := lowerTemplate_linked (by decide) lowered
    obtain ⟨again, _, resources, _, -, -, rfl⟩ := lowerTemplate_eq_ok lowered
    obtain ⟨output, member, node⟩ : ∃ s ∈ resources ++ otherStatics again sharedTemplate,
        (Expr.attr "Key" "Arn" (again.ofAttribute? "Key")).Occurs s.body :=
      ⟨outputStatic again "Arn" { value := .fn (.getAtt ⟨"Key", "Arn"⟩) },
        List.mem_append_right _ (List.mem_append_right _ List.mem_cons_self), .single (List.mem_singleton.mpr rfl)⟩
    have slot : again.ofAttribute? "Key" = some "Key2" := by
      have link : again.ofAttribute? "Key" = ids.ofAttribute? "Key" := linked output member _ node
      rw [link, Identifiers.ofAttribute?, Identifiers.ofReference?, found, resource, parameter]
      rfl
    rw [slot] at node
    refine ⟨by decide +kernel, _, progress, rfl, resource, parameter, ⟨output, member, node⟩, fun all => ?_⟩
    have wrong : some "Key2" = declared? sharedTemplate _ .resource "Key" := all output member _ node
    exact absurd (wrong.trans resource) (by decide)

end StackCompiler.Import
