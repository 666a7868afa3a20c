import StackCompiler.Proofs.Outcome
import StackCompiler.Template.Reader

/-!
Reading a template taken apart. For each reader there is one statement of what its result
must be for the members that it reads (`IsParameter`, `IsResource`, `IsOutput`,
`IsTemplate`), which holds exactly when it gives that result. Inverting a reader and
computing what it gives are two uses of the same statement.
-/
namespace StackCompiler.Template

/-! ### Entries -/

theorem entryMembers_eq_ok (sectionName name : String) (json : Json) (body : List (String × Json)) :
    entryMembers sectionName name json = .ok body ↔ json = .obj body := by
  cases json <;> simp [entryMembers]

/-- `p` is the parameter that the members of an entry describe. -/
structure IsParameter (name : String) (body : List (String × Json)) (p : Parameter) : Prop where
  type : textField name body "Type" = .ok (some p.type)
  description : textField name body "Description" = .ok p.description
  default : readOptionalValue "Parameters" name (body.lookup "Default") = .ok p.default
  allowedValues : readAllowedValues name (body.lookup "AllowedValues") = .ok p.allowedValues
  allowedPattern : textField name body "AllowedPattern" = .ok p.allowedPattern
  constraintDescription : textField name body "ConstraintDescription" = .ok p.constraintDescription
  minLength : lengthField name body "MinLength" = .ok p.minLength
  maxLength : lengthField name body "MaxLength" = .ok p.maxLength
  minValue : numberField name body "MinValue" = .ok p.minValue
  maxValue : numberField name body "MaxValue" = .ok p.maxValue
  noEcho : readNoEcho name (body.lookup "NoEcho") = .ok p.noEcho

theorem readParameter_eq_ok (name : String) (json : Json) (p : Parameter) :
    readParameter name json = .ok p ↔ ∃ body, json = .obj body ∧ IsParameter name body p := by
  unfold readParameter
  simp only [bind_eq_ok, entryMembers_eq_ok]
  refine exists_congr fun body => and_congr_right fun _ => ?_
  constructor
  · rintro ⟨type, found, done⟩
    cases type with
    | none => simp at done
    | some type =>
      simp only [bind_eq_ok, pure_eq_ok] at done
      obtain ⟨_, description, _, default, _, allowed, _, pattern, _, constraint, _, minLength, _, maxLength, _,
        minValue, _, maxValue, _, noEcho, rfl⟩ := done
      exact ⟨found, description, default, allowed, pattern, constraint, minLength, maxLength, minValue, maxValue,
        noEcho⟩
  · intro fields
    refine ⟨_, fields.type, ?_⟩
    simp only [bind_eq_ok, pure_eq_ok]
    exact ⟨_, fields.description, _, fields.default, _, fields.allowedValues, _, fields.allowedPattern, _,
      fields.constraintDescription, _, fields.minLength, _, fields.maxLength, _, fields.minValue, _,
      fields.maxValue, _, fields.noEcho, rfl⟩

/-- `r` is the resource that the members of an entry describe. -/
structure IsResource (name : String) (body : List (String × Json)) (r : Resource) : Prop where
  type : textField name body "Type" = .ok (some r.type)
  typed : r.type.isEmpty = false
  properties : ∃ found, readOptionalValue "Resources" name (body.lookup "Properties") = .ok found ∧
    found.getD .null = r.properties
  dependsOn : readDependsOn name (body.lookup "DependsOn") = .ok r.dependsOn
  condition : textField name body "Condition" = .ok r.condition
  deletionPolicy : textField name body "DeletionPolicy" = .ok r.deletionPolicy
  updateReplacePolicy : textField name body "UpdateReplacePolicy" = .ok r.updateReplacePolicy
  metadata : readOptionalValue "Resources" name (body.lookup "Metadata") = .ok r.metadata

theorem readResourceType_eq_ok (name : String) (body : List (String × Json)) (type : String) :
    readResourceType name body = .ok type ↔ textField name body "Type" = .ok (some type) ∧ type.isEmpty = false := by
  unfold readResourceType
  simp only [bind_eq_ok]
  constructor
  · rintro ⟨_ | found, field, done⟩
    · simp at done
    · cases empty : found.isEmpty with
      | true => simp [empty] at done
      | false =>
        simp only [empty, Bool.false_eq_true, if_false, pure_eq_ok] at done
        exact done ▸ ⟨field, empty⟩
  · rintro ⟨field, typed⟩
    exact ⟨_, field, by simp [typed]⟩

theorem readResource_eq_ok (name : String) (json : Json) (r : Resource) :
    readResource name json = .ok r ↔ ∃ body, json = .obj body ∧ IsResource name body r := by
  unfold readResource
  simp only [bind_eq_ok, pure_eq_ok, entryMembers_eq_ok, readResourceType_eq_ok]
  refine exists_congr fun body => and_congr_right fun _ => ?_
  constructor
  · rintro ⟨_, ⟨type, typed⟩, _, properties, _, dependsOn, _, condition, _, deletion, _, replacement, _, metadata, rfl⟩
    exact ⟨type, typed, ⟨_, properties, rfl⟩, dependsOn, condition, deletion, replacement, metadata⟩
  · intro fields
    obtain ⟨found, properties, same⟩ := fields.properties
    exact ⟨_, ⟨fields.type, fields.typed⟩, found, properties, _, fields.dependsOn, _, fields.condition, _,
      fields.deletionPolicy, _, fields.updateReplacePolicy, _, fields.metadata, by rw [same]⟩

/-- `o` is the output that the members of an entry describe. -/
structure IsOutput (name : String) (body : List (String × Json)) (o : Output) : Prop where
  description : textField name body "Description" = .ok o.description
  value : ∃ json, body.lookup "Value" = some json ∧ readValue "Outputs" name json = .ok o.value
  exportName : readExport name (body.lookup "Export") = .ok o.exportName
  condition : textField name body "Condition" = .ok o.condition

theorem readOutput_eq_ok (name : String) (json : Json) (o : Output) :
    readOutput name json = .ok o ↔ ∃ body, json = .obj body ∧ IsOutput name body o := by
  unfold readOutput
  simp only [bind_eq_ok, entryMembers_eq_ok]
  refine exists_congr fun body => and_congr_right fun _ => ?_
  cases found : body.lookup "Value" with
  | none =>
    constructor
    · intro done
      exact absurd done (throw_ne_ok _ _)
    · rintro ⟨-, ⟨json, value, -⟩, -, -⟩
      rw [found] at value
      cases value
  | some json =>
    simp only [bind_eq_ok, pure_eq_ok]
    constructor
    · rintro ⟨_, exportName, _, description, _, value, _, condition, rfl⟩
      exact ⟨description, ⟨json, found, value⟩, exportName, condition⟩
    · rintro ⟨description, ⟨doc, value, read⟩, exportName, condition⟩
      rw [found] at value
      cases value
      exact ⟨_, exportName, _, description, _, read, _, condition, rfl⟩

/-! ### Sections -/

variable {α : Type} {entry : String → Json → Except TemplateError α} {sectionName : String}

theorem readEntries_eq_ok (members : List (String × Json)) (entries : List (String × α)) :
    readEntries sectionName entry members = .ok entries ↔
      List.Forall₂ (fun member read => nameProblem? member.1 = none ∧ read.1 = member.1 ∧
        entry member.1 member.2 = .ok read.2) members entries := by
  induction members generalizing entries with
  | nil =>
    rw [readEntries, pure_eq_ok, List.forall₂_nil_left_iff]
    exact eq_comm
  | cons member rest ih =>
    rw [readEntries, List.forall₂_cons_left_iff]
    cases problem : nameProblem? member.1 with
    | some problem => simp
    | none =>
      simp only [bind_eq_ok, pure_eq_ok, ih, true_and]
      constructor
      · rintro ⟨value, first, others, later, rfl⟩
        exact ⟨_, _, ⟨rfl, first⟩, later, rfl⟩
      · rintro ⟨⟨_, value⟩, others, ⟨rfl, first⟩, later, rfl⟩
        exact ⟨value, first, others, later, rfl⟩

theorem readEntries_names {members : List (String × Json)} {entries : List (String × α)}
    (done : readEntries sectionName entry members = .ok entries) : memberNames entries = memberNames members := by
  refine List.forall₂_eq_eq_eq ▸ List.forall₂_map_left_iff.mpr (List.forall₂_map_right_iff.mpr ?_)
  exact ((readEntries_eq_ok members entries).mp done).flip.imp fun _ _ same => same.2.1

/-- A section is empty, or it is an object whose members are its entries. -/
theorem readSection_eq_ok {root : List (String × Json)} {entries : List (String × α)}
    (done : readSection root sectionName entry = .ok entries) :
    entries = [] ∨ ∃ members, root.lookup sectionName = some (.obj members) ∧
      readEntries sectionName entry members = .ok entries := by
  unfold readSection at done
  split at done
  · exact .inl ((pure_eq_ok _ _).mp done).symm
  · exact .inl ((pure_eq_ok _ _).mp done).symm
  · rename_i members found
    exact .inr ⟨members, found, done⟩
  · exact absurd done (throw_ne_ok _ _)

/-- Every entry of a section has a valid name and is read from a member of its own. -/
theorem readSection_entry {root : List (String × Json)} {entries : List (String × α)}
    (done : readSection root sectionName entry = .ok entries) {e : String × α} (member : e ∈ entries) :
    nameProblem? e.1 = none ∧ ∃ json, entry e.1 json = .ok e.2 := by
  rcases readSection_eq_ok done with rfl | ⟨members, -, read⟩
  · cases member
  · obtain ⟨source, -, valid, same, read⟩ := exists_mem_of_forall₂ ((readEntries_eq_ok members entries).mp read) member
    rw [same]
    exact ⟨valid, _, read⟩

/-! ### Documents -/

/-- The members of a document say what stands in `t`. -/
structure Describes (root : List (String × Json)) (t : Template) : Prop where
  formatVersion : ∃ version, topText root "AWSTemplateFormatVersion" = .ok version ∧
    version.getD currentVersion = t.formatVersion
  description : topText root "Description" = .ok t.description
  transform : readOptionalValue "Transform" "Transform" (root.lookup "Transform") = .ok t.transform
  parameters : readSection root "Parameters" readParameter = .ok t.parameters
  mappings : readSection root "Mappings" (readValue "Mappings") = .ok t.mappings
  conditions : readSection root "Conditions" (readValue "Conditions") = .ok t.conditions
  hasResources : hasMember "Resources" root = true
  resources : readSection root "Resources" readResource = .ok t.resources
  outputs : readSection root "Outputs" readOutput = .ok t.outputs

/-- `t` is the template that the members of a document describe. -/
structure IsTemplate (root : List (String × Json)) (t : Template) : Prop extends Describes root t where
  links : t.linkDefect? = none

/-- A document is read as what it describes, unless a dependency or a condition is missing there. -/
theorem Describes.ofMembers_eq {root : List (String × Json)} {t : Template} (fields : Describes root t) :
    ofMembers root = t.linkDefect?.elim (.ok t) fun defect => .error (.defect defect) := by
  obtain ⟨⟨version, versionRead, same⟩, description, transform, parameters, mappings, conditions, present, resources,
    outputs⟩ := fields
  unfold ofMembers
  rw [versionRead, description, transform, parameters, mappings, conditions, present, resources, outputs]
  simp only [bind, Except.bind, same, Bool.not_true, Bool.false_eq_true, if_false]
  cases t.linkDefect? <;> rfl

theorem ofMembers_eq_ok (root : List (String × Json)) (t : Template) :
    ofMembers root = .ok t ↔ IsTemplate root t := by
  constructor
  · unfold ofMembers
    simp only [bind_eq_ok]
    rintro ⟨version, versionRead, description, descriptionRead, transform, transformRead, parameters, parametersRead,
      mappings, mappingsRead, conditions, conditionsRead, done⟩
    cases present : hasMember "Resources" root with
    | false => simp [present] at done
    | true =>
      simp only [present, Bool.not_true, Bool.false_eq_true, if_false, bind_eq_ok] at done
      obtain ⟨resources, resourcesRead, outputs, outputsRead, done⟩ := done
      split at done
      · exact absurd done (throw_ne_ok _ _)
      · rename_i links
        obtain rfl := (pure_eq_ok _ _).mp done
        exact ⟨⟨⟨version, versionRead, rfl⟩, descriptionRead, transformRead, parametersRead, mappingsRead,
          conditionsRead, present, resourcesRead, outputsRead⟩, links⟩
  · intro fields
    rw [fields.toDescribes.ofMembers_eq, fields.links, Option.elim_none]

end StackCompiler.Template
