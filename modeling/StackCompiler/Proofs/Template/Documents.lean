import StackCompiler.Proofs.Members
import StackCompiler.Proofs.Template.Reading
import StackCompiler.Proofs.Template.Values

/-!
Reading a document that was written. A document is written with some way to spell values
(`Template.document`); where reading turns each spelled value into a value, reading the
document gives the template with these values (`ofJson_document`), provided that it passes
the checks of reading (`Acceptable`).
-/
namespace StackCompiler

/-! ### Documents -/

/-- The document of a parameter whose values are written by `spell`. -/
def Parameter.document (spell : Value → Json) (p : Parameter) : Json :=
  .obj ([("Type", .str p.type)]
    ++ optionalMember "Description" .str p.description
    ++ optionalMember "Default" spell p.default
    ++ listMember "AllowedValues" (fun values => .arr (values.map spell)) p.allowedValues
    ++ optionalMember "AllowedPattern" .str p.allowedPattern
    ++ optionalMember "ConstraintDescription" .str p.constraintDescription
    ++ optionalMember "MinLength" .nat p.minLength
    ++ optionalMember "MaxLength" .nat p.maxLength
    ++ optionalMember "MinValue" .num p.minValue
    ++ optionalMember "MaxValue" .num p.maxValue
    ++ (if p.noEcho then [("NoEcho", .bool true)] else []))

def Resource.document (spell : Value → Json) (r : Resource) : Json :=
  .obj ([("Type", .str r.type)]
    ++ optionalMember "Condition" .str r.condition
    ++ listMember "DependsOn" .strings r.dependsOn
    ++ (if r.hasProperties then [("Properties", spell r.properties)] else [])
    ++ optionalMember "DeletionPolicy" .str r.deletionPolicy
    ++ optionalMember "UpdateReplacePolicy" .str r.updateReplacePolicy
    ++ optionalMember "Metadata" spell r.metadata)

def Output.document (spell : Value → Json) (o : Output) : Json :=
  .obj (optionalMember "Description" .str o.description
    ++ optionalMember "Condition" .str o.condition
    ++ [("Value", spell o.value)]
    ++ optionalMember "Export" (fun name => .obj [("Name", spell name)]) o.exportName)

def Template.document (spell : Value → Json) (t : Template) : Json :=
  .obj ([("AWSTemplateFormatVersion", .str t.formatVersion)]
    ++ optionalMember "Description" .str t.description
    ++ optionalMember "Transform" spell t.transform
    ++ listMember "Parameters" (sectionJson (Parameter.document spell)) t.parameters
    ++ listMember "Mappings" (sectionJson spell) t.mappings
    ++ listMember "Conditions" (sectionJson spell) t.conditions
    ++ [("Resources", sectionJson (Resource.document spell) t.resources)]
    ++ listMember "Outputs" (sectionJson (Output.document spell)) t.outputs)

theorem Template.toJson_eq_document (t : Template) : t.toJson = t.document Value.toJson := rfl

/-! ### Other values -/

def Parameter.mapValues (f : Value → Value) (p : Parameter) : Parameter :=
  { p with default := p.default.map f, allowedValues := p.allowedValues.map f }

/-- Properties that are not written become null. -/
def Resource.mapValues (f : Value → Value) (r : Resource) : Resource :=
  { r with
    properties := if r.hasProperties then f r.properties else .null
    metadata := r.metadata.map f }

def Output.mapValues (f : Value → Value) (o : Output) : Output :=
  { o with value := f o.value, exportName := o.exportName.map f }

def Template.mapValues (f : Value → Value) (t : Template) : Template :=
  { t with
    transform := t.transform.map f
    parameters := mapEntries (Parameter.mapValues f) t.parameters
    mappings := mapEntries f t.mappings
    conditions := mapEntries f t.conditions
    resources := mapEntries (Resource.mapValues f) t.resources
    outputs := mapEntries (Output.mapValues f) t.outputs }

theorem optionalMember_map {α β : Type} (name : String) (encode : β → Json) (f : α → β) (o : Option α) :
    optionalMember name encode (o.map f) = optionalMember name (fun a => encode (f a)) o := by
  cases o <;> rfl

theorem sectionJson_mapEntries {α β : Type} (encode : β → Json) (f : α → β) (entries : List (String × α)) :
    sectionJson encode (mapEntries f entries) = sectionJson (fun a => encode (f a)) entries := by
  simp [sectionJson, mapEntries]

theorem listMember_mapEntries {α β : Type} (name : String) (encode : β → Json) (f : α → β)
    (entries : List (String × α)) :
    listMember name (sectionJson encode) (mapEntries f entries) =
      listMember name (sectionJson fun a => encode (f a)) entries := by
  rw [listMember, listMember, sectionJson_mapEntries]
  simp [mapEntries]

theorem Parameter.toJson_mapValues (f : Value → Value) (p : Parameter) :
    (p.mapValues f).toJson = p.document fun v => (f v).toJson := by
  have allowed : listMember "AllowedValues" (fun values => .arr (values.map Value.toJson)) (p.allowedValues.map f) =
      listMember "AllowedValues" (fun values => .arr (values.map fun v => (f v).toJson)) p.allowedValues := by
    simp [listMember, Function.comp_def]
  unfold Parameter.toJson Parameter.document Parameter.mapValues
  rw [optionalMember_map, allowed]

theorem Resource.toJson_mapValues {f : Value → Value} {r : Resource}
    (kept : (r.mapValues f).hasProperties = r.hasProperties) :
    (r.mapValues f).toJson = r.document fun v => (f v).toJson := by
  unfold Resource.toJson Resource.document
  rw [kept]
  cases written : r.hasProperties <;> simp [mapValues, written, optionalMember_map]

theorem Resource.properties_of_unwritten {r : Resource} (unwritten : r.hasProperties = false) :
    r.properties = .null ∨ r.properties = .obj [] := by
  unfold hasProperties at unwritten
  split at unwritten
  · exact .inl ‹_›
  · rename_i members same
    have none : members = [] := by simpa using unwritten
    exact .inr (none ▸ same)
  · cases unwritten

/-- Properties that are not written are null after any change, and are not written again. -/
theorem Resource.hasProperties_mapValues {f : Value → Value} {r : Resource}
    (kept : { r with properties := f r.properties }.hasProperties = r.hasProperties) :
    (r.mapValues f).hasProperties = r.hasProperties := by
  cases written : r.hasProperties with
  | false =>
    have changed : (r.mapValues f).properties = .null := by simp [mapValues, written]
    rw [hasProperties, changed]
  | true =>
    have changed : (r.mapValues f).properties = f r.properties := by simp [mapValues, written]
    rw [hasProperties, changed]
    exact kept.trans written

theorem Output.toJson_mapValues (f : Value → Value) (o : Output) :
    (o.mapValues f).toJson = o.document fun v => (f v).toJson := by
  unfold Output.toJson Output.document Output.mapValues
  rw [optionalMember_map]

/-- Changing values and writing the template is writing the changed values. -/
theorem Template.toJson_mapValues {f : Value → Value} {t : Template}
    (kept : ∀ e ∈ t.resources, (e.2.mapValues f).hasProperties = e.2.hasProperties) :
    (t.mapValues f).toJson = t.document fun v => (f v).toJson := by
  have resources : sectionJson (fun r => (Resource.mapValues f r).toJson) t.resources =
      sectionJson (Resource.document fun v => (f v).toJson) t.resources := by
    simp only [sectionJson, Json.obj.injEq]
    exact List.map_congr_left fun e member => congrArg (e.1, ·) (Resource.toJson_mapValues (kept e member))
  unfold Template.toJson Template.mapValues Template.document
  simp only [optionalMember_map, listMember_mapEntries, sectionJson_mapEntries, Parameter.toJson_mapValues,
    Output.toJson_mapValues, resources]

/-! ### Members of a document -/

@[simp] theorem lookup_member (name key : String) (json : Json) (rest : List (String × Json)) :
    ((name, json) :: rest).lookup key = if key = name then some json else rest.lookup key := by
  by_cases same : key = name
  · simp [same]
  · simp [List.lookup_cons, beq_false_of_ne same, same]

@[simp] theorem lookup_memberIf (name key : String) (json : Json) (written : Prop) [Decidable written] :
    (if written then [(name, json)] else []).lookup key = if key = name ∧ written then some json else none := by
  by_cases yes : written <;> simp [yes]

@[simp] theorem lookup_optionalMember {α : Type} (name key : String) (encode : α → Json) (o : Option α) :
    (optionalMember name encode o).lookup key = if key = name then o.map encode else none := by
  cases o with
  | none => simp [optionalMember]
  | some a => simp [optionalMember]

@[simp] theorem lookup_listMember {α : Type} (name key : String) (encode : List α → Json) (items : List α) :
    (listMember name encode items).lookup key = if key = name ∧ items ≠ [] then some (encode items) else none := by
  cases items with
  | nil => simp [listMember]
  | cons item rest => simp [listMember]

theorem values_optionalMember {α : Type} (name : String) (encode : α → Json) (o : Option α) :
    (optionalMember name encode o).map (·.2) = o.toList.map encode := by
  cases o <;> rfl

namespace Template

/-! ### Fields -/

variable {name field : String} {body : List (String × Json)}

theorem textField_of_lookup {text : Option String} (found : body.lookup field = text.map .str) :
    textField name body field = .ok text := by
  cases text <;> simp [textField, found]

theorem numberField_of_lookup {number : Option Number} (found : body.lookup field = number.map .num) :
    numberField name body field = .ok number := by
  cases number <;> simp [numberField, found]

theorem lengthField_of_lookup {length : Option Nat} (found : body.lookup field = length.map .nat)
    (bounded : ∀ n ∈ length, n < twoPow 32) : lengthField name body field = .ok length := by
  have number : numberField name body field = .ok (length.map fun n : Nat => .int n) := by
    apply numberField_of_lookup
    rw [found, Option.map_map]
    rfl
  unfold lengthField
  rw [bind_eq_ok]
  refine ⟨_, number, ?_⟩
  cases length with
  | none => rfl
  | some n =>
    have inside : (decide (0 ≤ (n : Int)) && decide ((n : Int) < twoPow 32)) = true := by
      rw [Bool.and_eq_true, decide_eq_true_eq, decide_eq_true_eq]
      exact ⟨Int.natCast_nonneg n, Int.ofNat_lt.mpr (bounded n rfl)⟩
    simp only [Option.map_some, if_pos inside, Int.toNat_natCast, pure_eq_ok]

/-- A length that was read is in its range. -/
theorem lengthField_bounded {length : Option Nat} (done : lengthField name body field = .ok length) :
    ∀ n ∈ length, n < twoPow 32 := by
  unfold lengthField at done
  simp only [bind_eq_ok] at done
  obtain ⟨number, -, done⟩ := done
  split at done
  · obtain rfl := (pure_eq_ok _ _).mp done
    simp
  · split at done
    · rename_i i inside
      obtain rfl := (pure_eq_ok _ _).mp done
      simp only [Bool.and_eq_true, decide_eq_true_eq] at inside
      intro n member
      obtain rfl := Option.some.inj member
      omega
    · exact absurd done (throw_ne_ok _ _)
  · exact absurd done (throw_ne_ok _ _)

/-! ### Entries -/

variable {spell : Value → Json} {meant : Value → Value}

/-- Reading what is spelled for `v` gives `meant v`, wherever it stands. -/
def ReadsAs (spell : Value → Json) (meant : Value → Value) (v : Value) : Prop :=
  ∀ path, Value.decode Value.callLimit path (spell v) = .ok (meant v)

theorem readValue_spelled {v : Value} (reads : ReadsAs spell meant v) (sectionName owner : String) :
    readValue sectionName owner (spell v) = .ok (meant v) := by
  rw [readValue, reads]
  rfl

theorem readOptionalValue_spelled {o : Option Value} (reads : ∀ v ∈ o.toList, ReadsAs spell meant v)
    (sectionName owner : String) : readOptionalValue sectionName owner (o.map spell) = .ok (o.map meant) := by
  cases o with
  | none => rfl
  | some v =>
    have read := readValue_spelled (reads v (by simp)) sectionName owner
    simp [readOptionalValue, read]

theorem readAllowedValues_spelled {values : List Value} (reads : ∀ v ∈ values, ReadsAs spell meant v) (name : String) :
    readAllowedValues name (if values ≠ [] then some (.arr (values.map spell)) else none) =
      .ok (values.map meant) := by
  cases values with
  | nil => rfl
  | cons first rest =>
    rw [if_pos (List.cons_ne_nil _ _), readAllowedValues, mapM_eq_ok_iff, List.forall₂_map_left_iff,
      List.forall₂_map_right_iff]
    exact List.forall₂_same.mpr fun v member => readValue_spelled (reads v member) _ _

theorem readParameter_document {p : Parameter} (reads : ∀ v ∈ p.values, ReadsAs spell meant v)
    (minLength : ∀ n ∈ p.minLength, n < twoPow 32) (maxLength : ∀ n ∈ p.maxLength, n < twoPow 32) (name : String) :
    readParameter name (p.document spell) = .ok (p.mapValues meant) := by
  obtain ⟨default, allowed⟩ := List.forall_mem_append.mp reads
  rw [readParameter_eq_ok]
  refine ⟨_, rfl, ?_⟩
  exact {
    type := textField_of_lookup (by simp [Parameter.mapValues])
    description := textField_of_lookup (by simp [List.lookup_append, Parameter.mapValues])
    default := by
      have read := readOptionalValue_spelled default "Parameters" name
      simpa [List.lookup_append, Parameter.mapValues] using read
    allowedValues := by
      have read := readAllowedValues_spelled allowed name
      simpa [List.lookup_append, Parameter.mapValues] using read
    allowedPattern := textField_of_lookup (by simp [List.lookup_append, Parameter.mapValues])
    constraintDescription := textField_of_lookup (by simp [List.lookup_append, Parameter.mapValues])
    minLength := lengthField_of_lookup (by simp [List.lookup_append, Parameter.mapValues]) minLength
    maxLength := lengthField_of_lookup (by simp [List.lookup_append, Parameter.mapValues]) maxLength
    minValue := numberField_of_lookup (by simp [List.lookup_append, Parameter.mapValues])
    maxValue := numberField_of_lookup (by simp [List.lookup_append, Parameter.mapValues])
    noEcho := by cases echo : p.noEcho <;> simp [List.lookup_append, echo, readNoEcho, Parameter.mapValues] }

theorem readDependsOn_names (names : List String) (name : String) :
    readDependsOn name (if names ≠ [] then some (.strings names) else none) = .ok names := by
  cases names with
  | nil => rfl
  | cons first rest =>
    rw [if_pos (List.cons_ne_nil _ _), Json.strings, readDependsOn, mapM_eq_ok_iff, List.forall₂_map_left_iff]
    exact List.forall₂_same.mpr fun _ _ => rfl

theorem readResource_document {r : Resource} (reads : ∀ v ∈ r.values, ReadsAs spell meant v)
    (typed : r.type.isEmpty = false) (name : String) :
    readResource name (r.document spell) = .ok (r.mapValues meant) := by
  obtain ⟨properties, metadata⟩ := List.forall_mem_cons.mp reads
  rw [readResource_eq_ok]
  refine ⟨_, rfl, ?_⟩
  exact {
    type := textField_of_lookup (by simp [Resource.mapValues])
    typed := typed
    properties := by
      have read := readValue_spelled properties "Resources" name
      cases written : r.hasProperties with
      | false => exact ⟨none, by simp [List.lookup_append, readOptionalValue], by simp [Resource.mapValues, written]⟩
      | true =>
        exact ⟨some (meant r.properties), by simp [List.lookup_append, readOptionalValue, read],
          by simp [Resource.mapValues, written]⟩
    dependsOn := by
      have read := readDependsOn_names r.dependsOn name
      simpa [List.lookup_append, Resource.mapValues] using read
    condition := textField_of_lookup (by simp [List.lookup_append, Resource.mapValues])
    deletionPolicy := textField_of_lookup (by simp [List.lookup_append, Resource.mapValues])
    updateReplacePolicy := textField_of_lookup (by simp [List.lookup_append, Resource.mapValues])
    metadata := by
      have read := readOptionalValue_spelled metadata "Resources" name
      simpa [List.lookup_append, Resource.mapValues] using read }

theorem readOutput_document {o : Output} (reads : ∀ v ∈ o.values, ReadsAs spell meant v) (name : String) :
    readOutput name (o.document spell) = .ok (o.mapValues meant) := by
  obtain ⟨value, exported⟩ := List.forall_mem_cons.mp reads
  rw [readOutput_eq_ok]
  refine ⟨_, rfl, ?_⟩
  exact {
    description := textField_of_lookup (by simp [List.lookup_append, Output.mapValues])
    value := ⟨spell o.value, by simp [List.lookup_append], readValue_spelled value _ _⟩
    exportName := by
      cases written : o.exportName with
      | none => simp [List.lookup_append, written, readExport, Output.mapValues]
      | some v =>
        have read := readValue_spelled (exported v (by simp [written])) "Outputs" name
        simp [List.lookup_append, written, readExport, read, Output.mapValues]
    condition := textField_of_lookup (by simp [List.lookup_append, Output.mapValues]) }

/-! ### Templates -/

section Sections

variable {α β : Type} {entry : String → Json → Except TemplateError β} {encode : α → Json} {f : α → β}
  {entries : List (String × α)} {root : List (String × Json)} {sectionName : String}

theorem readEntries_written (names : ∀ e ∈ entries, nameProblem? e.1 = none)
    (reads : ∀ e ∈ entries, entry e.1 (encode e.2) = .ok (f e.2)) :
    readEntries sectionName entry (entries.map fun e => (e.1, encode e.2)) = .ok (mapEntries f entries) := by
  rw [readEntries_eq_ok, mapEntries, List.forall₂_map_left_iff, List.forall₂_map_right_iff]
  exact List.forall₂_same.mpr fun e member => ⟨names e member, rfl, reads e member⟩

/-- A section is read from where it was written, and an empty one also where it was left out. -/
theorem readSection_written (names : ∀ e ∈ entries, nameProblem? e.1 = none)
    (reads : ∀ e ∈ entries, entry e.1 (encode e.2) = .ok (f e.2))
    (found : root.lookup sectionName = some (sectionJson encode entries) ∨
      entries = [] ∧ root.lookup sectionName = none) :
    readSection root sectionName entry = .ok (mapEntries f entries) := by
  rcases found with found | ⟨rfl, found⟩
  · rw [readSection, found]
    exact readEntries_written names reads
  · rw [readSection, found]
    rfl

end Sections

/-- The names of all entries. -/
def entryNames (t : Template) : List String :=
  memberNames t.parameters ++ memberNames t.mappings ++ memberNames t.conditions ++ memberNames t.resources
    ++ memberNames t.outputs

/-- What reading checks of each entry beside its shape. -/
structure EntriesValid (t : Template) : Prop where
  names : ∀ name ∈ t.entryNames, nameProblem? name = none
  types : ∀ e ∈ t.resources, e.2.type.isEmpty = false
  minLengths : ∀ e ∈ t.parameters, ∀ n ∈ e.2.minLength, n < twoPow 32
  maxLengths : ∀ e ∈ t.parameters, ∀ n ∈ e.2.maxLength, n < twoPow 32

/-- What reading checks beside the shape of a document. -/
structure Acceptable (t : Template) : Prop extends EntriesValid t where
  links : t.linkDefect? = none

/-- Links do not depend on values. -/
theorem linkDefect?_mapValues (f : Value → Value) (t : Template) : (t.mapValues f).linkDefect? = t.linkDefect? := by
  have conditions (name : String) (condition : Option String) :
      (t.mapValues f).conditionDefect? name condition = t.conditionDefect? name condition := by
    simp only [conditionDefect?, mapValues, hasMember_mapEntries]
  have resources (name : String) (r : Resource) :
      (t.mapValues f).resourceDefect? name (r.mapValues f) = t.resourceDefect? name r := by
    rw [resourceDefect?, resourceDefect?, conditions]
    simp only [mapValues, hasMember_mapEntries, Resource.mapValues]
  have overResources : (t.mapValues f).resources = t.resources.map fun e => (e.1, e.2.mapValues f) := rfl
  have overOutputs : (t.mapValues f).outputs = t.outputs.map fun e => (e.1, e.2.mapValues f) := rfl
  unfold linkDefect?
  rw [overResources, overOutputs, List.findSome?_map, List.findSome?_map]
  simp only [Function.comp_def, conditions, resources, Output.mapValues]

/-- A document describes the values that are meant by what is spelled in it. -/
theorem describes_document {t : Template} (valid : t.EntriesValid) (reads : ∀ v ∈ t.values, ReadsAs spell meant v) :
    ∃ members, t.document spell = .obj members ∧ Describes members (t.mapValues meant) := by
  obtain ⟨⟨⟨⟨⟨transform, parameters⟩, mappings⟩, conditions⟩, resources⟩, outputs⟩ := by
    simpa only [values, List.forall_mem_append, List.forall_mem_flatMap, List.forall_mem_map] using reads
  obtain ⟨⟨⟨⟨parameterNames, mappingNames⟩, conditionNames⟩, resourceNames⟩, outputNames⟩ := by
    simpa only [entryNames, memberNames, List.forall_mem_append, List.forall_mem_map] using valid.names
  refine ⟨_, rfl, ?_⟩
  exact {
    formatVersion := ⟨some t.formatVersion, by simp [topText], rfl⟩
    description := by cases text : t.description <;> simp [topText, List.lookup_append, text, mapValues]
    transform := by
      have read := readOptionalValue_spelled transform "Transform" "Transform"
      simpa [List.lookup_append, mapValues] using read
    parameters := by
      refine readSection_written parameterNames (fun e member => readParameter_document (parameters e member)
        (valid.minLengths e member) (valid.maxLengths e member) e.1) ?_
      cases t.parameters <;> simp [List.lookup_append]
    mappings := by
      refine readSection_written mappingNames (fun e member => readValue_spelled (mappings e member) _ _) ?_
      cases t.mappings <;> simp [List.lookup_append]
    conditions := by
      refine readSection_written conditionNames (fun e member => readValue_spelled (conditions e member) _ _) ?_
      cases t.conditions <;> simp [List.lookup_append]
    hasResources := by simp [hasMember]
    resources := by
      refine readSection_written resourceNames
        (fun e member => readResource_document (resources e member) (valid.types e member) e.1) ?_
      simp [List.lookup_append]
    outputs := by
      refine readSection_written outputNames (fun e member => readOutput_document (outputs e member) e.1) ?_
      cases t.outputs <;> simp [List.lookup_append] }

/-- Reading a document gives the values that are meant by what is spelled in it, unless a dependency or
    a condition is missing. -/
theorem ofJson_document_eq {t : Template} (valid : t.EntriesValid) (reads : ∀ v ∈ t.values, ReadsAs spell meant v) :
    ofJson (t.document spell) =
      t.linkDefect?.elim (.ok (t.mapValues meant)) fun defect => .error (.defect defect) := by
  obtain ⟨members, same, describes⟩ := describes_document valid reads
  rw [same, ofJson, describes.ofMembers_eq, linkDefect?_mapValues]

theorem ofJson_document {t : Template} (acceptable : t.Acceptable) (reads : ∀ v ∈ t.values, ReadsAs spell meant v) :
    ofJson (t.document spell) = .ok (t.mapValues meant) := by
  rw [ofJson_document_eq acceptable.toEntriesValid reads, acceptable.links, Option.elim_none]

end Template

end StackCompiler
