import StackCompiler.Proofs.Template.Documents
import StackCompiler.Proofs.Value.RoundTrip

/-!
Templates written and read again. What reading gives passes the checks of reading, and its
values are decoded ones, which come back from their wire form. So the document of a
template that was read is read as a template with the same document (`ofJson_toJson_read`).
-/
namespace StackCompiler.Template

/-! ### Templates that were read -/

variable {sectionName owner name : String}

/-- A value that is decoded from a document of its own. -/
def Decoded (v : Value) : Prop := Value.Decoded Value.callLimit [] v

theorem readValue_eq_ok (json : Json) (v : Value) :
    readValue sectionName owner json = .ok v ↔
      Value.decode Value.callLimit ((FieldPath.root.key sectionName).key owner) json = .ok v := by
  unfold readValue
  split <;> simp_all

theorem readValue_decoded {json : Json} {v : Value} (done : readValue sectionName owner json = .ok v) : Decoded v :=
  ⟨_, json, (readValue_eq_ok json v).mp done⟩

theorem readOptionalValue_decoded {json : Option Json} {o : Option Value}
    (done : readOptionalValue sectionName owner json = .ok o) : ∀ v ∈ o.toList, Decoded v := by
  cases json with
  | none =>
    obtain rfl : none = o := by simpa [readOptionalValue] using done
    simp
  | some json =>
    simp only [readOptionalValue, map_eq_ok] at done
    obtain ⟨v, read, rfl⟩ := done
    simpa using readValue_decoded read

theorem IsParameter.decoded {body : List (String × Json)} {p : Parameter} (fields : IsParameter name body p) :
    ∀ v ∈ p.values, Decoded v := by
  refine List.forall_mem_append.mpr ⟨readOptionalValue_decoded fields.default, ?_⟩
  have read := fields.allowedValues
  unfold readAllowedValues at read
  split at read
  · simp_all
  · intro v member
    obtain ⟨json, -, read⟩ := exists_mem_of_forall₂ ((mapM_eq_ok_iff _ _ _).mp read) member
    exact readValue_decoded read
  · exact absurd read (throw_ne_ok _ _)

theorem IsResource.decoded {body : List (String × Json)} {r : Resource} (fields : IsResource name body r) :
    ∀ v ∈ r.values, Decoded v := by
  refine List.forall_mem_cons.mpr ⟨?_, readOptionalValue_decoded fields.metadata⟩
  obtain ⟨found, read, same⟩ := fields.properties
  cases found with
  | none => exact ⟨.root, .null, same ▸ rfl⟩
  | some v => exact same ▸ readOptionalValue_decoded read v (by simp)

theorem IsOutput.decoded {body : List (String × Json)} {o : Output} (fields : IsOutput name body o) :
    ∀ v ∈ o.values, Decoded v := by
  obtain ⟨json, -, read⟩ := fields.value
  refine List.forall_mem_cons.mpr ⟨readValue_decoded read, ?_⟩
  have exported := fields.exportName
  unfold readExport at exported
  split at exported
  · obtain same : none = o.exportName := by simpa using exported
    simp [← same]
  · obtain same : none = o.exportName := by simpa using exported
    simp [← same]
  · split at exported
    · simp only [map_eq_ok] at exported
      obtain ⟨v, read, same⟩ := exported
      simpa [← same] using readValue_decoded read
    · exact absurd exported (throw_ne_ok _ _)
  · exact absurd exported (throw_ne_ok _ _)

variable {root : List (String × Json)} {t : Template}

/-- Every value of a template that was read is decoded. -/
theorem IsTemplate.decoded (fields : IsTemplate root t) : ∀ v ∈ t.values, Decoded v := by
  simp only [values, List.forall_mem_append, List.forall_mem_flatMap, List.forall_mem_map]
  refine ⟨⟨⟨⟨⟨readOptionalValue_decoded fields.transform, fun e member => ?_⟩, fun e member => ?_⟩,
    fun e member => ?_⟩, fun e member => ?_⟩, fun e member => ?_⟩
  · obtain ⟨-, json, read⟩ := readSection_entry fields.parameters member
    obtain ⟨body, -, fields⟩ := (readParameter_eq_ok _ _ _).mp read
    exact fields.decoded
  · obtain ⟨-, json, read⟩ := readSection_entry fields.mappings member
    exact readValue_decoded read
  · obtain ⟨-, json, read⟩ := readSection_entry fields.conditions member
    exact readValue_decoded read
  · obtain ⟨-, json, read⟩ := readSection_entry fields.resources member
    obtain ⟨body, -, fields⟩ := (readResource_eq_ok _ _ _).mp read
    exact fields.decoded
  · obtain ⟨-, json, read⟩ := readSection_entry fields.outputs member
    obtain ⟨body, -, fields⟩ := (readOutput_eq_ok _ _ _).mp read
    exact fields.decoded

theorem IsTemplate.acceptable (fields : IsTemplate root t) : t.Acceptable where
  names := by
    simp only [entryNames, memberNames, List.forall_mem_append, List.forall_mem_map]
    exact ⟨⟨⟨⟨fun e member => (readSection_entry fields.parameters member).1,
      fun e member => (readSection_entry fields.mappings member).1⟩,
      fun e member => (readSection_entry fields.conditions member).1⟩,
      fun e member => (readSection_entry fields.resources member).1⟩,
      fun e member => (readSection_entry fields.outputs member).1⟩
  types e member := by
    obtain ⟨-, json, read⟩ := readSection_entry fields.resources member
    obtain ⟨body, -, fields⟩ := (readResource_eq_ok _ _ _).mp read
    exact fields.typed
  minLengths e member := by
    obtain ⟨-, json, read⟩ := readSection_entry fields.parameters member
    obtain ⟨body, -, fields⟩ := (readParameter_eq_ok _ _ _).mp read
    exact lengthField_bounded fields.minLength
  maxLengths e member := by
    obtain ⟨-, json, read⟩ := readSection_entry fields.parameters member
    obtain ⟨body, -, fields⟩ := (readParameter_eq_ok _ _ _).mp read
    exact lengthField_bounded fields.maxLength
  links := fields.links

/-! ### The same document again -/

theorem Decoded.comesBack {v : Value} (decoded : Decoded v) : ReadsAs Value.toJson id v := by
  obtain ⟨nodes, nesting⟩ := Value.decoded_canonical v decoded
  exact fun path => Value.canonical_comesBack v nodes nesting path

theorem IsTemplate.comesBack (fields : IsTemplate root t) : ofJson t.toJson = .ok (t.mapValues id) := by
  rw [toJson_eq_document]
  exact ofJson_document fields.acceptable fun v member => (fields.decoded v member).comesBack

theorem toJson_mapValues_id (t : Template) : (t.mapValues id).toJson = t.toJson :=
  toJson_mapValues fun _ _ => Resource.hasProperties_mapValues rfl

/-- The document of a template that was read is read again, and gives the same document. -/
theorem ofJson_toJson_read (parsed : ofMembers root = .ok t) :
    ∃ again, ofJson t.toJson = .ok again ∧ again.toJson = t.toJson := by
  have fields := (ofMembers_eq_ok root t).mp parsed
  exact ⟨t.mapValues id, fields.comesBack, toJson_mapValues_id t⟩

/-- A document that the first reading changes: a description is a truth value and a bound is
    text, a dependency is no list, an attribute is dotted, and some members say nothing. -/
def looseMembers : List (String × Json) :=
  [("Parameters", .obj [("Size", .obj [("NoEcho", .bool false), ("Type", .str "Number"),
      ("Description", .bool true), ("MinValue", .str "3"), ("AllowedPattern", .null)])]),
   ("Resources", .obj [("Queue", .obj [("Properties", .obj []), ("Type", .str "AWS::SQS::Queue")]),
      ("Topic", .obj [("DependsOn", .str "Queue"), ("Type", .str "AWS::SNS::Topic"),
        ("Properties", .obj [("TopicName", .obj [("Fn::GetAtt", .str "Queue.QueueName")])])])])]

def looseTemplate : Template where
  formatVersion := currentVersion
  parameters := [("Size", { type := "Number", description := some "true", minValue := some (.int 3) })]
  resources :=
    [("Queue", { type := "AWS::SQS::Queue", properties := .obj [] }),
     ("Topic", { type := "AWS::SNS::Topic", dependsOn := ["Queue"],
                 properties := .obj [("TopicName", .fn (.getAtt ⟨"Queue", "QueueName"⟩))] })]

theorem ofJson_toJson_read_loose :
    ofMembers looseMembers = .ok looseTemplate ∧
      ∃ again, ofJson looseTemplate.toJson = .ok again ∧ again.toJson = looseTemplate.toJson := by
  have read : ofMembers looseMembers = .ok looseTemplate := by rfl
  exact ⟨read, ofJson_toJson_read read⟩

/-! ### The smallest templates that hold a value -/

/-- A document with one output. -/
def outputMembers (value : Json) : List (String × Json) :=
  [("Resources", .obj []), ("Outputs", .obj [("Data", .obj [("Value", value)])])]

def outputTemplate (value : Value) : Template :=
  { empty with outputs := [("Data", { value := value })] }

end StackCompiler.Template
