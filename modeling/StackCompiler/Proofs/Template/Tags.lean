import StackCompiler.Proofs.Template.RoundTrip
import StackCompiler.Proofs.Yaml.Tags
import StackCompiler.Template.Emit

/-!
When a template has a YAML text. Calls of `Fn::Base64`, `Fn::ImportValue` and
`Fn::GetAZs` take a bare value, so a call right inside them puts a tag right before a tag,
which cannot be written. A template that was read has a text exactly if this, and a few
rarer places of the same kind, do not occur in it (`yamlText_ok_iff_tagsApart`).
-/
namespace StackCompiler

namespace Value

/-- A value that is written with a tag: a call of a known function, but for transforms. -/
def Tagged : Value → Prop
  | .fn (.transform _ _) => False
  | .fn (.verbatim key _) => key = Function.getAtt.key
  | .fn _ => True
  | _ => False

/-- A member that stands alone, and whose name is that of a function, is no call. -/
def LoneApart : List (String × Value) → Prop
  | [(name, value)] => Json.TagKey name → ¬ Tagged value
  | _ => True

/-- What a node must be like for the tags of its document to stand apart. -/
def NodeApart : Value → Prop
  | .fn (.base64 value) => ¬ Tagged value
  | .fn (.importValue name) => ¬ Tagged name
  | .fn (.getAZs region) => ¬ Tagged region
  | .fn (.sub _ bindings) => LoneApart bindings
  | .fn (.transform _ parameters) => LoneApart parameters
  | .fn (.verbatim _ args) => args.TagsApart
  | _ => True

def TagsApart (v : Value) : Prop := Everywhere NodeApart v

/-! ### Tags in the wire form -/

theorem tagKey_key_iff (f : Function) : Json.TagKey f.key ↔ f ≠ .transform ∧ f ≠ .condition := by
  constructor
  · rintro ⟨g, first, second, same⟩
    obtain rfl := Function.key_injective same
    exact ⟨first, second⟩
  · rintro ⟨first, second⟩
    exact ⟨f, first, second, rfl⟩

theorem not_tagKey_of_unknown {key : String} (unknown : ∀ f : Function, f.key ≠ key) : ¬ Json.TagKey key := by
  rintro ⟨f, -, -, same⟩
  exact unknown f same

theorem tagKey_of_function {call : Intrinsic Value} {f : Function} (known : call.function? = some f)
    (tagged : f ≠ .transform ∧ f ≠ .condition) : Json.TagKey call.key := by
  rw [key_of_function known]
  exact (tagKey_key_iff f).mpr tagged

/-- A value that may be read again has a tag in its wire form exactly if it is such a call. -/
theorem hasTag_toJson_iff {v : Value} (canonical : NodeCanonical v) : v.toJson.HasTag ↔ Tagged v := by
  cases v with
  | null | bool _ | num _ | str _ => simp [toJson, Json.HasTag, Tagged]
  | arr items => simp [toJson, Tagged]
  | obj members =>
    rw [toJson]
    refine iff_of_false (fun tagged => ?_) id
    obtain ⟨name, json, single⟩ := tagged.eq_single
    obtain ⟨value, rfl, rfl⟩ := membersToJson_eq_singleton single
    rw [single] at tagged
    apply canonical
    rcases tagged with ⟨f, -, other, same⟩ | ⟨same, s, text⟩
    · exact .inl ⟨f, other, same⟩
    · exact .inr (.inr ⟨same, s, toJson_eq_str text⟩)
  | fn call =>
    rw [toJson]
    cases call with
    | verbatim key args =>
      rcases canonical with ⟨-, unknown⟩ | ⟨rfl, -⟩
      · refine iff_of_false ?_ (unknown .getAtt).symm
        rintro (tagKey | ⟨same, -⟩)
        · exact not_tagKey_of_unknown unknown tagKey
        · exact unknown .condition same.symm
      · exact iff_of_true (Or.inl ((tagKey_key_iff .getAtt).mpr (by decide))) rfl
    | transform name parameters =>
      refine iff_of_false ?_ id
      rintro (tagKey | ⟨same, -⟩)
      · exact ((tagKey_key_iff .transform).mp tagKey).1 rfl
      · exact absurd same (show Function.transform.key ≠ Function.condition.key by decide)
    | condition name => exact iff_of_true (Or.inr ⟨rfl, name, argsToJson.eq_def _⟩) trivial
    | _ => exact iff_of_true (Or.inl (tagKey_of_function rfl (by decide))) trivial

/-- Tags stand apart in an object if they do so in each member, and a lone member is no call under a
    tag. -/
theorem tagsApart_membersToJson_iff {members : List (String × Value)}
    (tags : ∀ w ∈ members.map (·.2), w.toJson.HasTag ↔ Tagged w) :
    (Json.obj (membersToJson members)).TagsApart ↔
      LoneApart members ∧ ∀ w ∈ members.map (·.2), w.toJson.TagsApart := by
  rw [Json.tagsApart_obj, values_membersToJson, List.forall_mem_map]
  refine and_congr_left' ?_
  match members, tags with
  | [], _ => simp [membersToJson, Json.NodeApart, LoneApart]
  | [(name, value)], tags =>
    have tag := tags value (by simp)
    simp [membersToJson, Json.NodeApart, LoneApart, tag]
  | _ :: _ :: _, _ => simp [membersToJson, Json.NodeApart, LoneApart]

/-- Tags stand apart in a call if they do so in each argument, and the call has no tag right inside
    its own. -/
theorem tagsApart_call_iff {call : Intrinsic Value} (canonical : NodeCanonical (.fn call))
    (tags : ∀ w ∈ call.argValues, w.toJson.HasTag ↔ Tagged w) :
    (Value.fn call).toJson.TagsApart ↔ NodeApart (.fn call) ∧ ∀ w ∈ call.argValues, w.toJson.TagsApart := by
  rw [toJson, Json.tagsApart_single]
  unfold Intrinsic.argValues at *
  cases call with
  | sub template bindings =>
    rw [Intrinsic.args, Intrinsic.keyed_values] at *
    have members := tagsApart_membersToJson_iff tags
    cases bindings with
    | nil => simp [argsToJson, NodeApart, LoneApart]
    | cons binding rest =>
      rw [membersToJson] at members
      simp [argsToJson, NodeApart, members]
  | transform name parameters =>
    rw [Intrinsic.args, Intrinsic.keyed_values] at *
    have members := tagsApart_membersToJson_iff tags
    have plain : ¬ Json.HasTag (argsToJson (.transform name parameters)) := by
      rw [argsToJson]
      exact id
    rw [argsToJson] at plain ⊢
    rw [Json.tagsApart_of_not_hasTag plain]
    simp [plain, NodeApart, members]
  | and conditions | or conditions =>
    rw [Intrinsic.args, Intrinsic.indexed_values]
    simp [argsToJson, NodeApart, itemsToJson_eq_map]
  | base64 value | importValue value | getAZs value =>
    have tag := tags value (by simp [Intrinsic.args])
    rw [forall_prop_of_true (tagKey_of_function rfl (by decide))]
    simp [argsToJson, NodeApart, Intrinsic.args, tag]
  | verbatim key args =>
    -- Only a list can stand under a tag here, so nothing is asked beside the arguments themselves.
    have apart : Json.TagKey key → ¬ Json.HasTag args := by
      rcases canonical with ⟨-, unknown⟩ | ⟨-, resource, members, rfl⟩
      · exact fun tagKey => absurd tagKey (not_tagKey_of_unknown unknown)
      · simp
    simpa [argsToJson, NodeApart, Intrinsic.args, Intrinsic.key] using fun _ => apart
  | _ => simp [argsToJson, NodeApart, Intrinsic.args, Json.strings]

/-- The tags of a value stand apart on the wire exactly if its nodes say so. -/
theorem tagsApart_toJson_iff (v : Value) (canonical : Everywhere NodeCanonical v) :
    v.toJson.TagsApart ↔ v.TagsApart := by
  induction v using node_induction with
  | step v ih =>
    obtain ⟨here, below⟩ := (everywhere_iff NodeCanonical v).mp canonical
    have tags (w : Value) (child : Child w v) : w.toJson.HasTag ↔ Tagged w :=
      hasTag_toJson_iff (below w child w .refl)
    have inner (w : Value) (child : Child w v) := ih w child (below w child)
    rw [TagsApart, everywhere_iff]
    cases v with
    | null | bool _ | num _ | str _ =>
      rw [toJson]
      exact iff_of_true (Json.tagsApart_of_childless fun _ => id) ⟨trivial, fun _ child => child.elim⟩
    | arr items =>
      rw [toJson, Json.tagsApart_arr, itemsToJson_eq_map, List.forall_mem_map]
      exact (forall₂_congr inner).trans (and_iff_right trivial).symm
    | obj members =>
      have plain : ¬ Json.HasTag (.obj (membersToJson members)) := by
        have tag := hasTag_toJson_iff here
        rw [toJson] at tag
        exact tag.not.mpr id
      rw [toJson, Json.tagsApart_of_not_hasTag plain, values_membersToJson, List.forall_mem_map]
      exact (forall₂_congr inner).trans (and_iff_right trivial).symm
    | fn call =>
      rw [tagsApart_call_iff here tags]
      exact and_congr_right' (forall₂_congr inner)

end Value

/-! ### Tags in documents of templates -/

/-- A list that is left out where it is empty says nothing there. -/
theorem tagsApart_listMember_iff {α : Type} (name : String) {encode : List α → Json}
    (nothing : (encode []).TagsApart) (items : List α) :
    (∀ w ∈ (listMember name encode items).map (·.2), w.TagsApart) ↔ (encode items).TagsApart := by
  cases items <;> simp [listMember, nothing]

/-- A member whose name is that of no function keeps an object from having a tag. -/
theorem Json.not_hasTag_of_mem {members : List (String × Json)} (name : String) (json : Json)
    (member : (name, json) ∈ members) (unknown : Function.ofKey? name = none) : ¬ HasTag (.obj members) := by
  intro tagged
  obtain ⟨key, args, rfl⟩ := tagged.eq_single
  cases List.mem_singleton.mp member
  have noFunction := (Function.ofKey?_eq_none_iff _).mp unknown
  rcases tagged with ⟨f, -, -, same⟩ | ⟨same, -⟩
  · exact noFunction f same
  · exact noFunction .condition same.symm

theorem Json.tagsApart_strings (texts : List String) : TagsApart (.strings texts) := by
  simp [Json.strings]

theorem Parameter.not_hasTag_toJson (p : Parameter) : ¬ p.toJson.HasTag :=
  Json.not_hasTag_of_mem "Type" (.str p.type) (by simp) rfl

theorem Parameter.tagsApart_toJson_iff (p : Parameter) : p.toJson.TagsApart ↔ ∀ v ∈ p.values, v.toJson.TagsApart := by
  have plain := p.not_hasTag_toJson
  unfold Parameter.toJson at plain ⊢
  rw [Json.tagsApart_of_not_hasTag plain]
  simp only [List.map_append, List.forall_mem_append, values_optionalMember]
  rw [tagsApart_listMember_iff _ (by simp)]
  cases p.noEcho <;> simp [Parameter.values, Json.nat, or_imp, forall_and]

theorem Resource.not_hasTag_toJson (r : Resource) : ¬ r.toJson.HasTag :=
  Json.not_hasTag_of_mem "Type" (.str r.type) (by simp) rfl

theorem Resource.tagsApart_toJson_iff (r : Resource) : r.toJson.TagsApart ↔ ∀ v ∈ r.values, v.toJson.TagsApart := by
  have plain := r.not_hasTag_toJson
  -- Properties that are not written hold no calls.
  have properties : (∀ w ∈ (if r.hasProperties then [("Properties", r.properties.toJson)] else []).map (·.2),
      w.TagsApart) ↔ r.properties.toJson.TagsApart := by
    cases written : r.hasProperties with
    | true => simp
    | false =>
      refine iff_of_true (by simp) ?_
      rcases Resource.properties_of_unwritten written with same | same
      · rw [same, Value.toJson]
        exact Json.tagsApart_of_childless fun _ => id
      · rw [same, Value.toJson, Value.membersToJson]
        exact Json.tagsApart_of_childless fun _ => List.not_mem_nil
  unfold Resource.toJson at plain ⊢
  rw [Json.tagsApart_of_not_hasTag plain]
  simp only [List.map_append, List.forall_mem_append, values_optionalMember, properties]
  rw [tagsApart_listMember_iff _ (Json.tagsApart_strings _)]
  simp [Resource.values, Json.tagsApart_strings]

theorem Output.not_hasTag_toJson (o : Output) : ¬ o.toJson.HasTag :=
  Json.not_hasTag_of_mem "Value" o.value.toJson (by simp) rfl

theorem Output.tagsApart_toJson_iff (o : Output) : o.toJson.TagsApart ↔ ∀ v ∈ o.values, v.toJson.TagsApart := by
  have plain := o.not_hasTag_toJson
  have exported (json : Json) : (Json.obj [("Name", json)]).TagsApart ↔ json.TagsApart := by
    have noName : ¬ Json.HasTag (.obj [("Name", json)]) := Json.not_hasTag_of_mem "Name" json (by simp) rfl
    simp [Json.tagsApart_of_not_hasTag noName]
  unfold Output.toJson at plain ⊢
  rw [Json.tagsApart_of_not_hasTag plain]
  simp only [List.map_append, List.forall_mem_append, values_optionalMember]
  simp [Output.values, exported]

/-- Tags stand apart in a section whose entries have none of their own if they do so in the entries. -/
theorem tagsApart_sectionJson_iff {α : Type} {encode : α → Json} (plain : ∀ a, ¬ (encode a).HasTag)
    (entries : List (String × α)) :
    (sectionJson encode entries).TagsApart ↔ ∀ e ∈ entries, (encode e.2).TagsApart := by
  rw [sectionJson, Json.tagsApart_obj, List.map_map, List.forall_mem_map]
  refine and_iff_right ?_
  rcases entries with _ | ⟨e, _ | ⟨_, _⟩⟩
  · trivial
  · exact fun _ => plain e.2
  · trivial

theorem tagsApart_sectionMember_iff {α : Type} (name : String) (encode : α → Json) (entries : List (String × α)) :
    (∀ w ∈ (listMember name (sectionJson encode) entries).map (·.2), w.TagsApart) ↔
      (sectionJson encode entries).TagsApart :=
  tagsApart_listMember_iff name (Json.tagsApart_of_childless fun _ => List.not_mem_nil) entries

theorem sectionJson_toJson (entries : List (String × Value)) :
    sectionJson Value.toJson entries = .obj (Value.membersToJson entries) := by
  rw [sectionJson, Json.obj.injEq]
  induction entries with
  | nil => rfl
  | cons entry rest ih => rw [List.map_cons, ih, Value.membersToJson]

namespace Template

/-- Nowhere in a template does a call stand where its tag would follow another. -/
structure TagsApart (t : Template) : Prop where
  values : ∀ v ∈ t.values, v.TagsApart
  mappings : Value.LoneApart t.mappings
  conditions : Value.LoneApart t.conditions

theorem tagsApart_valueSection_iff {entries : List (String × Value)}
    (canonical : ∀ e ∈ entries, Value.Everywhere Value.NodeCanonical e.2) :
    (sectionJson Value.toJson entries).TagsApart ↔
      Value.LoneApart entries ∧ ∀ e ∈ entries, e.2.toJson.TagsApart := by
  rw [sectionJson_toJson, Value.tagsApart_membersToJson_iff, List.forall_mem_map]
  rw [List.forall_mem_map]
  exact fun e member => Value.hasTag_toJson_iff (canonical e member e.2 .refl)

/-- The tags of a document stand apart exactly if those of its values do, and no section of values
    puts another tag before one. -/
theorem tagsApart_toJson_iff {t : Template} (canonical : ∀ v ∈ t.values, Value.Everywhere Value.NodeCanonical v) :
    t.toJson.TagsApart ↔ t.TagsApart := by
  have plain : ¬ t.toJson.HasTag :=
    Json.not_hasTag_of_mem "Resources" (sectionJson Resource.toJson t.resources) (by simp) rfl
  have parts : t.TagsApart ↔
      (∀ v ∈ t.values, v.toJson.TagsApart) ∧ Value.LoneApart t.mappings ∧ Value.LoneApart t.conditions := by
    have values := forall₂_congr fun v member => Value.tagsApart_toJson_iff v (canonical v member)
    rw [values]
    exact ⟨fun ⟨a, b, c⟩ => ⟨a, b, c⟩, fun ⟨a, b, c⟩ => ⟨a, b, c⟩⟩
  simp only [values, List.forall_mem_append, List.forall_mem_map] at canonical
  have mappings := tagsApart_valueSection_iff canonical.1.1.1.2
  have conditions := tagsApart_valueSection_iff canonical.1.1.2
  unfold Template.toJson at plain ⊢
  rw [parts, Json.tagsApart_of_not_hasTag plain]
  simp only [List.map_append, List.forall_mem_append, values_optionalMember, tagsApart_sectionMember_iff]
  simp only [values, List.forall_mem_append, List.forall_mem_map, List.forall_mem_flatMap, List.map_cons, List.map_nil,
    List.forall_mem_singleton, Json.tagsApart_str, implies_true, true_and, mappings, conditions,
    tagsApart_sectionJson_iff Parameter.not_hasTag_toJson, Parameter.tagsApart_toJson_iff,
    tagsApart_sectionJson_iff Resource.not_hasTag_toJson, Resource.tagsApart_toJson_iff,
    tagsApart_sectionJson_iff Output.not_hasTag_toJson, Output.tagsApart_toJson_iff]
  constructor
  · rintro ⟨⟨⟨⟨others, loneMapping, mappings⟩, loneCondition, conditions⟩, resources⟩, outputs⟩
    exact ⟨⟨⟨⟨⟨others, mappings⟩, conditions⟩, resources⟩, outputs⟩, loneMapping, loneCondition⟩
  · rintro ⟨⟨⟨⟨⟨others, mappings⟩, conditions⟩, resources⟩, outputs⟩, loneMapping, loneCondition⟩
    exact ⟨⟨⟨⟨others, loneMapping, mappings⟩, loneCondition, conditions⟩, resources⟩, outputs⟩

/-- A template that was read has a YAML text exactly if no call stands in it where its tag would
    follow another. -/
theorem yamlText_ok_iff_tagsApart {root : List (String × Json)} {t : Template} (parsed : ofMembers root = .ok t) :
    (∃ text, t.yamlText = .ok text) ↔ t.TagsApart := by
  have fields := (ofMembers_eq_ok root t).mp parsed
  have canonical (v : Value) (member : v ∈ t.values) : Value.Everywhere Value.NodeCanonical v :=
    (Value.decoded_canonical v (fields.decoded v member)).1
  have written : (∃ text, t.yamlText = .ok text) ↔ (Yaml.Tree.ofJson t.toJson).text?.isSome := by
    unfold yamlText
    cases (Yaml.Tree.ofJson t.toJson).text? <;> simp
  rw [written, Yaml.Tree.text?_ofJson_isSome_iff, tagsApart_toJson_iff canonical]

/-- An unknown function has no tag, so its call may stand right inside one that has. -/
theorem tagsApart_encodedRecord :
    ofMembers (outputMembers (.obj [("Fn::Base64", .obj [("Fn::ToJsonString", .obj [("Ref", .str "AWS::Region")])])])) =
        .ok (outputTemplate (.fn (.base64 (.fn (.verbatim "Fn::ToJsonString" (.obj [("Ref", .str "AWS::Region")])))))) ∧
      (outputTemplate (.fn (.base64 (.fn (.verbatim "Fn::ToJsonString" (.obj [("Ref", .str "AWS::Region")])))))).TagsApart := by
  have read : ofMembers (outputMembers
        (.obj [("Fn::Base64", .obj [("Fn::ToJsonString", .obj [("Ref", .str "AWS::Region")])])])) =
      .ok (outputTemplate (.fn (.base64 (.fn (.verbatim "Fn::ToJsonString" (.obj [("Ref", .str "AWS::Region")])))))) :=
    rfl
  exact ⟨read, (yamlText_ok_iff_tagsApart read).mp ⟨_, rfl⟩⟩

/-- The tag of a call that is encoded as a whole would follow that of the encoding. -/
theorem yamlText_encodedRegion :
    ofMembers (outputMembers (.obj [("Fn::Base64", .obj [("Ref", .str "AWS::Region")])])) =
        .ok (outputTemplate (.fn (.base64 (.fn (.ref "AWS::Region"))))) ∧
      (outputTemplate (.fn (.base64 (.fn (.ref "AWS::Region"))))).yamlText = .error .unwritable :=
  ⟨rfl, rfl⟩

end Template

end StackCompiler
