import StackCompiler.Proofs.Equality
import StackCompiler.Proofs.Template.Depth
import StackCompiler.Proofs.Value.Dotted
import StackCompiler.Proofs.Yaml.ShortForm
import StackCompiler.Template.Document
import StackCompiler.Template.Emit

/-!
Templates written as YAML and read again. The short form of an attribute has a dot between
the resource and the name, and the first dot divides them again. So a template that was
read comes back from its YAML exactly if no resource name of an attribute has a dot, and
nothing that only looks like an attribute is dotted too: not in the arguments of an unknown
function, and no lone variable or parameter (`readsBack_iff_kept`).
-/
namespace StackCompiler

/-! ### Dots in documents -/

section Members

variable {α : Type} (f : Json → Json) (name : String)

theorem mapEntries_append (front back : List (String × Json)) :
    mapEntries f (front ++ back) = mapEntries f front ++ mapEntries f back :=
  List.map_append

theorem mapEntries_optionalMember (encode : α → Json) (o : Option α) :
    mapEntries f (optionalMember name encode o) = optionalMember name (fun a => f (encode a)) o := by
  cases o <;> rfl

theorem mapEntries_listMember (encode : List α → Json) (items : List α) :
    mapEntries f (listMember name encode items) = listMember name (fun items => f (encode items)) items := by
  unfold listMember
  split <;> rfl

theorem mapEntries_single (json : Json) : mapEntries f [(name, json)] = [(name, f json)] := rfl

theorem mapEntries_memberIf (written : Prop) [Decidable written] (json : Json) :
    mapEntries f (if written then [(name, json)] else []) = if written then [(name, f json)] else [] := by
  split <;> rfl

end Members

namespace Json

@[simp] theorem dotted_bool (b : Bool) : dotted (.bool b) = .bool b := by rw [dotted]

@[simp] theorem dotted_num (n : Number) : dotted (.num n) = .num n := by rw [dotted]

@[simp] theorem dotted_nat (n : Nat) : dotted (.nat n) = .nat n := dotted_num _

@[simp] theorem dotted_strings (texts : List String) : dotted (.strings texts) = .strings texts := by
  simp [Json.strings]

end Json

/-- The dots are put value by value, whatever way values are spelled. -/
theorem Parameter.dotted_document (spell : Value → Json) (p : Parameter) :
    (p.document spell).dotted = p.document fun v => (spell v).dotted := by
  have other : ¬ (p.document spell).IsAttribute :=
    Json.not_isAttribute_of_mem "Type" (.str p.type) (by simp) (by decide)
  unfold Parameter.document at other ⊢
  rw [Json.dotted_obj other]
  simp only [mapEntries_append, mapEntries_optionalMember, mapEntries_listMember, mapEntries_memberIf, mapEntries_single,
    Json.dotted_str, Json.dotted_num, Json.dotted_bool, Json.dotted_nat, Json.dotted_arr, List.map_map,
    Function.comp_def]

theorem Resource.dotted_document (spell : Value → Json) (r : Resource) :
    (r.document spell).dotted = r.document fun v => (spell v).dotted := by
  have other : ¬ (r.document spell).IsAttribute :=
    Json.not_isAttribute_of_mem "Type" (.str r.type) (by simp) (by decide)
  unfold Resource.document at other ⊢
  rw [Json.dotted_obj other]
  simp only [mapEntries_append, mapEntries_optionalMember, mapEntries_listMember, mapEntries_memberIf, mapEntries_single,
    Json.dotted_str, Json.dotted_strings]

theorem Output.dotted_document (spell : Value → Json) (o : Output) :
    (o.document spell).dotted = o.document fun v => (spell v).dotted := by
  have other : ¬ (o.document spell).IsAttribute :=
    Json.not_isAttribute_of_mem "Value" (spell o.value) (by simp) (by decide)
  have exported (name : Value) : (Json.obj [("Name", spell name)]).dotted = .obj [("Name", (spell name).dotted)] :=
    Json.dotted_obj (Json.not_isAttribute_of_mem "Name" (spell name) (by simp) (by decide))
  unfold Output.document at other ⊢
  rw [Json.dotted_obj other]
  simp only [mapEntries_append, mapEntries_optionalMember, mapEntries_single, exported, Json.dotted_str]

/-- A section is no attribute, since no entry has such a name. -/
theorem dotted_sectionJson {α : Type} (encode : α → Json) {entries : List (String × α)}
    (names : ∀ e ∈ entries, nameProblem? e.1 = none) :
    (sectionJson encode entries).dotted = sectionJson (fun a => (encode a).dotted) entries := by
  have other : ¬ (sectionJson encode entries).IsAttribute := by
    cases entries with
    | nil => exact id
    | cons e rest =>
      refine Json.not_isAttribute_of_mem e.1 (encode e.2) (by simp) fun same => ?_
      have valid := names e List.mem_cons_self
      rw [same] at valid
      revert valid
      decide
  unfold sectionJson at other ⊢
  rw [Json.dotted_obj other, mapEntries, List.map_map]
  rfl

theorem dotted_sectionMember {α : Type} (name : String) (encode : α → Json) {entries : List (String × α)}
    (names : ∀ e ∈ entries, nameProblem? e.1 = none) :
    mapEntries Json.dotted (listMember name (sectionJson encode) entries) =
      listMember name (sectionJson fun a => (encode a).dotted) entries := by
  rw [mapEntries_listMember, listMember, listMember, dotted_sectionJson encode names]

theorem Template.dotted_document (spell : Value → Json) {t : Template}
    (names : ∀ name ∈ t.entryNames, nameProblem? name = none) :
    (t.document spell).dotted = t.document fun v => (spell v).dotted := by
  obtain ⟨⟨⟨⟨parameters, mappings⟩, conditions⟩, resources⟩, outputs⟩ := by
    simpa only [entryNames, memberNames, List.forall_mem_append, List.forall_mem_map] using names
  have other : ¬ (t.document spell).IsAttribute :=
    Json.not_isAttribute_of_mem "AWSTemplateFormatVersion" (.str t.formatVersion) (by simp) (by decide)
  unfold Template.document at other ⊢
  rw [Json.dotted_obj other]
  simp only [mapEntries_append, mapEntries_optionalMember, mapEntries_single, Json.dotted_str]
  rw [dotted_sectionMember _ _ parameters, dotted_sectionMember _ _ mappings, dotted_sectionMember _ _ conditions,
    dotted_sectionJson _ resources, dotted_sectionMember _ _ outputs]
  simp only [Parameter.dotted_document, Resource.dotted_document, Output.dotted_document]

/-! ### Values that stay -/

section Values

variable {f : Value → Value}

theorem option_map_eq_self_iff {α : Type} (f : α → α) (o : Option α) : o.map f = o ↔ ∀ a ∈ o.toList, f a = a := by
  cases o <;> simp

theorem Parameter.mapValues_eq_self_iff (f : Value → Value) (p : Parameter) :
    p.mapValues f = p ↔ ∀ v ∈ p.values, f v = v := by
  rw [values, List.forall_mem_append, ← option_map_eq_self_iff, ← map_eq_self_iff]
  cases p
  simp [mapValues]

theorem Parameter.mapValues_id (p : Parameter) : p.mapValues id = p :=
  (mapValues_eq_self_iff id p).mpr fun _ _ => rfl

theorem Output.mapValues_eq_self_iff (f : Value → Value) (o : Output) :
    o.mapValues f = o ↔ ∀ v ∈ o.values, f v = v := by
  rw [values, List.forall_mem_cons, ← option_map_eq_self_iff]
  cases o
  simp [mapValues]

theorem Output.mapValues_id (o : Output) : o.mapValues id = o :=
  (mapValues_eq_self_iff id o).mpr fun _ _ => rfl

/-- Properties that are not written are kept. -/
theorem Resource.kept_of_unwritten {r : Resource} (unwritten : r.hasProperties = false) : r.properties.Kept := by
  refine (Value.everywhere_iff Value.NodeKept _).mpr ?_
  rcases properties_of_unwritten unwritten with same | same
  · rw [same]
    exact ⟨trivial, fun _ child => child.elim⟩
  · rw [same]
    exact ⟨trivial, fun _ child => by cases child⟩

/-- If a change is lost when a resource is written, the values are the same or are kept. -/
theorem Resource.same_or_kept {r : Resource} (same : (r.mapValues f).mapValues id = r.mapValues id) :
    ∀ v ∈ r.values, f v = v ∨ v.Kept := by
  have metadata : ∀ v ∈ r.metadata.toList, f v = v := by
    rw [← option_map_eq_self_iff]
    simpa [mapValues] using congrArg Resource.metadata same
  refine List.forall_mem_cons.mpr ⟨?_, fun v member => .inl (metadata v member)⟩
  cases written : r.hasProperties with
  | false => exact .inr (kept_of_unwritten written)
  | true =>
    left
    have properties := congrArg Resource.properties same
    simp only [mapValues, written, if_true, id] at properties
    split at properties
    · exact properties
    · rw [hasProperties, ← properties] at written
      cases written

theorem Template.same_or_kept {t : Template} (same : (t.mapValues f).mapValues id = t.mapValues id) :
    ∀ v ∈ t.values, f v = v ∨ v.Kept := by
  have each {α : Type} {g : (Value → Value) → α → α} {entries : List (String × α)}
      (same : mapEntries (g id) (mapEntries (g f) entries) = mapEntries (g id) entries) :
      ∀ e ∈ entries, g id (g f e.2) = g id e.2 := by
    intro e member
    rw [mapEntries, mapEntries, mapEntries, List.map_map, List.map_inj_left] at same
    exact congrArg Prod.snd (same e member)
  simp only [values, List.forall_mem_append, List.forall_mem_flatMap, List.forall_mem_map]
  refine ⟨⟨⟨⟨⟨?transform, ?parameters⟩, ?mappings⟩, ?conditions⟩, ?resources⟩, ?outputs⟩
  case transform =>
    have transform : t.transform.map f = t.transform := by simpa [mapValues] using congrArg Template.transform same
    exact fun v member => .inl ((option_map_eq_self_iff f _).mp transform v member)
  case parameters =>
    intro e member v inside
    have entry : (e.2.mapValues f).mapValues id = e.2.mapValues id := each (congrArg Template.parameters same) e member
    rw [Parameter.mapValues_id, Parameter.mapValues_id] at entry
    exact .inl ((Parameter.mapValues_eq_self_iff f e.2).mp entry v inside)
  case mappings => exact fun e member => .inl (each (g := fun f => f) (congrArg Template.mappings same) e member)
  case conditions => exact fun e member => .inl (each (g := fun f => f) (congrArg Template.conditions same) e member)
  case resources =>
    intro e member
    exact Resource.same_or_kept (each (congrArg Template.resources same) e member)
  case outputs =>
    intro e member v inside
    have entry : (e.2.mapValues f).mapValues id = e.2.mapValues id := each (congrArg Template.outputs same) e member
    rw [Output.mapValues_id, Output.mapValues_id] at entry
    exact .inl ((Output.mapValues_eq_self_iff f e.2).mp entry v inside)

theorem Template.mapValues_of_same {t : Template} (same : ∀ v ∈ t.values, f v = v) : t.mapValues f = t.mapValues id := by
  obtain ⟨⟨⟨⟨⟨transform, parameters⟩, mappings⟩, conditions⟩, resources⟩, outputs⟩ := by
    simpa only [values, List.forall_mem_append, List.forall_mem_flatMap, List.forall_mem_map] using same
  have transform : t.transform.map f = t.transform.map id := by
    rw [(option_map_eq_self_iff f _).mpr transform, Option.map_id, id]
  have parameters : mapEntries (Parameter.mapValues f) t.parameters = mapEntries (Parameter.mapValues id) t.parameters := by
    refine mapEntries_congr fun e member => ?_
    rw [(Parameter.mapValues_eq_self_iff f e.2).mpr (parameters e member), Parameter.mapValues_id]
  have mappings : mapEntries f t.mappings = mapEntries id t.mappings := mapEntries_congr mappings
  have conditions : mapEntries f t.conditions = mapEntries id t.conditions := mapEntries_congr conditions
  have resources : mapEntries (Resource.mapValues f) t.resources = mapEntries (Resource.mapValues id) t.resources := by
    refine mapEntries_congr fun e member => ?_
    obtain ⟨properties, metadata⟩ := List.forall_mem_cons.mp (resources e member)
    rw [Resource.mapValues, Resource.mapValues, properties, (option_map_eq_self_iff f _).mpr metadata, Option.map_id]
    rfl
  have outputs : mapEntries (Output.mapValues f) t.outputs = mapEntries (Output.mapValues id) t.outputs := by
    refine mapEntries_congr fun e member => ?_
    rw [(Output.mapValues_eq_self_iff f e.2).mpr (outputs e member), Output.mapValues_id]
  rw [mapValues, transform, parameters, mappings, conditions, resources, outputs]
  rfl

end Values

namespace Template

theorem readDocument_fits {text : String} {json : Json} {format : Format} (done : readDocument text = .ok (json, format)) :
    Json.Fits Yaml.Tree.levelLimit json := by
  unfold readDocument at done
  split at done
  · rename_i document read
    obtain rfl : document = json := congrArg Prod.fst ((pure_eq_ok _ _).mp done)
    exact (Json.parse_fits read).mono (by decide)
  · split at done
    · split at done
      · rename_i document read
        obtain rfl : document = json := congrArg Prod.fst ((pure_eq_ok _ _).mp done)
        exact (Yaml.Tree.toJsonAt_fits _ read).2
      · exact absurd done (throw_ne_ok _ _)
    · exact absurd done (throw_ne_ok _ _)

theorem parse_eq_ok {text : String} {t : Template} {format : Format} (done : parse text = .ok (t, format)) :
    ∃ root, Json.Fits Yaml.Tree.levelLimit (.obj root) ∧ ofMembers root = .ok t := by
  simp only [parse, bind_eq_ok, pure_eq_ok] at done
  obtain ⟨⟨json, format⟩, document, again, read, same⟩ := done
  obtain rfl : again = t := congrArg Prod.fst same
  have fits := readDocument_fits document
  cases json with
  | obj root => exact ⟨root, fits, read⟩
  | _ => exact absurd read (throw_ne_ok _ _)

/-- Every entry that was read has a valid name. -/
theorem entryNames_of_parse {text : String} {t : Template} {format : Format} (parsed : parse text = .ok (t, format)) :
    ∀ name ∈ t.entryNames, nameProblem? name = none := by
  obtain ⟨root, -, read⟩ := parse_eq_ok parsed
  exact ((ofMembers_eq_ok root t).mp read).acceptable.names

/-- The template is read from its YAML, and has the same document. -/
def ReadsBack (t : Template) : Prop :=
  ∃ json again, (Yaml.Tree.ofJson t.toJson).toJson = .ok json ∧ ofJson json = .ok again ∧ again.toJson = t.toJson

/-- A template that was read comes back from its YAML exactly if its attributes are kept. -/
theorem readsBack_iff_kept {text : String} {t : Template} {format : Format} (parsed : parse text = .ok (t, format)) :
    t.ReadsBack ↔ ∀ v ∈ t.values, v.Kept := by
  obtain ⟨root, fits, read⟩ := parse_eq_ok parsed
  have fields := (ofMembers_eq_ok root t).mp read
  have rereads : ∀ v ∈ t.values, Value.IsReread Value.callLimit [] v := by
    intro v member
    obtain ⟨nodes, nesting⟩ := Value.decoded_canonical v (fields.decoded v member)
    exact Value.exists_reread v nodes nesting
  choose! meant reads kept using rereads
  have dots : t.toJson.dotted = t.document dottedJson := dotted_document Value.toJson fields.acceptable.names
  have written : (Yaml.Tree.ofJson t.toJson).toJson = .ok t.toJson.dotted :=
    Yaml.Tree.readBack t.toJson (dots ▸ fields.fits fits) (Nat.zero_add _ ▸ Nat.le_refl _)
  have again : ofJson t.toJson.dotted = .ok (t.mapValues meant) :=
    dots ▸ ofJson_document fields.acceptable reads
  have back : t.ReadsBack ↔ (t.mapValues meant).toJson = t.toJson := by
    unfold ReadsBack
    simp only [written, Except.ok.injEq, exists_and_left, exists_eq_left', again]
  rw [back]
  constructor
  · intro same v member
    have second : ofJson (t.mapValues meant).toJson = .ok ((t.mapValues meant).mapValues id) := by
      rw [dots] at again
      exact ((ofMembers_eq_ok _ _).mp again).comesBack
    rw [same] at second
    rcases same_or_kept (Except.ok.inj (second.symm.trans fields.comesBack)) v member with same | stays
    · exact (kept v member).mp same
    · exact stays
  · intro all
    rw [mapValues_of_same fun v member => (kept v member).mpr (all v member), toJson_mapValues_id]

/-- An output whose attribute has a dot in its own name. -/
def portText : String :=
  "\x7b\"Resources\":\x7b\x7d,\"Outputs\":\x7b\"Data\":\x7b\"Value\":\x7b\"Fn::GetAtt\":[\"Db\",\"Endpoint.Port\"]\x7d\x7d\x7d\x7d"

def portTemplate : Template := outputTemplate (.fn (.getAtt ⟨"Db", "Endpoint.Port"⟩))

theorem readsBack_port : parse portText = .ok (portTemplate, .json) ∧ portTemplate.ReadsBack := by
  have parsed : parse portText = .ok (portTemplate, .json) := by decide +kernel
  have kept : (Value.fn (.getAtt ⟨"Db", "Endpoint.Port"⟩)).Kept := by
    refine (Value.everywhere_iff _ _).mpr ⟨?_, fun _ child => by cases child⟩
    show '.' ∉ "Db".toList
    decide
  exact ⟨parsed, (readsBack_iff_kept parsed).mpr (List.forall_mem_singleton.mpr kept)⟩

/-- An output whose function is unknown and takes an attribute. -/
def lengthText : String :=
  "\x7b\"Resources\":\x7b\x7d,\"Outputs\":\x7b\"Data\":\x7b\"Value\":\x7b\"Fn::Length\":\x7b\"Fn::GetAtt\":[\"Db\",\"Names\"]\x7d\x7d\x7d\x7d\x7d"

def lengthTemplate : Template :=
  outputTemplate (.fn (.verbatim "Fn::Length" (.obj [("Fn::GetAtt", .arr [.str "Db", .str "Names"])])))

/-- Arguments that are kept as written come back with the dot in them. -/
theorem not_readsBack_length :
    parse lengthText = .ok (lengthTemplate, .json) ∧ (∃ text, lengthTemplate.yamlText = .ok text) ∧
      ¬ lengthTemplate.ReadsBack := by
  refine ⟨by decide +kernel, ⟨_, rfl⟩, ?_⟩
  rintro ⟨json, again, written, read, same⟩
  obtain rfl := Except.ok.inj written
  obtain rfl : outputTemplate (.fn (.verbatim "Fn::Length" (.obj [("Fn::GetAtt", .str "Db.Names")]))) = again :=
    Except.ok.inj read
  cases same

end Template

end StackCompiler
