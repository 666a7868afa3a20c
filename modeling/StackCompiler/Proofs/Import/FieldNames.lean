import StackCompiler.Proofs.Import.BrokenEdges
import StackCompiler.Proofs.Import.Generation
import StackCompiler.Proofs.Import.Objects
import StackCompiler.Proofs.Rust.LegalName

/-!
The fields of generated structs. Those of entries that are no resources, and those that a template
sets beside the properties of a resource, have fixed names, which are legal and differ. The others are
called after the keys of objects, one field for each key, and nothing keeps two keys from giving
one name. So the structs of a template are legal exactly if the keys of each of its objects are
(`LegalKeys`).
-/
namespace StackCompiler.Import

open Rust (Expr)

variable {ids : Identifiers} {schema : Schema}

/-! ### Structs -/

/-- Names that the fields of one struct may have. -/
def LegalFields (names : List String) : Prop :=
  names.Nodup ∧ ∀ name ∈ names, Rust.IsFieldIdentifier name

instance (names : List String) : Decidable (LegalFields names) := inferInstanceAs (Decidable (_ ∧ _))

/-- A node is no struct, or its fields have legal names. -/
def LegalStruct : Expr → Prop
  | .struct _ fields => LegalFields (fields.map (·.1))
  | _ => True

theorem AllMade.legal {e : Expr} (made : AllMade ids e) : e.Everywhere LegalStruct := by
  refine made.mono fun w node => ?_
  cases w with
  | struct _ _ => exact node.elim
  | _ => trivial

theorem struct_legal_iff {type : String} {fields : List (String × Expr)}
    (inner : ∀ e ∈ fields.map (·.2), e.Everywhere LegalStruct) :
    (Expr.struct type fields).Everywhere LegalStruct ↔ LegalFields (fields.map (·.1)) :=
  (Expr.everywhere_struct type fields).trans (and_iff_left inner)

theorem LegalFields.sublist {names more : List String} (legal : LegalFields more) (sublist : names.Sublist more) :
    LegalFields names :=
  ⟨legal.1.sublist sublist, fun name member => legal.2 name (sublist.subset member)⟩

theorem FieldsOf.legal {names : List String} {type : String} {fields : List (String × Expr)} (of : FieldsOf ids names fields)
    (legal : LegalFields names) : (Expr.struct type fields).Everywhere LegalStruct :=
  (struct_legal_iff fun e member => (of.made e member).legal).mpr (legal.sublist of.named)

/-! ### Keys -/

/-- Keys that give names which the fields of one struct may have. -/
def LegalKeys (keys : List String) : Prop :=
  (keys.map Rust.fieldName).Nodup ∧ ∀ key ∈ keys, ¬ Rust.Nameless key

instance (keys : List String) : Decidable (LegalKeys keys) := inferInstanceAs (Decidable (_ ∧ _))

theorem legalFields_map_iff (keys : List String) : LegalFields (keys.map Rust.fieldName) ↔ LegalKeys keys := by
  refine and_congr_right fun _ => ?_
  rw [List.forall_mem_map]
  exact forall₂_congr fun key _ => Rust.isFieldIdentifier_fieldName_iff key

theorem Declares.legal_iff {holder : String} {part : Part} {s : Static} (declares : Declares ids holder part s) :
    s.body.Everywhere LegalStruct ↔ LegalKeys part.keys := by
  obtain ⟨type, fields, body, names, made⟩ := declares.body
  rw [body, struct_legal_iff fun e member => (made e member).legal, names, legalFields_map_iff]

/-! ### Resources -/

/-- The keys of the fields that a template sets beside the properties of a resource. -/
def metaKeys (r : Resource) : List String := (metaField r).map (·.1)

theorem metaKeys_sublist (r : Resource) : (metaKeys r).Sublist ["meta"] := by
  unfold metaKeys metaField
  split
  · exact List.nil_sublist _
  · exact List.Sublist.refl _

theorem metaKeys_fieldName (r : Resource) : (metaKeys r).map Rust.fieldName = metaKeys r := by
  have named : Rust.fieldName "meta" = "meta" := by decide +kernel
  rcases List.sublist_singleton.mp (metaKeys_sublist r) with none | one
  · rw [none, List.map_nil]
  · rw [one, List.map_singleton, named]

theorem metaField_legal (r : Resource) : ∀ e ∈ (metaField r).map (·.2), e.Everywhere LegalStruct := by
  have legal : LegalFields metaNames := by decide +kernel
  exact forall_metaField ⟨[]⟩ (fun _ of => of.legal legal) r

/-- The keys after which the fields of a resource's declarations are called: those of its properties, with
    what the template sets beside them, and those of its parts. A placeholder has no such fields. -/
def objectKeys (schema : Schema) (r : Resource) : List (List String) :=
  match resourceType? schema r with
  | some _ => (propertyKeys r.properties ++ metaKeys r) :: (partsOf schema r).map Part.keys
  | none => [[]]

/-- The structs of a declaration are legal exactly if `keys` are. -/
def LegalAs (keys : List String) (s : Static) : Prop :=
  s.body.Everywhere LegalStruct ↔ LegalKeys keys

/-- A struct with the fields of a resource and then those that the template sets beside the properties. -/
theorem resource_legal_iff {type : String} {r : Resource} {fields : List (String × Expr)} (made : FieldsMade ids fields) :
    (Expr.struct type (fields ++ metaField r)).Everywhere LegalStruct ↔ LegalFields (fields.map (·.1) ++ metaKeys r) := by
  have inner : ∀ e ∈ (fields ++ metaField r).map (·.2), e.Everywhere LegalStruct := by
    rw [List.map_append, List.forall_mem_append]
    exact ⟨fun e member => (made e member).legal, metaField_legal r⟩
  rw [struct_legal_iff inner, List.map_append, metaKeys]

theorem DeclaresResource.legalAs {logical : String} {r : Resource} {own : Static} {parts : List Static}
    (declares : DeclaresResource ids schema logical r own parts) :
    List.Forall₂ LegalAs (objectKeys schema r) (own :: parts) := by
  obtain ⟨type, fields, body, ownFields⟩ := declares.body
  have whole : own.body.Everywhere LegalStruct ↔ LegalFields (fields.map (·.1) ++ metaKeys r) := by
    rw [body, resource_legal_iff ownFields.made]
  have inside := declares.parts
  unfold OwnFields at ownFields
  unfold partsOf at inside
  unfold objectKeys partsOf
  cases typed : resourceType? schema r with
  | some _ =>
    rw [typed] at ownFields inside
    have names : fields.map (·.1) ++ metaKeys r = (propertyKeys r.properties ++ metaKeys r).map Rust.fieldName := by
      rw [List.map_append, metaKeys_fieldName, ownFields.1]
    rw [names, legalFields_map_iff] at whole
    exact .cons whole (List.forall₂_map_left_iff.mpr (inside.imp fun _ _ declares => declares.legal_iff))
  | none =>
    -- A placeholder has fields of fixed names, whatever the properties are.
    rw [typed] at ownFields inside
    cases inside
    have legal : LegalFields (fields.map (·.1) ++ metaKeys r) :=
      LegalFields.sublist (by decide +kernel) (ownFields.named.append (metaKeys_sublist r))
    exact .cons (iff_of_true (whole.mpr legal) (by decide)) .nil

/-! ### Templates -/

theorem EntryBody.legal {type : String} {e : Expr} (body : EntryBody ids type e) : e.Everywhere LegalStruct := by
  have fixed : ∀ entry ∈ [("Parameter", parameterFields), ("Output", outputFields)], LegalFields entry.2 := by decide +kernel
  cases body with
  | constructed _ initial => exact ((allMade_call _ _).mpr (List.forall_mem_singleton.mpr initial.made)).legal
  | struct known of => exact of.legal (fixed _ known)

theorem otherStatics_legal (t : Template) : ∀ s ∈ otherStatics ids t, s.body.Everywhere LegalStruct :=
  fun s member => (otherStatics_body t s member).2.legal

/-- The declarations of resources are legal as far as the keys of their objects are, and the others always. -/
theorem lowerTemplate_legal {t : Template} {statics : List Static} {progress : Progress}
    (lowered : lowerTemplate schema t = .ok (statics, progress)) :
    ∃ resources others, statics = resources ++ others ∧
      List.Forall₂ LegalAs (t.resources.flatMap (objectKeys schema ·.2)) resources ∧
      ∀ s ∈ others, s.body.Everywhere LegalStruct := by
  obtain ⟨ids, _, resources, _, -, run, rfl⟩ := lowerTemplate_eq_ok lowered
  obtain ⟨groups, rfl, each⟩ := lowerResources_declares run
  exact ⟨_, _, rfl, forall₂_flatMap each fun e _ group declares => declares.legalAs, otherStatics_legal t⟩

/-- Breaking cycles changes no struct. -/
theorem demoteEdges_legal_iff (broken : List BrokenEdge) (s : Static) :
    (s.demoteEdges broken).body.Everywhere LegalStruct ↔ s.body.Everywhere LegalStruct := by
  have same (f : Option String → Option String) (e : Expr) : LegalStruct (e.mapSlots f) ↔ LegalStruct e := by
    cases e with
    | struct type fields =>
      have names : (Expr.mapFieldSlots f fields).map (·.1) = fields.map (·.1) := by
        rw [Expr.mapFieldSlots_eq_map, List.map_map]
        rfl
      rw [Expr.mapSlots, LegalStruct, names, LegalStruct]
    | _ => exact Iff.rfl
  rw [demoteEdges_eq]
  exact Expr.everywhere_mapSlots_iff (same _) s.body

theorem breakCycles_legal {t : Template} {statics : List Static} {progress : Progress}
    (lowered : lowerTemplate schema t = .ok (statics, progress)) :
    ∃ resources others, (breakCycles statics).1 = resources ++ others ∧
      List.Forall₂ LegalAs (t.resources.flatMap (objectKeys schema ·.2)) resources ∧
      ∀ s ∈ others, s.body.Everywhere LegalStruct := by
  obtain ⟨resources, others, rfl, each, rest⟩ := lowerTemplate_legal lowered
  refine ⟨_, _, List.map_append, List.forall₂_map_right_iff.mpr ?_, List.forall_mem_map.mpr ?_⟩
  · exact each.imp fun _ s as => (demoteEdges_legal_iff _ s).trans as
  · exact fun s member => (demoteEdges_legal_iff _ s).mpr (rest s member)

/-- In each struct of the generated files the names of fields are legal and differ, exactly if this is so
    for the names that the keys of one object give, with those of the fields that are set beside
    properties. A key gives an illegal name only if no letter or digit is left of it, and at most
    one other character. -/
theorem generated_structs_legal_iff {package : String} {t : Template} {g : Generated}
    (generated : generate schema package t = .ok g) :
    ∃ statics progress, lowerTemplate schema t = .ok (statics, progress) ∧
      g.files = renderFiles package (breakCycles statics).1 ∧
      (∃ resources others, (breakCycles statics).1 = resources ++ others ∧
        List.Forall₂ (fun keys s => s.body.Everywhere LegalStruct ↔ LegalKeys keys)
          (t.resources.flatMap (objectKeys schema ·.2)) resources ∧
        ∀ s ∈ others, s.body.Everywhere LegalStruct) ∧
      ((∀ s ∈ (breakCycles statics).1, s.body.Everywhere LegalStruct) ↔
        ∀ e ∈ t.resources, ∀ keys ∈ objectKeys schema e.2, LegalKeys keys) := by
  obtain ⟨statics, progress, lowered, rfl⟩ := (generate_eq_ok _ _ _ _).mp generated
  obtain ⟨resources, others, split, each, rest⟩ := breakCycles_legal lowered
  refine ⟨statics, progress, lowered, rfl, ⟨resources, others, split, each, rest⟩, ?_⟩
  rw [split, List.forall_mem_append, and_iff_left rest, ← List.forall_mem_flatMap]
  exact (forall_mem_iff_of_forall₂ each fun keys _ s as => as.symm).symm

/-- A queue whose properties have keywords and digits for names, that has a part, and that is kept when
    the stack is deleted. -/
def keywordTemplate : Template :=
  { Template.empty with
    resources := [
      ("Queue", { type := "AWS::SQS::Queue"
                  properties := .obj [("Type", .str "a"), ("self", .str "b"), ("2nd", .str "c"), ("__", .str "d"),
                    ("Redrive", .obj [("Crate", .str "e")])]
                  deletionPolicy := some "Retain" })] }

theorem generated_structs_legal_keywords :
    ∃ g statics progress, generate .inferred defaultPackage keywordTemplate = .ok g ∧
      lowerTemplate .inferred keywordTemplate = .ok (statics, progress) ∧
      g.files = renderFiles defaultPackage (breakCycles statics).1 ∧
      ["Type", "self", "2nd", "__", "Redrive", "meta"].map Rust.fieldName =
        ["r#type", "self_", "_2nd", "__", "redrive", "meta"] ∧
      ∀ s ∈ (breakCycles statics).1, s.body.Everywhere LegalStruct := by
  obtain ⟨statics, progress, lowered⟩ := lowerTemplate_succeeds
    (by decide +kernel : ∀ key ∈ entriesOf keywordTemplate, Rust.declarationName? key.2 ≠ none)
  have generated := (generate_eq_ok _ defaultPackage _ _).mpr ⟨statics, progress, lowered, rfl⟩
  obtain ⟨statics, progress, lowered, files, -, legal⟩ := generated_structs_legal_iff generated
  refine ⟨_, statics, progress, generated, lowered, files, by decide +kernel, legal.mpr ?_⟩
  decide +kernel

/-- A queue with two keys that differ only in case. -/
def caseText : String :=
  "\x7b\"Resources\":\x7b\"Queue\":\x7b\"Type\":\"AWS::SQS::Queue\",\"Properties\":\x7b\"QueueName\":\"a\",\"queueName\":\"b\"\x7d\x7d\x7d\x7d"

def caseTemplate : Template :=
  { Template.empty with
    resources := [
      ("Queue", { type := "AWS::SQS::Queue", properties := .obj [("QueueName", .str "a"), ("queueName", .str "b")] })] }

/-- Both keys give the same field. A key of which nothing is left gives an underscore. -/
theorem keys_share_field :
    Template.parse caseText = .ok (caseTemplate, .json) ∧
      (∃ g statics progress, generate .inferred defaultPackage caseTemplate = .ok g ∧
        lowerTemplate .inferred caseTemplate = .ok (statics, progress) ∧
        g.files = renderFiles defaultPackage (breakCycles statics).1 ∧
        ["QueueName", "queueName"].map Rust.fieldName = ["queue_name", "queue_name"] ∧
        ¬ ∀ s ∈ (breakCycles statics).1, s.body.Everywhere LegalStruct) ∧
      ∀ key ∈ ["", "-", "$"], Rust.fieldName key = "_" := by
  have parsed : Template.parse caseText = .ok (caseTemplate, .json) := by decide +kernel
  obtain ⟨statics, progress, lowered⟩ := lowerTemplate_succeeds_of_parse parsed
  refine ⟨parsed, ⟨_, statics, progress, (generate_eq_ok _ _ _ _).mpr ⟨statics, progress, lowered, rfl⟩, lowered, rfl,
    by decide +kernel, fun all => ?_⟩, by decide +kernel⟩
  obtain ⟨resources, others, split, each, -⟩ := breakCycles_legal lowered
  have legal : ∀ keys ∈ caseTemplate.resources.flatMap (objectKeys .inferred ·.2), LegalKeys keys := by
    refine (forall_mem_iff_of_forall₂ each fun keys _ s as => as.symm).mpr fun s member => ?_
    exact all s (split ▸ List.mem_append_left others member)
  exact absurd legal (by decide +kernel)

end StackCompiler.Import
