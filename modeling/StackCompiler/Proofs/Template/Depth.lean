import StackCompiler.Proofs.Json.Reading
import StackCompiler.Proofs.Template.RoundTrip
import StackCompiler.Proofs.Value.Depth

/-!
What reading a template does to the depth of its document. The document that is written
for a template that was read is well formed, and it nests no deeper than the one that it
was read from, four levels apart (`IsTemplate.fits`).
-/
namespace StackCompiler

open Json (Fits fits_obj fits_arr)

/-! ### Written members -/

/-- Members with some of `names`, in their order, each of at most `depth` levels. -/
structure MembersFit (names : List String) (depth : Nat) (members : List (String × Json)) : Prop where
  names : (memberNames members).Sublist names
  each : ∀ w ∈ members.map (·.2), Fits depth w

namespace MembersFit

variable {n : Nat} {name : String} {α : Type}

theorem cons {names : List String} {first rest : List (String × Json)} (front : MembersFit [name] n first)
    (back : MembersFit names n rest) : MembersFit (name :: names) n (first ++ rest) where
  names := by
    rw [memberNames, List.map_append]
    exact front.names.append back.names
  each := by
    rw [List.map_append, List.forall_mem_append]
    exact ⟨front.each, back.each⟩

theorem single {json : Json} (fits : Fits n json) : MembersFit [name] n [(name, json)] where
  names := List.Sublist.refl _
  each := List.forall_mem_singleton.mpr fits

theorem none : MembersFit [name] n [] where
  names := List.nil_sublist _
  each := List.forall_mem_nil _

theorem memberIf {written : Prop} [Decidable written] {json : Json} (fits : written → Fits n json) :
    MembersFit [name] n (if written then [(name, json)] else []) := by
  split
  · rename_i yes
    exact single (fits yes)
  · exact none

theorem optionalMember {encode : α → Json} {o : Option α} (fits : ∀ a ∈ o, Fits n (encode a)) :
    MembersFit [name] n (optionalMember name encode o) := by
  cases o with
  | none => exact none
  | some a => exact single (fits a rfl)

theorem listMember {encode : List α → Json} {items : List α} (fits : Fits n (encode items)) :
    MembersFit [name] n (listMember name encode items) := by
  unfold StackCompiler.listMember
  split
  · exact none
  · exact single fits

theorem fits (names : List String) {members : List (String × Json)} (all : MembersFit names n members)
    (distinct : names.Nodup) : Fits (n + 1) (.obj members) :=
  (fits_obj _ _).mpr ⟨distinct.sublist all.names, fun w member => ⟨Nat.succ_pos n, all.each w member⟩⟩

end MembersFit

namespace Template

variable {n : Nat} {name sectionName owner field : String} {body root : List (String × Json)}

/-! ### Fields -/

theorem lookup_fits {json : Json} (fits : Fits (n + 1) (.obj body)) (found : body.lookup field = some json) :
    Fits n json :=
  (fits.child (List.mem_map_of_mem (mem_of_lookup found))).2

/-- The document that is written for a value, with its attributes dotted. -/
def dottedJson (v : Value) : Json := v.toJson.dotted

theorem readValue_fits {json : Json} {v : Value} (done : readValue sectionName owner json = .ok v) (fits : Fits n json) :
    Fits n (dottedJson v) :=
  Value.decodeAt_fits json ((readValue_eq_ok json v).mp done) fits

theorem readOptionalValue_fits {o : Option Value} (fits : Fits (n + 1) (.obj body))
    (done : readOptionalValue sectionName owner (body.lookup field) = .ok o) : ∀ v ∈ o, Fits n (dottedJson v) := by
  cases found : body.lookup field with
  | none =>
    rw [found] at done
    obtain rfl := (pure_eq_ok _ _).mp done
    simp
  | some json =>
    rw [found] at done
    obtain ⟨v, read, rfl⟩ := (map_eq_ok _ _ _).mp done
    simpa using readValue_fits read (lookup_fits fits found)

theorem numberField_finite {o : Option Number} (fits : Fits (n + 1) (.obj body))
    (done : numberField name body field = .ok o) : ∀ x ∈ o, x.Finite := by
  unfold numberField at done
  split at done
  · obtain rfl := (pure_eq_ok _ _).mp done
    simp
  · obtain rfl := (pure_eq_ok _ _).mp done
    simp
  · rename_i x found
    obtain rfl := (pure_eq_ok _ _).mp done
    simpa using lookup_fits fits found
  · split at done
    · rename_i x read
      obtain rfl := (pure_eq_ok _ _).mp done
      simpa using Json.parseNumber?_finite read
    · exact absurd done (throw_ne_ok _ _)
  · exact absurd done (throw_ne_ok _ _)

theorem readAllowedValues_fits {values : List Value} (fits : Fits (n + 2) (.obj body))
    (done : readAllowedValues name (body.lookup field) = .ok values) : ∀ v ∈ values, Fits n (dottedJson v) := by
  unfold readAllowedValues at done
  split at done
  · obtain rfl := (pure_eq_ok _ _).mp done
    simp
  · rename_i items found
    intro v member
    obtain ⟨json, inside, read⟩ := exists_mem_of_forall₂ ((mapM_eq_ok_iff _ _ _).mp done) member
    exact readValue_fits read ((lookup_fits fits found).child inside).2
  · exact absurd done (throw_ne_ok _ _)

theorem readExport_fits {o : Option Value} (fits : Fits (n + 2) (.obj body))
    (done : readExport name (body.lookup field) = .ok o) : ∀ v ∈ o, Fits n (dottedJson v) := by
  unfold readExport at done
  split at done
  · obtain rfl := (pure_eq_ok _ _).mp done
    simp
  · obtain rfl := (pure_eq_ok _ _).mp done
    simp
  · rename_i members found
    split at done
    · rename_i json named
      obtain ⟨v, read, rfl⟩ := (map_eq_ok _ _ _).mp done
      simpa using readValue_fits read (lookup_fits (lookup_fits fits found) named)
    · exact absurd done (throw_ne_ok _ _)
  · exact absurd done (throw_ne_ok _ _)

theorem fits_list {α : Type} {encode : α → Json} {items : List α} (each : ∀ a ∈ items, Fits n (encode a)) :
    Fits (n + 1) (.arr (items.map encode)) := by
  rw [fits_arr, List.forall_mem_map]
  exact fun a member => ⟨Nat.succ_pos n, each a member⟩

/-! ### Entries -/

theorem fits_text {o : Option String} : ∀ s ∈ o, Fits n (.str s) := fun s _ => Json.fits_str n s

theorem fits_length {o : Option Nat} : ∀ i ∈ o, Fits n (.nat i) := fun _ _ => (Json.fits_num n _).mpr trivial

theorem fits_number {o : Option Number} (finite : ∀ x ∈ o, x.Finite) : ∀ x ∈ o, Fits n (.num x) :=
  fun x member => (Json.fits_num n x).mpr (finite x member)

theorem IsParameter.fits {p : Parameter} (fields : IsParameter name body p) (fits : Fits (n + 2) (.obj body)) :
    Fits (n + 2) (p.document dottedJson) := by
  unfold Parameter.document
  simp only [List.append_assoc]
  refine MembersFit.fits ["Type", "Description", "Default", "AllowedValues", "AllowedPattern", "ConstraintDescription",
    "MinLength", "MaxLength", "MinValue", "MaxValue", "NoEcho"] ?_ (by decide)
  refine .cons (.single (Json.fits_str _ _)) ?_
  refine .cons (.optionalMember fits_text) ?_
  refine .cons (.optionalMember (readOptionalValue_fits fits fields.default)) ?_
  refine .cons (.listMember (fits_list (readAllowedValues_fits fits fields.allowedValues))) ?_
  refine .cons (.optionalMember fits_text) ?_
  refine .cons (.optionalMember fits_text) ?_
  refine .cons (.optionalMember fits_length) ?_
  refine .cons (.optionalMember fits_length) ?_
  refine .cons (.optionalMember (fits_number (numberField_finite fits fields.minValue))) ?_
  refine .cons (.optionalMember (fits_number (numberField_finite fits fields.maxValue))) ?_
  exact .memberIf fun _ => Json.fits_bool _ _

theorem IsResource.fits {r : Resource} (fields : IsResource name body r) (fits : Fits (n + 2) (.obj body)) :
    Fits (n + 2) (r.document dottedJson) := by
  have properties : Fits (n + 1) (dottedJson r.properties) := by
    obtain ⟨found, read, same⟩ := fields.properties
    cases found with
    | none => exact same ▸ Json.fits_null _
    | some v => exact same ▸ readOptionalValue_fits fits read v rfl
  unfold Resource.document
  simp only [List.append_assoc]
  refine MembersFit.fits ["Type", "Condition", "DependsOn", "Properties", "DeletionPolicy", "UpdateReplacePolicy",
    "Metadata"] ?_ (by decide)
  refine .cons (.single (Json.fits_str _ _)) ?_
  refine .cons (.optionalMember fits_text) ?_
  refine .cons (.listMember (fits_list fun s _ => Json.fits_str n s)) ?_
  refine .cons (.memberIf fun _ => properties) ?_
  refine .cons (.optionalMember fits_text) ?_
  refine .cons (.optionalMember fits_text) ?_
  exact .optionalMember (readOptionalValue_fits fits fields.metadata)

theorem IsOutput.fits {o : Output} (fields : IsOutput name body o) (fits : Fits (n + 2) (.obj body)) :
    Fits (n + 2) (o.document dottedJson) := by
  have value : Fits (n + 1) (dottedJson o.value) := by
    obtain ⟨json, found, read⟩ := fields.value
    exact readValue_fits read (lookup_fits fits found)
  have exported : ∀ v ∈ o.exportName, Fits (n + 1) (.obj [("Name", dottedJson v)]) :=
    fun v member => (Json.fits_single _ _ _).mpr ⟨Nat.succ_pos n, readExport_fits fits fields.exportName v member⟩
  unfold Output.document
  simp only [List.append_assoc]
  refine MembersFit.fits ["Description", "Condition", "Value", "Export"] ?_ (by decide)
  refine .cons (.optionalMember fits_text) ?_
  refine .cons (.optionalMember fits_text) ?_
  refine .cons (.single value) ?_
  exact .optionalMember exported

/-! ### Templates -/

/-- The entries of a section are named apart, as members are. -/
theorem readSection_nodup {α : Type} {entry : String → Json → Except TemplateError α} {entries : List (String × α)}
    (fits : Fits n (.obj root)) (done : readSection root sectionName entry = .ok entries) :
    (memberNames entries).Nodup := by
  rcases readSection_eq_ok done with rfl | ⟨members, found, done⟩
  · exact List.nodup_nil
  · rw [readEntries_names done]
    exact (fits.child (List.mem_map_of_mem (mem_of_lookup found))).2.formed

theorem readSection_fits {α : Type} {entry : String → Json → Except TemplateError α} {encode : α → Json}
    {entries : List (String × α)} (fits : Fits (n + 2) (.obj root))
    (done : readSection root sectionName entry = .ok entries)
    (each : ∀ {name json a}, entry name json = .ok a → Fits n json → Fits n (encode a)) :
    Fits (n + 1) (sectionJson encode entries) := by
  rcases readSection_eq_ok done with rfl | ⟨members, found, done⟩
  · simp [sectionJson, fits_obj, memberNames]
  · have read := (readEntries_eq_ok members entries).mp done
    have inner := lookup_fits fits found
    have values : ∀ e ∈ entries, Fits n (encode e.2) := by
      intro e member
      obtain ⟨source, inside, -, -, read⟩ := exists_mem_of_forall₂ read member
      exact each read (inner.child (List.mem_map_of_mem inside)).2
    have written : sectionJson encode entries = .obj (mapEntries encode entries) := rfl
    rw [written, fits_obj, memberNames_mapEntries, readEntries_names done, values_mapEntries, List.forall_mem_map,
      List.forall_mem_map]
    exact ⟨inner.formed, fun e member => ⟨Nat.succ_pos n, values e member⟩⟩

/-- The document that is written for a template that was read is as deep as the one that was
    read, or has only names below its third level. -/
theorem IsTemplate.fits {t : Template} (fields : IsTemplate root t) (fits : Fits (n + 4) (.obj root)) :
    Fits (n + 4) (t.document dottedJson) := by
  have parameters : Fits (n + 3) (sectionJson (Parameter.document dottedJson) t.parameters) :=
    readSection_fits fits fields.parameters fun read fits => by
      obtain ⟨body, rfl, fields⟩ := (readParameter_eq_ok _ _ _).mp read
      exact fields.fits fits
  have resources : Fits (n + 3) (sectionJson (Resource.document dottedJson) t.resources) :=
    readSection_fits fits fields.resources fun read fits => by
      obtain ⟨body, rfl, fields⟩ := (readResource_eq_ok _ _ _).mp read
      exact fields.fits fits
  have outputs : Fits (n + 3) (sectionJson (Output.document dottedJson) t.outputs) :=
    readSection_fits fits fields.outputs fun read fits => by
      obtain ⟨body, rfl, fields⟩ := (readOutput_eq_ok _ _ _).mp read
      exact fields.fits fits
  unfold Template.document
  simp only [List.append_assoc]
  refine MembersFit.fits ["AWSTemplateFormatVersion", "Description", "Transform", "Parameters", "Mappings", "Conditions",
    "Resources", "Outputs"] ?_ (by decide)
  refine .cons (.single (Json.fits_str _ _)) ?_
  refine .cons (.optionalMember fits_text) ?_
  refine .cons (.optionalMember (readOptionalValue_fits fits fields.transform)) ?_
  refine .cons (.listMember parameters) ?_
  refine .cons (.listMember (readSection_fits fits fields.mappings readValue_fits)) ?_
  refine .cons (.listMember (readSection_fits fits fields.conditions readValue_fits)) ?_
  refine .cons (.single resources) ?_
  exact .listMember outputs

end Template

end StackCompiler
