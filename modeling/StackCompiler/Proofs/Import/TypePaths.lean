import StackCompiler.Proofs.Import.BrokenEdges
import StackCompiler.Proofs.Import.Objects
import StackCompiler.Proofs.Import.PartNames
import StackCompiler.Proofs.Registry.Module
import StackCompiler.Proofs.Rust.JsonUse

/-!
The names in declarations. The type of a declaration is a path into the module that is its
home, and no path at all where it has none (`Homed`). No name in an initialiser begins as a call
of the macro for documents does (`AllFit`). Lowering keeps to both wherever it makes a declaration
(`lowerTemplate_sound`), and breaking cycles changes neither.
-/
namespace StackCompiler.Import

open Rust (Expr NameTable IsCapitalized)
open Rust.Expr (StartsApart LeadsApart)

/-! ### Paths -/

/-- The module of a namespace in the resource library. -/
def IsModule (name : String) : Prop := ∃ ns ∈ Namespace.all, Rust.fieldName ns.short = name

theorem IsModule.apart {name : String} (isModule : IsModule name) : StartsApart name := by
  obtain ⟨ns, known, rfl⟩ := isModule
  obtain ⟨-, c, first, -, other⟩ := Namespace.module_plain known
  exact Expr.startsApart_of_head first other

/-- A type that is no path. -/
def Unqualified (type : String) : Prop := ':' ∉ type.toList

instance (type : String) : Decidable (Unqualified type) := inferInstanceAs (Decidable (¬ _))

/-- The type of a declaration is a path into the module that is its home; without a home it is
    no path. -/
def Homed (s : Static) : Prop :=
  match s.home with
  | some home => IsModule home ∧ ∃ rest, s.type = home ++ "::" ++ rest
  | none => Unqualified s.type

theorem isModule_of_ofCanonical? {canonical : String} {declared : DeclaredType}
    (found : DeclaredType.ofCanonical? canonical = some declared) : IsModule (Rust.fieldName declared.ns.short) := by
  simp only [DeclaredType.ofCanonical?, Option.bind_eq_bind, Option.bind_eq_some_iff, Prod.exists] at found
  obtain ⟨qualified, kind, -, found⟩ := found
  split at found
  · cases found
  · obtain ⟨ns, listed, same⟩ := Option.bind_eq_some_iff.mp found
    cases same
    exact ⟨ns, List.mem_of_find?_eq_some listed, rfl⟩

/-! ### Initialisers -/

/-- The type of a node that is a struct. -/
def structType? : Expr → Option String
  | .struct type _ => some type
  | _ => none

/-- The source of a node does not begin as a call of the macro does, and the type of a struct satisfies
    `P`. -/
structure Fits (P : String → Prop) (e : Expr) : Prop where
  leads : LeadsApart e
  type : ∀ type ∈ structType? e, P type

/-- All names in an initialiser are apart from the macro, and the types in it are no paths. -/
def AllFit (e : Expr) : Prop := e.Everywhere (Fits Unqualified)

def FieldsFit (fields : List (String × Expr)) : Prop := ∀ e ∈ fields.map (·.2), AllFit e

/-- No identifier of an entry begins as a call of the macro does. -/
def IdentsApart (ids : Identifiers) : Prop := ∀ ident ∈ ids.idents, StartsApart ident

section Nodes

variable {P : String → Prop}

/-- A node that is no struct. -/
theorem fits_untyped {e : Expr} (leads : LeadsApart e) (untyped : structType? e = none) : Fits P e where
  leads := leads
  type := by
    intro type typed
    rw [untyped] at typed
    cases typed

theorem leadsApart_of_startsApart {e : Expr} {name : String} (leading : e.leadingName? = some name)
    (apart : StartsApart name) : LeadsApart e := by
  intro other leads
  rw [leading] at leads
  cases leads
  exact apart

theorem fits_unnamed {e : Expr} (unnamed : e.leadingName? = none) (untyped : structType? e = none) : Fits P e := by
  refine fits_untyped (fun name leads => ?_) untyped
  rw [unnamed] at leads
  cases leads

end Nodes

theorem allFit_list (items : List Expr) : AllFit (.list items) ↔ ∀ e ∈ items, AllFit e := by
  rw [AllFit, Expr.everywhere_list]
  exact and_iff_right (fits_unnamed rfl rfl)

theorem allFit_call (func : String) (args : List Expr) :
    AllFit (.call func args) ↔ StartsApart func ∧ ∀ e ∈ args, AllFit e := by
  rw [AllFit, Expr.everywhere_call]
  exact and_congr_left fun _ => ⟨fun fits => fits.leads func rfl, fun apart => fits_untyped (leadsApart_of_startsApart rfl apart) rfl⟩

theorem allFit_static {ident : String} (apart : StartsApart ident) : AllFit (.static ident) :=
  (Expr.everywhere_static ident).mpr (fits_untyped (leadsApart_of_startsApart rfl apart) rfl)

/-- A struct of a type for which others are no paths. -/
theorem everywhere_fits_struct {P : String → Prop} {type : String} {fields : List (String × Expr)} (apart : StartsApart type)
    (own : P type) (unqualified : ∀ other, Unqualified other → P other) (fit : FieldsFit fields) :
    (Expr.struct type fields).Everywhere (Fits P) := by
  refine (Expr.everywhere_struct type fields).mpr ⟨⟨leadsApart_of_startsApart rfl apart, ?_⟩, fun e member => ?_⟩
  · rintro _ ⟨⟩
    exact own
  · exact (fit e member).mono fun w fits => ⟨fits.leads, fun other typed => unqualified other (fits.type other typed)⟩

variable {ids : Identifiers}

theorem Initial.fit (idents : IdentsApart ids) {e : Expr} (initial : Initial ids e) : AllFit e := by
  refine initial.mono fun w node => ?_
  cases w with
  | ref target slot =>
    subst node
    exact fits_untyped (fun name found => idents name (Identifiers.mem_idents_of_ofReference? found)) rfl
  | attr target name slot =>
    subst node
    exact fits_untyped (fun name found => idents name (Identifiers.mem_idents_of_ofAttribute? found)) rfl
  | call func args => exact fits_untyped (leadsApart_of_startsApart rfl node) rfl
  | static _ | struct _ _ => exact node.elim
  | str _ | literal _ | json _ | list _ | pairs _ | some _ => exact fits_unnamed rfl rfl

theorem FieldsOf.fit (idents : IdentsApart ids) {names : List String} {fields : List (String × Expr)}
    (of : FieldsOf ids names fields) : FieldsFit fields :=
  fun e member => (of.initial e member).fit idents

/-! ### Lowering -/

/-- A declaration whose type is a path into its home, and in whose initialiser no other type is a path and no
    name begins as a call of the macro does. -/
structure Sound (s : Static) : Prop where
  homed : Homed s
  fits : s.body.Everywhere (Fits fun type => type = s.type ∨ Unqualified type)

theorem AllFit.sound {e : Expr} (fit : AllFit e) (own : String) :
    e.Everywhere (Fits fun type => type = own ∨ Unqualified type) :=
  fit.mono fun _ fits => ⟨fits.leads, fun type typed => .inr (fits.type type typed)⟩

/-- A declaration whose value is a struct with such fields. -/
theorem sound_struct {s : Static} {fields : List (String × Expr)} (homed : Homed s) (body : s.body = .struct s.type fields)
    (apart : StartsApart s.type) (fit : FieldsFit fields) : Sound s where
  homed := homed
  fits := by
    rw [body]
    exact everywhere_fits_struct apart (.inl rfl) (fun _ => .inr) fit

/-- What is taken for a name begins with it. -/
theorem startsApart_of_derive {before after : NameTable} {base ident : String} (apart : StartsApart base)
    (derived : before.derive base = (ident, after)) : StartsApart ident := by
  have stem := NameTable.derive_stem before base
  rw [derived] at stem
  rcases stem with rfl | ⟨n, -, rfl⟩
  · exact apart
  · exact apart.append _

/-- The declaration of an object inside a resource whose type is declared. -/
theorem sound_nestedStatic {scope : Scope} {context : TypeContext} {declared : DeclaredType}
    (known : DeclaredType.ofCanonical? context.resource = some declared) (ident type : String)
    {fields : List (String × Expr)} (fit : FieldsFit fields) : Sound (nestedStatic scope context ident type fields) := by
  have isModule := isModule_of_ofCanonical? known
  by_cases tag : type = "Tag"
  · have path : nestedTypePath context.resource type = ("Tag", none) := if_pos tag
    have unqualified : Unqualified "Tag" := by decide
    have apart : StartsApart "Tag" := by decide
    rw [nestedStatic, path]
    exact sound_struct unqualified rfl apart fit
  · have path : nestedTypePath context.resource type =
        (Rust.fieldName declared.ns.short ++ "::" ++ Text.snakeCase declared.kind ++ "::" ++ type,
          some (Rust.fieldName declared.ns.short)) := by
      rw [nestedTypePath, if_neg tag, known]
    rw [nestedStatic, path]
    refine sound_struct ⟨isModule, Text.snakeCase declared.kind ++ "::" ++ type, ?_⟩ rfl ?_ fit
    · simp only [Static.ofStruct, String.append_assoc]
    · exact (((isModule.apart.append _).append _).append _).append _

/-- Inside a resource of a type that is declared, all that is made is sound. -/
theorem sound_steps {scope : Scope} {resource : String} {declared : DeclaredType} (idents : IdentsApart scope.ids)
    (known : DeclaredType.ofCanonical? resource = some declared) : Steps scope
    (fun spot _ _ _ e statics _ => spot.context.resource = resource → StartsApart spot.base →
      AllFit e ∧ ∀ s ∈ statics, Sound s)
    (fun spot _ _ _ entries statics _ => spot.context.resource = resource → StartsApart spot.base →
      (∀ e ∈ entries, AllFit e) ∧ ∀ s ∈ statics, Sound s)
    (fun context base _ _ fields statics _ => context.resource = resource → StartsApart base →
      FieldsFit fields ∧ ∀ s ∈ statics, Sound s) where
  leaf leaf _ _ _ := ⟨leaf.initial.fit idents, List.forall_mem_nil _⟩
  choice _ first second inside base := by
    obtain ⟨whenTrue, forTrue⟩ := first inside base
    obtain ⟨whenFalse, forFalse⟩ := second inside base
    refine ⟨?_, List.forall_mem_append.mpr ⟨forTrue, forFalse⟩⟩
    simp +decide [allFit_call, (initial_str _).fit idents, whenTrue, whenFalse]
  list _ each inside base := (each inside base).imp_left (allFit_list _).mpr
  nested _ _ derived each inside base := by
    have named := startsApart_of_derive base derived
    obtain ⟨fields, parts⟩ := each inside named
    have made := everywhere_inLists (fun _ => fits_unnamed rfl rfl) (allFit_static named)
    refine ⟨made _, List.forall_mem_cons.mpr ⟨?_, parts⟩⟩
    exact sound_nestedStatic (inside ▸ known) _ _ fields
  noItems _ _ _ _ _ := ⟨List.forall_mem_nil _, List.forall_mem_nil _⟩
  item first later inside base := by
    obtain ⟨fit, own⟩ := first inside base
    obtain ⟨others, more⟩ := later inside base
    exact ⟨List.forall_mem_cons.mpr ⟨fit, others⟩, List.forall_mem_append.mpr ⟨own, more⟩⟩
  noFields _ _ _ _ _ := ⟨List.forall_mem_nil _, List.forall_mem_nil _⟩
  field first later inside base := by
    obtain ⟨fit, own⟩ := first inside (base.append _)
    obtain ⟨others, more⟩ := later inside base
    exact ⟨List.forall_mem_cons.mpr ⟨fit, others⟩, List.forall_mem_append.mpr ⟨own, more⟩⟩

theorem lowerProperties_sound {scope : Scope} {type ident : String} {declared : DeclaredType} (idents : IdentsApart scope.ids)
    (known : DeclaredType.ofCanonical? type = some declared) (named : StartsApart ident) (v : Value) (before : NameTable) :
    Ends (scope.schema ≠ .inferred) before (fun result _ => FieldsFit result.1 ∧ ∀ s ∈ result.2, Sound s)
      (lowerProperties scope type ident v) := by
  cases v with
  | obj members =>
    refine .mono ((sound_steps idents known).fields_ends _ _ members before) fun result _ sound => ?_
    exact sound rfl named
  | null => exact .pure ⟨List.forall_mem_nil _, List.forall_mem_nil _⟩
  | _ => exact .pure ⟨List.forall_mem_singleton.mpr ((initial_json _).fit idents), List.forall_mem_nil _⟩

/-! ### Entries -/

theorem fieldsFit_metaField (idents : IdentsApart ids) (r : Resource) : FieldsFit (metaField r) :=
  forall_metaField ids (fun _ of => everywhere_fits_struct (by decide) (by decide) (fun _ => id) (of.fit idents)) r

theorem FieldsFit.append {fields others : List (String × Expr)} (first : FieldsFit fields) (second : FieldsFit others) :
    FieldsFit (fields ++ others) := by
  rw [FieldsFit, List.map_append, List.forall_mem_append]
  exact ⟨first, second⟩

theorem sound_placeholder (idents : IdentsApart ids) (ident reason : String) (r : Resource) :
    Sound (placeholder ident reason r) := by
  obtain ⟨fields, body, of⟩ := placeholder_body ids ident reason r
  have unqualified : Unqualified "RawResource" := by decide
  have apart : StartsApart "RawResource" := by decide
  exact sound_struct unqualified body apart ((of.fit idents).append (fieldsFit_metaField idents r))

theorem sound_otherStatics (idents : IdentsApart ids) (t : Template) : ∀ s ∈ otherStatics ids t, Sound s := by
  have constructed : ∀ type ∈ ["Mapping", "Condition"], Unqualified type ∧ StartsApart type := by decide
  have structs : ∀ entry ∈ [("Parameter", parameterFields), ("Output", outputFields)],
      Unqualified entry.1 ∧ StartsApart entry.1 := by decide
  intro s member
  obtain ⟨home, entry⟩ := otherStatics_body t s member
  have homed (unqualified : Unqualified s.type) : Homed s := by rwa [Homed, home]
  generalize body : s.body = e at entry
  cases entry with
  | constructed known initial =>
    obtain ⟨unqualified, apart⟩ := constructed _ known
    refine ⟨homed unqualified, ?_⟩
    rw [body]
    exact AllFit.sound ((allFit_call _ _).mpr ⟨apart.append _, List.forall_mem_singleton.mpr (initial.fit idents)⟩) _
  | struct known of =>
    obtain ⟨unqualified, apart⟩ := structs _ known
    exact sound_struct (homed unqualified) body apart (of.fit idents)

theorem lowerResource_sound {schema : Schema} {logical : String} (idents : IdentsApart ids)
    (named : StartsApart (ids.of .resource logical)) (r : Resource) (before : NameTable) :
    Ends (schema ≠ .inferred) before (fun result _ => ∀ s ∈ result.1, Sound s) (lowerResource ids schema logical r) := by
  have typed : (DeclaredType.ofCanonical? r.type).filter (fun _ => schema.supports r.type) = resourceType? schema r := rfl
  rw [lowerResource, typed]
  cases found : resourceType? schema r with
  | none => exact Ends.pure (List.forall_mem_singleton.mpr (sound_placeholder idents _ _ r))
  | some declared =>
    have known : DeclaredType.ofCanonical? r.type = some declared := (Option.filter_eq_some_iff.mp found).1
    have isModule := isModule_of_ofCanonical? known
    refine Ends.bind (lowerProperties_sound idents known named r.properties before) fun result _ sound => ?_
    refine Ends.pure (List.forall_mem_cons.mpr ⟨?_, sound.2⟩)
    exact sound_struct ⟨isModule, declared.kind, rfl⟩ rfl ((isModule.apart.append _).append _)
      (sound.1.append (fieldsFit_metaField idents r))

theorem lowerResources_sound {schema : Schema} (idents : IdentsApart ids) {resources : List (String × Resource)}
    (named : ∀ e ∈ resources, StartsApart (ids.of .resource e.1)) (start : Progress) (before : NameTable) :
    Ends (schema ≠ .inferred) before (fun result _ => ∀ s ∈ result.1, Sound s) (lowerResources ids schema resources start) := by
  induction resources generalizing start before with
  | nil => exact .pure (List.forall_mem_nil _)
  | cons entry rest ih =>
    obtain ⟨logical, r⟩ := entry
    rw [List.forall_mem_cons] at named
    rw [lowerResources]
    refine .bind (lowerResource_sound idents named.1 r before) fun first _ own => ?_
    exact .bind (ih named.2 _ _) fun later _ others => .pure (List.forall_mem_append.mpr ⟨own, others⟩)

/-! ### Templates -/

theorem startsApart_of_capitalized {name : String} (capitalized : IsCapitalized name) : StartsApart name := by
  obtain ⟨-, c, first, upper⟩ := capitalized
  refine Expr.startsApart_of_head first ?_
  rintro rfl
  exact absurd upper (by decide)

theorem lowerTemplate_sound {schema : Schema} {t : Template} {statics : List Static} {progress : Progress}
    (lowered : lowerTemplate schema t = .ok (statics, progress)) : ∀ s ∈ statics, Sound s := by
  obtain ⟨ids, table, resources, after, assigned, run, rfl⟩ := lowerTemplate_eq_ok lowered
  obtain ⟨-, named, -⟩ := assignIdents_takes assigned
  have idents : IdentsApart ids :=
    List.forall_mem_map.mpr fun e entry => startsApart_of_capitalized (isIdentFor_capitalized (named e entry))
  have own : ∀ e ∈ t.resources, StartsApart (ids.of .resource e.1) := by
    intro e member
    have entry : (EntryKind.resource, e.1) ∈ entriesOf t := by
      simp only [entriesOf, List.append_assoc]
      exact List.mem_append_left _ (List.mem_map_of_mem (List.mem_map_of_mem member))
    exact startsApart_of_capitalized (assignIdents_capitalized assigned entry)
  exact List.forall_mem_append.mpr ⟨(lowerResources_sound idents own _ table).of_run run, sound_otherStatics idents t⟩

/-- Making references by name takes identifiers away and adds none. -/
theorem Fits.mapSlots {P : String → Prop} {e : Expr} (fits : Fits P e) (keep : String → Bool) :
    Fits P (e.mapSlots (Option.filter keep)) := by
  cases e with
  | ref target slot => exact fits_untyped (fun name kept => fits.leads name (Option.filter_eq_some_iff.mp kept).1) rfl
  | attr target name slot => exact fits_untyped (fun name kept => fits.leads name (Option.filter_eq_some_iff.mp kept).1) rfl
  | _ => exact ⟨fits.leads, fits.type⟩

theorem Sound.demoteEdges {s : Static} (sound : Sound s) (broken : List BrokenEdge) : Sound (s.demoteEdges broken) := by
  rw [demoteEdges_eq]
  exact ⟨sound.homed, (Expr.everywhere_mapSlots _ _ _).mpr (sound.fits.mono fun w fits => fits.mapSlots _)⟩

end StackCompiler.Import
