import StackCompiler.Proofs.Distinct
import StackCompiler.Proofs.Import.Notes
import StackCompiler.Proofs.Import.TypePaths

/-!
What stands in generated files. Each declaration is an item of the file of its group and of
no other (`perm_groupsOf`), the file that joins them names each of the others once, and a
file imports the macro for documents and modules of the library only as far as its
declarations use them (`generated_files_exact`).
-/
namespace StackCompiler.Import

open Rust (Expr Fragment SourceFile Use)
open Rust.Expr (Occurs InvokesJson LeadsApart)

/-! ### Imports -/

/-- The imports of a file that may use documents, and that uses `modules`. -/
def importsOf (package : String) (json : Bool) (modules : List String) : List Use :=
  [⟨"std::sync", ["LazyLock"]⟩] ++ (if json then [⟨"serde_json", ["json"]⟩] else []) ++ [⟨package ++ "::prelude::*", []⟩]
    ++ (if modules.isEmpty then [] else [⟨package, modules⟩]) ++ [⟨"super::*", []⟩]

theorem usesFor_eq (package : String) (statics : List Static) :
    usesFor package statics =
      importsOf package (statics.any (·.body.usesJson)) (sortedNames (statics.filterMap (·.home))) := rfl

/-- No import is there twice, unless a module has the name of something else that is imported. -/
theorem importsOf_nodup (package : String) (json : Bool) {modules : List String} (lock : "LazyLock" ∉ modules)
    (macroName : "json" ∉ modules) : (importsOf package json modules).Nodup := by
  have longer : package ++ "::prelude::*" ≠ "super::*" := by
    intro same
    have lengths := congrArg String.length same
    rw [String.length_append] at lengths
    have lengths : package.length + 12 = 8 := lengths
    omega
  have other : ["LazyLock"] ≠ modules ∧ ["json"] ≠ modules := by
    constructor
    · rintro rfl
      exact lock List.mem_cons_self
    · rintro rfl
      exact macroName List.mem_cons_self
  unfold importsOf
  cases json <;> cases modules <;> simp_all

theorem foldl_addUse_uses {uses : List Use} {file : SourceFile} (distinct : (file.uses ++ uses).Nodup) :
    (uses.foldl SourceFile.addUse file).uses = file.uses ++ uses := by
  induction uses generalizing file with
  | nil => simp
  | cons use rest ih =>
    have fresh : file.uses.contains use = false := by
      rw [← Bool.not_eq_true, List.contains_iff_mem]
      intro member
      exact (List.nodup_append.mp distinct).2.2 use member use List.mem_cons_self rfl
    have added : file.addUse use = { file with uses := file.uses ++ [use] } := by
      rw [SourceFile.addUse, fresh]
      rfl
    rw [List.foldl_cons, added, ih]
    · exact List.append_assoc ..
    · rwa [List.append_assoc]

theorem foldl_addItem_uses (statics : List Static) (file : SourceFile) :
    (statics.foldl (fun file s => file.addItem (staticItem s)) file).uses = file.uses := by
  induction statics generalizing file with
  | nil => rfl
  | cons s rest ih => rw [List.foldl_cons, ih, SourceFile.addItem]

/-! ### Types -/

/-- `type` is the type of a declaration, or of a struct in its initialiser. -/
def Static.Names (s : Static) (type : String) : Prop := type = s.type ∨ ∃ fields, Occurs (.struct type fields) s.body

/-- `segment` is what stands before the first pair of colons of a type. -/
def LeadsPath (segment type : String) : Prop := Unqualified segment ∧ ∃ rest, type = segment ++ "::" ++ rest

theorem LeadsPath.unique {segment other type : String} (first : LeadsPath segment type) (second : LeadsPath other type) :
    segment = other := by
  obtain ⟨plain, rest, rfl⟩ := first
  obtain ⟨plainToo, more, same⟩ := second
  have aligned : segment.toList ++ ':' :: (':' :: rest.toList) = other.toList ++ ':' :: (':' :: more.toList) := by
    simpa using congrArg String.toList same
  exact String.toList_inj.mp (Text.first_mark_unique plain plainToo aligned).1

theorem LeadsPath.qualified {segment type : String} (leads : LeadsPath segment type) : ¬ Unqualified type := by
  obtain ⟨-, rest, rfl⟩ := leads
  simp [Unqualified]

theorem IsModule.plain {name : String} (isModule : IsModule name) : Unqualified name ∧ name ≠ "json" ∧ name ≠ "LazyLock" := by
  obtain ⟨ns, known, rfl⟩ := isModule
  obtain ⟨plain, c, first, lower, other⟩ := Namespace.module_plain known
  refine ⟨plain, fun same => ?_, fun same => ?_⟩
  · rw [same] at first
    cases first
    exact other rfl
  · rw [same] at first
    cases first
    exact absurd lower (by decide)

/-- The home of a sound declaration is the first part of the paths in it. -/
theorem Sound.home_iff {s : Static} (sound : Sound s) (name : String) :
    s.home = some name ↔ ∃ type, s.Names type ∧ LeadsPath name type := by
  have homed := sound.homed
  have own : s.home = some name ↔ LeadsPath name s.type := by
    unfold Homed at homed
    cases found : s.home with
    | none =>
      rw [found] at homed
      exact iff_of_false (Option.some_ne_none name).symm fun leads => leads.qualified homed
    | some home =>
      rw [found] at homed
      have leads : LeadsPath home s.type := ⟨homed.1.plain.1, homed.2⟩
      constructor
      · rintro ⟨⟩
        exact leads
      · exact fun other => congrArg some (leads.unique other)
  rw [own]
  constructor
  · exact fun leads => ⟨s.type, .inl rfl, leads⟩
  · rintro ⟨type, rfl | ⟨fields, occurs⟩, leads⟩
    · exact leads
    · rcases (sound.fits _ occurs).type type rfl with rfl | unqualified
      · exact leads
      · exact absurd unqualified leads.qualified

theorem Sound.isModule {s : Static} (sound : Sound s) {name : String} (home : s.home = some name) : IsModule name := by
  have homed := sound.homed
  rw [Homed, home] at homed
  exact homed.1

/-! ### Files -/

/-- A file holds these declarations as its items, in their order, and imports beside what every file
    imports the macro for documents if the source of some node in it is a call of that macro,
    and the modules that are the first parts of the paths in it. -/
structure IsFileOf (package : String) (statics : List Static) (file : SourceFile) : Prop where
  attributes : file.attributes = []
  items : file.items = statics.map staticItem
  imports : ∃ json modules, file.uses = importsOf package json modules ∧
    (∀ position : Expr → Rust.Position,
      json = true ↔ ∃ s ∈ statics, ∃ w, Occurs w s.body ∧ InvokesJson (position w) w) ∧
    Ascending modules ∧ ∀ name, name ∈ modules ↔ ∃ s ∈ statics, ∃ type, s.Names type ∧ LeadsPath name type

theorem groupFile_isFileOf {statics : List Static} (sound : ∀ s ∈ statics, Sound s) (package : String) :
    IsFileOf package statics (groupFile package statics) where
  attributes := by
    have kept (uses : List Use) (file : SourceFile) : (uses.foldl SourceFile.addUse file).attributes = file.attributes := by
      induction uses generalizing file with
      | nil => rfl
      | cons use rest ih =>
        rw [List.foldl_cons, ih, SourceFile.addUse]
        split <;> rfl
    have added (file : SourceFile) :
        (statics.foldl (fun file s => file.addItem (staticItem s)) file).attributes = file.attributes := by
      clear sound
      induction statics generalizing file with
      | nil => rfl
      | cons s rest ih => rw [List.foldl_cons, ih, SourceFile.addItem]
    rw [groupFile, added, kept]
    rfl
  items := groupFile_items package statics
  imports := by
    have home (name : String) : name ∈ sortedNames (statics.filterMap (·.home)) ↔ ∃ s ∈ statics, s.home = some name := by
      rw [mem_sortedNames, List.mem_filterMap]
    have plain {name : String} (member : name ∈ sortedNames (statics.filterMap (·.home))) :
        name ≠ "json" ∧ name ≠ "LazyLock" := by
      obtain ⟨s, inside, home⟩ := (home name).mp member
      exact ((sound s inside).isModule home).plain.2
    refine ⟨statics.any (·.body.usesJson), sortedNames (statics.filterMap (·.home)), ?imported, ?json, ascending_sortedNames _,
      ?modules⟩
    case imported =>
      have distinct := importsOf_nodup package (statics.any (·.body.usesJson)) (fun lock => (plain lock).2 rfl)
        (fun json => (plain json).1 rfl)
      rw [groupFile, foldl_addItem_uses, usesFor_eq, foldl_addUse_uses]
      · rfl
      · exact distinct
    case json =>
      intro position
      rw [List.any_eq_true]
      refine exists_congr fun s => and_congr_right fun member => ?_
      exact Expr.usesJson_iff_invokesJson ((sound s member).fits.mono fun _ fits => fits.leads) position
    case modules =>
      intro name
      rw [home]
      exact exists_congr fun s => and_congr_right fun member => (sound s member).home_iff name

/-- The groups that have declarations, in the order of their files. -/
def groupsOf (statics : List Static) : List FileGroup := (groupStatics statics).map (·.1)

theorem groupStatics_eq (statics : List Static) :
    groupStatics statics = (groupsOf statics).map fun group => (group, statics.filter (·.group == group)) := by
  unfold groupsOf
  rw [List.map_map]
  refine (List.map_id _).symm.trans (List.map_congr_left fun entry listed => ?_)
  obtain ⟨group, -, rfl⟩ := List.mem_map.mp (List.mem_filter.mp listed).1
  rfl

theorem mem_groupsOf (statics : List Static) (group : FileGroup) : group ∈ groupsOf statics ↔ ∃ s ∈ statics, s.group = group := by
  unfold groupsOf groupStatics
  rw [List.filter_map, List.map_map]
  constructor
  · intro listed
    obtain ⟨_, kept, rfl⟩ := List.mem_map.mp listed
    have filled := (List.mem_filter.mp kept).2
    simp only [Function.comp_apply, Bool.not_eq_true', List.isEmpty_eq_false_iff_exists_mem] at filled
    obtain ⟨s, inside⟩ := filled
    obtain ⟨member, same⟩ := List.mem_filter.mp inside
    exact ⟨s, member, beq_iff_eq.mp same⟩
  · rintro ⟨s, member, rfl⟩
    refine List.mem_map.mpr ⟨s.group, List.mem_filter.mpr ⟨FileGroup.mem_all s.group, ?_⟩, rfl⟩
    simp only [Function.comp_apply, Bool.not_eq_true', List.isEmpty_eq_false_iff_exists_mem]
    exact ⟨s, List.mem_filter.mpr ⟨member, beq_self_eq_true _⟩⟩

theorem FileGroup.paths_nodup : ("mod.rs" :: FileGroup.all.map (·.stem ++ ".rs")).Nodup := by decide

/-- Each group has a file of its own, and none is called as the file that joins them. -/
theorem groupsOf_paths_nodup (statics : List Static) : ("mod.rs" :: (groupsOf statics).map (·.stem ++ ".rs")).Nodup := by
  have some : (groupsOf statics).Sublist FileGroup.all := by
    have all : FileGroup.all = (FileGroup.all.map fun group => (group, statics.filter (·.group == group))).map (·.1) := by
      rw [List.map_map]
      exact (List.map_id _).symm
    rw [all]
    exact List.filter_sublist.map _
  exact FileGroup.paths_nodup.sublist ((some.map _).cons_cons _)

/-- Spread over groups, declarations are neither lost nor there twice. -/
theorem perm_spread {groups : List FileGroup} (distinct : groups.Nodup) (statics : List Static) :
    (groups.flatMap fun group => statics.filter (·.group == group)).Perm (statics.filter (groups.contains ·.group)) := by
  induction groups with
  | nil => simp
  | cons group rest ih =>
    obtain ⟨absent, distinct⟩ := List.nodup_cons.mp distinct
    rw [List.flatMap_cons]
    have split := List.filter_append_perm (·.group == group) (statics.filter ((group :: rest).contains ·.group))
    have own : (statics.filter ((group :: rest).contains ·.group)).filter (·.group == group) =
        statics.filter (·.group == group) := by
      rw [List.filter_filter]
      refine List.filter_congr fun s _ => ?_
      by_cases same : s.group = group <;> simp [same]
    have others : (statics.filter ((group :: rest).contains ·.group)).filter (fun s => ! s.group == group) =
        statics.filter (rest.contains ·.group) := by
      rw [List.filter_filter]
      refine List.filter_congr fun s _ => ?_
      by_cases same : s.group = group
      · simp [same, absent]
      · simp [same]
    rw [own, others] at split
    exact ((ih distinct).append_left _).trans split

theorem perm_groupsOf (statics : List Static) :
    ((groupsOf statics).flatMap fun group => statics.filter (·.group == group)).Perm statics := by
  have distinct : (groupsOf statics).Nodup := (groupsOf_paths_nodup statics).of_cons.of_map _
  have all : statics.filter ((groupsOf statics).contains ·.group) = statics := by
    rw [List.filter_eq_self]
    intro s member
    exact List.contains_iff_mem.mpr ((mem_groupsOf statics s.group).mpr ⟨s, member, rfl⟩)
  have spread := perm_spread distinct statics
  rwa [all] at spread

/-- A file that declares the modules of groups and exports what is in them, each once. -/
structure Joins (groups : List FileGroup) (file : SourceFile) : Prop where
  uses : file.uses = []
  items : file.items.flatten =
    groups.map (fun g => .line ("mod " ++ g.stem ++ ";")) ++ groups.map (fun g => .line ("pub use " ++ g.stem ++ "::*;"))

theorem rootFile_joins (groups : List FileGroup) : Joins groups (rootFile groups) := by
  cases groups with
  | nil => exact ⟨rfl, rfl⟩
  | cons group rest =>
    refine ⟨rfl, ?_⟩
    simp [rootFile, SourceFile.addItem, SourceFile.empty]

theorem renderFiles_eq (package : String) (statics : List Static) :
    renderFiles package statics = generatedFile "mod.rs" (rootFile (groupsOf statics)).text ::
      (groupsOf statics).map fun group =>
        generatedFile (group.stem ++ ".rs") (groupFile package (statics.filter (·.group == group))).text := by
  have files : renderFiles package statics = generatedFile "mod.rs" (rootFile (groupsOf statics)).text ::
      (groupStatics statics).map fun entry => generatedFile (entry.1.stem ++ ".rs") (groupFile package entry.2).text := rfl
  rw [files, groupStatics_eq, List.map_map]
  rfl

/-- The files of a template that is generated. Every declaration is written into the file that is called
    after its group and into no other, in the order of the declarations, and every file but the one that
    joins them is that of a group with declarations. The file that joins them declares and exports
    each once. A file imports exactly what its declarations use. -/
theorem generated_files_exact {schema : Schema} {package : String} {t : Template} {g : Generated}
    (generated : generate schema package t = .ok g) :
    ∃ statics progress, lowerTemplate schema t = .ok (statics, progress) ∧
      let declarations := (breakCycles statics).1
      ∃ (groups : List FileGroup) (root : SourceFile) (file : FileGroup → SourceFile),
        g.files = generatedFile "mod.rs" root.text ::
          groups.map (fun group => generatedFile (group.stem ++ ".rs") (file group).text) ∧
        (g.files.map (·.path)).Nodup ∧
        (∀ group, group ∈ groups ↔ ∃ s ∈ declarations, s.group = group) ∧
        (groups.flatMap fun group => (file group).items).Perm (declarations.map staticItem) ∧
        Joins groups root ∧
        ∀ group ∈ groups, IsFileOf package (declarations.filter (·.group == group)) (file group) := by
  obtain ⟨statics, progress, lowered, rfl⟩ := (generate_eq_ok _ _ _ _).mp generated
  have sound : ∀ s ∈ (breakCycles statics).1, Sound s :=
    List.forall_mem_map.mpr fun s member => (lowerTemplate_sound lowered s member).demoteEdges _
  refine ⟨statics, progress, lowered, ?_⟩
  intro declarations
  refine ⟨groupsOf declarations, rootFile (groupsOf declarations),
    fun group => groupFile package (declarations.filter (·.group == group)), renderFiles_eq package declarations, ?paths,
    mem_groupsOf declarations, ?items, rootFile_joins _, fun group _ => ?file⟩
  case paths =>
    rw [renderFiles_eq, List.map_cons, List.map_map]
    exact groupsOf_paths_nodup declarations
  case items =>
    simp only [groupFile_items]
    rw [← List.map_flatMap]
    exact (perm_groupsOf declarations).map _
  case file => exact groupFile_isFileOf (fun s member => sound s (List.mem_filter.mp member).1) package

/-- A queue, a resource of an unknown type whose properties are a document, and a parameter. -/
def spreadTemplate : Template :=
  { Template.empty with
    resources := [
      ("Queue", { type := "AWS::SQS::Queue", properties := .obj [("Name", .str "a")] }),
      ("Other", { type := "Custom::Other", properties := .obj [("Name", .str "b")] })]
    parameters := [("Size", { type := "String" })] }

theorem generated_files_spread :
    ∃ g, generate .inferred defaultPackage spreadTemplate = .ok g ∧
      g.files.map (·.path) = ["mod.rs", "messaging.rs", "misc.rs", "params.rs"] ∧
      ∃ statics progress, lowerTemplate .inferred spreadTemplate = .ok (statics, progress) ∧
        ∃ (groups : List FileGroup) (root : SourceFile) (file : FileGroup → SourceFile),
          g.files = generatedFile "mod.rs" root.text ::
            groups.map (fun group => generatedFile (group.stem ++ ".rs") (file group).text) ∧
          Joins groups root ∧
          ∀ group ∈ groups, IsFileOf defaultPackage ((breakCycles statics).1.filter (·.group == group)) (file group) := by
  have computed : (generate .inferred defaultPackage spreadTemplate).toOption.map (fun g => g.files.map (·.path)) =
      some ["mod.rs", "messaging.rs", "misc.rs", "params.rs"] := by decide +kernel
  cases generated : generate .inferred defaultPackage spreadTemplate with
  | error _ => rw [generated] at computed; cases computed
  | ok g =>
    rw [generated] at computed
    obtain ⟨statics, progress, lowered, groups, root, file, files, -, -, -, joins, each⟩ := generated_files_exact generated
    exact ⟨g, rfl, Option.some.inj computed, statics, progress, lowered, groups, root, file, files, joins, each⟩

end StackCompiler.Import
