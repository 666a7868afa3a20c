import StackCompiler.Proofs.Import.Heading
import StackCompiler.Proofs.Rust.SourceLines

/-!
The notes of generated files: what documentation and comments of declarations become. Files are
taken line by line (`pagesOf`), so that it is known which lines come from notes: those of the
entries, as they are written above a declaration (`lowered_noteLines_iff`). All of these are comments
exactly if no note has a further line that is none.
-/
namespace StackCompiler.Import

open Rust (Fragment SourceFile SourceLine isComment)

/-! ### Pages -/

/-- A generated file by lines. -/
structure Page where
  path : String
  lines : List SourceLine

def Page.file (page : Page) : GeneratedFile := ⟨page.path, String.ofList (SourceLine.ended page.lines)⟩

/-- A file under the line that says that it is generated, which is no note. -/
def pageOf (path : String) (file : SourceFile) : Page :=
  ⟨path, .code "// Code generated by stratus import. DO NOT EDIT.".toList :: .code [] :: file.sourceLines⟩

def pagesOf (package : String) (statics : List Static) : List Page :=
  let groups := groupStatics statics
  pageOf "mod.rs" (rootFile (groups.map (·.1)))
    :: groups.map fun (g, members) => pageOf (g.stem ++ ".rs") (groupFile package members)

theorem pageOf_file (path : String) (file : SourceFile) : (pageOf path file).file = generatedFile path file.text := by
  rw [Page.file, generatedFile, underHeader, generatedHeader]
  congr 1
  rw [← String.toList_inj, String.toList_ofList, String.toList_append, file.text_toList, String.toList_append]
  rfl

/-- The pages are the files, line by line. -/
theorem pagesOf_files (package : String) (statics : List Static) :
    (pagesOf package statics).map Page.file = renderFiles package statics := by
  rw [pagesOf, List.map_cons, pageOf_file, List.map_map, renderFiles]
  congr 1
  exact List.map_congr_left fun group _ => pageOf_file _ _

theorem pageOf_unbroken (path : String) (file : SourceFile) : ∀ line ∈ (pageOf path file).lines, '\n' ∉ line.text := by
  refine List.forall_mem_cons.mpr ⟨by decide, List.forall_mem_cons.mpr ⟨List.not_mem_nil, ?_⟩⟩
  rw [SourceFile.forall_sourceLines_iff List.not_mem_nil]
  exact fun part _ fragment _ => Fragment.sourceLines_unbroken (by decide) 0 fragment

/-! ### Notes -/

/-- Every line of a page that comes from a note is a comment. -/
def NotesStay (page : Page) : Prop := ∀ line ∈ page.lines, line.note = true → isComment line.text = true

/-- Every further line of a text is a comment as it stands. -/
def StaysComment (note : String) : Prop :=
  ∀ line ∈ (Text.splitBy (· == '\n') note.toList).tail, isComment line = true

/-- The lines of notes as they are written above a declaration. -/
def Heading.noteLines (heading : Heading) : List SourceLine :=
  heading.docs.flatMap (Fragment.noteLines "" "///") ++ heading.comment.toList.flatMap (Fragment.noteLines "" "//")

def Heading.notes (heading : Heading) : List String := heading.docs ++ heading.comment.toList

/-- Only the further lines of notes need not be comments. -/
theorem Heading.noteLines_comments_iff (heading : Heading) :
    (∀ line ∈ heading.noteLines, isComment line.text = true) ↔ ∀ note ∈ heading.notes, StaysComment note := by
  have blank : ∀ c ∈ "".toList, c = ' ' ∨ c = '\t' := by simp
  have docs (note : String) := Fragment.noteLines_comments_iff blank (.inl (rfl : "///" = "///")) note
  have comments (note : String) := Fragment.noteLines_comments_iff blank (.inr (rfl : "//" = "//")) note
  simp only [noteLines, notes, List.forall_mem_append, List.forall_mem_flatMap, docs, comments, StaysComment]

section

variable (P : List Char → Prop)

theorem pageOf_notes_iff (path : String) (file : SourceFile) :
    (∀ line ∈ (pageOf path file).lines, line.note = true → P line.text) ↔ ∀ item ∈ file.items, ∀ fragment ∈ item,
      ∀ line ∈ fragment.sourceLines (Rust.Indent.spaces 4).text 0, line.note = true → P line.text := by
  rw [← file.forall_notes_iff P, pageOf, List.forall_mem_cons, List.forall_mem_cons]
  exact ⟨fun ⟨_, _, lines⟩ => lines, fun lines => ⟨nofun, nofun, lines⟩⟩

theorem staticItem_notes_iff (s : Static) :
    (∀ fragment ∈ staticItem s, ∀ line ∈ fragment.sourceLines (Rust.Indent.spaces 4).text 0,
      line.note = true → P line.text) ↔ ∀ line ∈ s.heading.noteLines, P line.text := by
  have note (mark text : String) : (∀ line ∈ Fragment.noteLines "" mark text, line.note = true → P line.text) ↔
      ∀ line ∈ Fragment.noteLines "" mark text, P line.text :=
    forall₂_congr fun line member => imp_iff_right (Fragment.note_of_mem_noteLines member)
  have code : ∀ line ∈ Fragment.codeLines "" (staticLine s), line.note = true → P line.text :=
    List.forall_mem_map.mpr fun _ _ => nofun
  simp only [staticItem, Heading.noteLines, Static.heading, List.forall_mem_append, List.forall_mem_map,
    List.forall_mem_singleton, List.forall_mem_flatMap]
  refine (and_iff_left code).trans (and_congr ?_ ?_)
  · exact forall₂_congr fun text _ => note "///" text
  · exact forall₂_congr fun text _ => note "//" text

theorem foldl_addUse_items (uses : List Rust.Use) (file : SourceFile) : (uses.foldl SourceFile.addUse file).items = file.items := by
  induction uses generalizing file with
  | nil => rfl
  | cons use rest ih =>
    rw [List.foldl_cons, ih, SourceFile.addUse]
    split <;> rfl

theorem foldl_addItem_items (statics : List Static) (file : SourceFile) :
    (statics.foldl (fun file s => file.addItem (staticItem s)) file).items = file.items ++ statics.map staticItem := by
  induction statics generalizing file with
  | nil => simp
  | cons s rest ih =>
    rw [List.foldl_cons, ih]
    simp [SourceFile.addItem]

theorem groupFile_items (package : String) (statics : List Static) : (groupFile package statics).items = statics.map staticItem := by
  rw [groupFile, foldl_addItem_items, foldl_addUse_items]
  rfl

/-- The file that joins the others has no notes. -/
theorem rootFile_notes (path : String) (groups : List FileGroup) :
    ∀ line ∈ (pageOf path (rootFile groups)).lines, line.note = true → P line.text := by
  have code (s : String) : ∀ line ∈ (Fragment.line s).sourceLines (Rust.Indent.spaces 4).text 0,
      line.note = true → P line.text := List.forall_mem_map.mpr fun _ _ => nofun
  rw [pageOf_notes_iff, rootFile]
  dsimp only
  split
  · exact List.forall_mem_nil _
  · refine List.forall_mem_cons.mpr ⟨?_, List.forall_mem_singleton.mpr ?_⟩
    · exact List.forall_mem_map.mpr fun g _ => code _
    · exact List.forall_mem_map.mpr fun g _ => code _

theorem FileGroup.mem_all (group : FileGroup) : group ∈ FileGroup.all := by
  cases group with
  | category c => cases c <;> decide
  | params => decide
  | outputs => decide

/-- Every declaration is in a group, and in no other. -/
theorem forall_groupStatics_iff (Q : Static → Prop) (statics : List Static) :
    (∀ group ∈ groupStatics statics, ∀ s ∈ group.2, Q s) ↔ ∀ s ∈ statics, Q s := by
  constructor
  · intro each s member
    let own := statics.filter (·.group == s.group)
    have inside : s ∈ own := List.mem_filter.mpr ⟨member, beq_self_eq_true _⟩
    have listed : (s.group, own) ∈ groupStatics statics := by
      refine List.mem_filter.mpr ⟨List.mem_map_of_mem (FileGroup.mem_all s.group), ?_⟩
      simp only [Bool.not_eq_true', List.isEmpty_eq_false_iff]
      exact List.ne_nil_of_mem inside
    exact each _ listed s inside
  · intro each group listed s member
    obtain ⟨g, -, rfl⟩ := List.mem_map.mp (List.mem_filter.mp listed).1
    exact each s (List.mem_filter.mp member).1

/-- The notes of pages are those of the declarations. -/
theorem pagesOf_notes_iff (package : String) (statics : List Static) :
    (∀ page ∈ pagesOf package statics, ∀ line ∈ page.lines, line.note = true → P line.text) ↔
      ∀ s ∈ statics, ∀ line ∈ s.heading.noteLines, P line.text := by
  rw [pagesOf, List.forall_mem_cons, List.forall_mem_map, ← forall_groupStatics_iff]
  refine (and_iff_right (rootFile_notes P _ _)).trans (forall₂_congr fun group _ => ?_)
  rw [pageOf_notes_iff, groupFile_items, List.forall_mem_map]
  exact forall₂_congr fun s _ => staticItem_notes_iff P s

/-! ### Templates -/

/-- The notes of declarations are those of the entries. -/
theorem Headed.forall_noteLines_iff {ids : Identifiers} {entries : List ((EntryKind × String) × Heading)}
    {statics : List Static} (headed : Headed ids entries statics) :
    (∀ s ∈ statics, ∀ line ∈ s.heading.noteLines, P line.text) ↔ ∀ e ∈ entries, ∀ line ∈ e.2.noteLines, P line.text := by
  have same : (statics.filter (·.topLevel)).map Static.heading = entries.map (·.2) := by
    have seconds := congrArg (List.map Prod.snd) headed.tops
    rwa [List.map_map, List.map_map] at seconds
  have tops : (∀ s ∈ statics.filter (·.topLevel), ∀ line ∈ s.heading.noteLines, P line.text) ↔
      ∀ e ∈ entries, ∀ line ∈ e.2.noteLines, P line.text := by
    have both : (∀ heading ∈ (statics.filter (·.topLevel)).map Static.heading, ∀ line ∈ heading.noteLines, P line.text) ↔
        ∀ heading ∈ entries.map (·.2), ∀ line ∈ heading.noteLines, P line.text := by rw [same]
    rwa [List.forall_mem_map, List.forall_mem_map] at both
  rw [← tops]
  constructor
  · exact fun each s member => each s (List.mem_filter.mp member).1
  · intro each s member line inside
    cases top : s.topLevel with
    | true => exact each s (List.mem_filter.mpr ⟨member, top⟩) line inside
    | false =>
      -- A part has no notes.
      have part := headed.parts s member top
      rw [Static.heading, Heading.noteLines, part.docs, part.comment] at inside
      cases inside

/-- The notes of a template's pages are those of its entries, as they are written. -/
theorem lowered_noteLines_iff {schema : Schema} {t : Template} {statics : List Static} {progress : Progress}
    (lowered : lowerTemplate schema t = .ok (statics, progress)) (package : String) :
    (∀ page ∈ pagesOf package (breakCycles statics).1, ∀ line ∈ page.lines, line.note = true → P line.text) ↔
      ∀ e ∈ headings schema t, ∀ line ∈ e.2.noteLines, P line.text := by
  obtain ⟨ids, -, -, headed, -⟩ := lowerTemplate_headed lowered
  rw [pagesOf_notes_iff, (headed_breakCycles headed).forall_noteLines_iff]

end

theorem lowered_comments_iff {schema : Schema} {t : Template} {statics : List Static} {progress : Progress}
    (lowered : lowerTemplate schema t = .ok (statics, progress)) (package : String) :
    (∀ page ∈ pagesOf package (breakCycles statics).1, NotesStay page) ↔
      ∀ e ∈ headings schema t, ∀ note ∈ e.2.notes, StaysComment note :=
  (lowered_noteLines_iff (isComment · = true) lowered package).trans
    (forall₂_congr fun e _ => e.2.noteLines_comments_iff)

/-- The notes of generated files are types, reasons and descriptions of entries: what holds of every
    line of a note holds of the lines of these texts, as they are written. The lines are comments,
    in every file, exactly if no such text has a further line that is none. -/
theorem notes_stay_comments_iff {schema : Schema} {package : String} {t : Template} {g : Generated}
    (generated : generate schema package t = .ok g) :
    ∃ statics progress, lowerTemplate schema t = .ok (statics, progress) ∧
      let pages := pagesOf package (breakCycles statics).1
      pages.map Page.file = g.files ∧ (∀ page ∈ pages, ∀ line ∈ page.lines, '\n' ∉ line.text) ∧
        (∀ P : List Char → Prop, (∀ page ∈ pages, ∀ line ∈ page.lines, line.note = true → P line.text) ↔
          ∀ e ∈ headings schema t, ∀ line ∈ e.2.noteLines, P line.text) ∧
        ((∀ page ∈ pages, NotesStay page) ↔ ∀ e ∈ headings schema t, ∀ note ∈ e.2.notes, StaysComment note) := by
  obtain ⟨statics, progress, lowered, rfl⟩ := (generate_eq_ok _ _ _ _).mp generated
  refine ⟨statics, progress, lowered, pagesOf_files package _, ?_, fun P => lowered_noteLines_iff P lowered package,
    lowered_comments_iff lowered package⟩
  exact List.forall_mem_cons.mpr ⟨pageOf_unbroken _ _, List.forall_mem_map.mpr fun group _ => pageOf_unbroken _ _⟩

/-- A parameter with a description. -/
def describedTemplate (description : String) : Template :=
  { Template.empty with parameters := [("Size", { type := "String", description := some description })] }

theorem notes_stay_marked :
    ∃ g, generate .inferred defaultPackage (describedTemplate "Small\n  // Large") = .ok g ∧
      ∃ statics progress, lowerTemplate .inferred (describedTemplate "Small\n  // Large") = .ok (statics, progress) ∧
        (pagesOf defaultPackage (breakCycles statics).1).map Page.file = g.files ∧
        ∀ page ∈ pagesOf defaultPackage (breakCycles statics).1, NotesStay page := by
  have computed : (generate .inferred defaultPackage (describedTemplate "Small\n  // Large")).isOk = true := by decide +kernel
  cases generated : generate .inferred defaultPackage (describedTemplate "Small\n  // Large") with
  | error _ => rw [generated] at computed; cases computed
  | ok g =>
    obtain ⟨statics, progress, lowered, files, -, -, notes⟩ := notes_stay_comments_iff generated
    have stays : ∀ line ∈ (Text.splitBy (· == '\n') "Small\n  // Large".toList).tail, isComment line = true := by decide
    refine ⟨g, rfl, statics, progress, lowered, files, notes.mpr ?_⟩
    exact List.forall_mem_singleton.mpr (List.forall_mem_singleton.mpr stays)

/-- The second line of a description is a line of the file as it stands. -/
theorem description_leaves_comment :
    (Fragment.doc "Small\nLarge").text (Rust.Indent.spaces 4).text 0 = "/// Small\nLarge\n" ∧
      ∃ g statics progress, generate .inferred defaultPackage (describedTemplate "Small\nLarge") = .ok g ∧
        lowerTemplate .inferred (describedTemplate "Small\nLarge") = .ok (statics, progress) ∧
        (pagesOf defaultPackage (breakCycles statics).1).map Page.file = g.files ∧
        ¬ ∀ page ∈ pagesOf defaultPackage (breakCycles statics).1, NotesStay page := by
  have computed : (lowerTemplate .inferred (describedTemplate "Small\nLarge")).isOk = true := by decide +kernel
  cases lowered : lowerTemplate .inferred (describedTemplate "Small\nLarge") with
  | error _ => rw [lowered] at computed; cases computed
  | ok r =>
    obtain ⟨statics, progress⟩ := r
    refine ⟨by decide, _, statics, progress, (generate_eq_ok _ _ _ _).mpr ⟨statics, progress, lowered, rfl⟩, rfl,
      pagesOf_files _ _, fun stay => ?_⟩
    have stays := (lowered_comments_iff lowered defaultPackage).mp stay _ (List.mem_singleton.mpr rfl) "Small\nLarge"
      (List.mem_singleton.mpr rfl)
    exact absurd (stays "Large".toList (by decide)) (by decide)

end StackCompiler.Import
