import StackCompiler.Proofs.Text.Cuts
import StackCompiler.Rust.SourceFile

/-!
The physical lines of source text, each with whether it comes from documentation or a comment (a
note) or from code. Only the first line of a note is marked as a comment. So the lines of a note are
comments exactly if all its lines but the first are comments as they stand.
-/
namespace StackCompiler

namespace Text

/-- The parts of a text with the line feeds at which it was cut, and one more. -/
theorem flatMap_splitBy_feed (cs : List Char) :
    (splitBy (· == '\n') cs).flatMap (· ++ ['\n']) = cs ++ ['\n'] := by
  induction cs with
  | nil => rfl
  | cons c rest ih =>
    rw [splitBy]
    by_cases feed : c = '\n'
    · simp [feed, ih]
    · rw [if_neg (by simpa using feed), List.cons_append, ← ih]
      cases parts : splitBy (· == '\n') rest with
      | nil => exact absurd parts (splitBy_ne_nil _ rest)
      | cons first others => rfl

end Text

namespace Rust

/-- A line of source text without its line feed, and whether it comes from a note. -/
structure SourceLine where
  text : List Char
  note : Bool

namespace SourceLine

def code (text : List Char) : SourceLine := ⟨text, false⟩

/-- The text of lines. -/
def ended (lines : List SourceLine) : List Char := lines.flatMap fun line => line.text ++ ['\n']

theorem ended_append (lines more : List SourceLine) : ended (lines ++ more) = ended lines ++ ended more := List.flatMap_append

end SourceLine

/-- Whether a line begins, after indentation, as comments do. -/
def isComment (line : List Char) : Bool :=
  ['/', '/'].isPrefixOf (line.dropWhile fun c => c == ' ' || c == '\t')

namespace Fragment

def codeLines (margin s : String) : List SourceLine :=
  (Text.splitBy (· == '\n') s.toList).map fun line => .code (if line.isEmpty then [] else margin.toList ++ line)

def noteLines (margin mark s : String) : List SourceLine :=
  (Text.splitBy (· == '\n') (margin ++ mark ++ (if s.isEmpty then "" else " " ++ s)).toList).map (⟨·, true⟩)

mutual

/-- The lines of a fragment at a level. -/
def sourceLines (unit : String) (level : Nat) : Fragment → List SourceLine
  | .line s => codeLines (margin unit level) s
  | .blank => [.code []]
  | .doc s => noteLines (margin unit level) "///" s
  | .comment s => noteLines (margin unit level) "//" s
  | .block header body close =>
    codeLines (margin unit level) header ++ sourceLinesAll unit (level + 1) body
      ++ (close.map (codeLines (margin unit level))).getD []
  | .sequence fragments => sourceLinesAll unit level fragments

def sourceLinesAll (unit : String) (level : Nat) : List Fragment → List SourceLine
  | [] => []
  | fragment :: rest => fragment.sourceLines unit level ++ sourceLinesAll unit level rest

end

theorem feed_toList : "\n".toList = ['\n'] := by decide

theorem lineText_toList (margin s : String) : (lineText margin s).toList = SourceLine.ended (codeLines margin s) := by
  rw [lineText, String.toList_join, codeLines, SourceLine.ended, List.flatMap_map, List.flatMap_map]
  congr 1
  funext line
  cases line with
  | nil => exact feed_toList
  | cons c line => simp [SourceLine.code]

theorem markedText_toList (margin mark s : String) :
    (markedText margin mark s).toList = SourceLine.ended (noteLines margin mark s) := by
  rw [noteLines, SourceLine.ended, List.flatMap_map, markedText, String.toList_append]
  exact (Text.flatMap_splitBy_feed _).symm

mutual

/-- The text of a fragment is that of its lines. -/
theorem text_toList (unit : String) (level : Nat) : (fragment : Fragment) →
    (fragment.text unit level).toList = SourceLine.ended (fragment.sourceLines unit level)
  | .line s => lineText_toList _ s
  | .blank => feed_toList
  | .doc s => markedText_toList _ _ s
  | .comment s => markedText_toList _ _ s
  | .block header body close => by
    rw [text, sourceLines, String.toList_append, String.toList_append, SourceLine.ended_append, SourceLine.ended_append,
      lineText_toList, textAll_toList unit (level + 1) body]
    cases close with
    | none => rfl
    | some line => rw [Option.map_some, Option.map_some, Option.getD_some, Option.getD_some, lineText_toList]
  | .sequence fragments => textAll_toList unit level fragments

theorem textAll_toList (unit : String) (level : Nat) : (fragments : List Fragment) →
    (textAll unit level fragments).toList = SourceLine.ended (sourceLinesAll unit level fragments)
  | [] => rfl
  | fragment :: rest => by
    rw [textAll, sourceLinesAll, String.toList_append, SourceLine.ended_append, text_toList unit level fragment,
      textAll_toList unit level rest]

end

theorem sourceLinesAll_eq_flatMap (unit : String) (level : Nat) (fragments : List Fragment) :
    sourceLinesAll unit level fragments = fragments.flatMap (sourceLines unit level) := by
  induction fragments with
  | nil => rfl
  | cons fragment rest ih => rw [sourceLinesAll, ih, List.flatMap_cons]

theorem margin_subset (unit : String) (level : Nat) : (margin unit level).toList ⊆ unit.toList := by
  rw [margin, String.toList_join]
  intro c member
  obtain ⟨part, repeated, inside⟩ := List.mem_flatMap.mp member
  rwa [List.eq_of_mem_replicate repeated] at inside

theorem codeLines_unbroken {margin : String} (unbroken : '\n' ∉ margin.toList) (s : String) :
    ∀ line ∈ codeLines margin s, '\n' ∉ line.text := by
  refine List.forall_mem_map.mpr fun part member feed => ?_
  have kept := Text.mem_of_mem_splitBy member
  simp only [SourceLine.code] at feed
  split at feed
  · cases feed
  · rcases List.mem_append.mp feed with inMargin | inPart
    · exact unbroken inMargin
    · exact absurd (kept _ inPart).2 (by decide)

theorem noteLines_unbroken (margin mark s : String) : ∀ line ∈ noteLines margin mark s, '\n' ∉ line.text :=
  List.forall_mem_map.mpr fun _ member feed => absurd (Text.mem_of_mem_splitBy member _ feed).2 (by decide)

mutual

/-- The lines of a fragment are whole lines. -/
theorem sourceLines_unbroken {unit : String} (unbroken : '\n' ∉ unit.toList) (level : Nat) : (fragment : Fragment) →
    ∀ line ∈ fragment.sourceLines unit level, '\n' ∉ line.text
  | .line s => codeLines_unbroken (fun feed => unbroken (margin_subset unit level feed)) s
  | .blank => List.forall_mem_singleton.mpr List.not_mem_nil
  | .doc s => noteLines_unbroken _ _ s
  | .comment s => noteLines_unbroken _ _ s
  | .block header body close => by
    have inMargin := fun feed => unbroken (margin_subset unit level feed)
    rw [sourceLines, List.forall_mem_append, List.forall_mem_append]
    refine ⟨⟨codeLines_unbroken inMargin header, sourceLinesAll_unbroken unbroken (level + 1) body⟩, ?_⟩
    cases close with
    | none => exact List.forall_mem_nil _
    | some line => exact codeLines_unbroken inMargin line
  | .sequence fragments => sourceLinesAll_unbroken unbroken level fragments

theorem sourceLinesAll_unbroken {unit : String} (unbroken : '\n' ∉ unit.toList) (level : Nat) :
    (fragments : List Fragment) → ∀ line ∈ sourceLinesAll unit level fragments, '\n' ∉ line.text
  | [] => List.forall_mem_nil _
  | fragment :: rest =>
    List.forall_mem_append.mpr ⟨sourceLines_unbroken unbroken level fragment, sourceLinesAll_unbroken unbroken level rest⟩

end

/-! ### Notes -/

theorem note_of_mem_noteLines {margin mark s : String} {line : SourceLine} (member : line ∈ noteLines margin mark s) :
    line.note = true := by
  obtain ⟨_, -, rfl⟩ := List.mem_map.mp member
  rfl

/-- The texts of the lines of a note: only the first is marked. -/
theorem noteLines_eq {margin mark : String} (unbroken : ∀ c ∈ (margin ++ mark).toList, c ≠ '\n') (s : String) :
    noteLines margin mark s = ((Text.splitBy (· == '\n') s.toList).modifyHead
      ((margin ++ mark ++ if s.isEmpty then "" else " ").toList ++ ·)).map (⟨·, true⟩) := by
  have split : (margin ++ mark ++ (if s.isEmpty then "" else " " ++ s)).toList =
      (margin ++ mark ++ if s.isEmpty then "" else " ").toList ++ s.toList := by
    by_cases empty : s = ""
    · simp [empty]
    · simp [empty]
  rw [noteLines, split, Text.splitBy_append]
  intro c member
  rw [String.toList_append, List.mem_append] at member
  rcases member with marked | gap
  · simpa using unbroken c marked
  · split at gap <;> simp_all

theorem isComment_marked {margin : String} (blank : ∀ c ∈ margin.toList, c = ' ' ∨ c = '\t') (rest : List Char) :
    isComment (margin.toList ++ '/' :: '/' :: rest) = true := by
  rw [isComment, List.dropWhile_append_of_pos fun c member => by simpa using blank c member]
  simp

/-- The lines of a note are comments exactly if those after the first are comments as they stand. -/
theorem noteLines_comments_iff {margin mark : String} (blank : ∀ c ∈ margin.toList, c = ' ' ∨ c = '\t')
    (marks : mark = "///" ∨ mark = "//") (s : String) :
    (∀ line ∈ noteLines margin mark s, isComment line.text = true) ↔
      ∀ line ∈ (Text.splitBy (· == '\n') s.toList).tail, isComment line = true := by
  have unbroken : ∀ c ∈ (margin ++ mark).toList, c ≠ '\n' := by
    intro c member
    rw [String.toList_append, List.mem_append] at member
    rcases member with inMargin | inMark
    · rcases blank c inMargin with rfl | rfl <;> decide
    · have slash : c = '/' := by rcases marks with rfl | rfl <;> simpa using inMark
      rw [slash]
      decide
  have marked (rest : List Char) : isComment ((margin ++ mark ++ if s.isEmpty then "" else " ").toList ++ rest) = true := by
    obtain ⟨after, same⟩ : ∃ after, (margin ++ mark ++ if s.isEmpty then "" else " ").toList ++ rest =
        margin.toList ++ '/' :: '/' :: after := by
      rcases marks with rfl | rfl <;> simp
    rw [same]
    exact isComment_marked blank after
  rw [noteLines_eq unbroken, List.forall_mem_map]
  cases parts : Text.splitBy (· == '\n') s.toList with
  | nil => exact absurd parts (Text.splitBy_ne_nil _ _)
  | cons first others =>
    rw [List.modifyHead_cons, List.forall_mem_cons, List.tail_cons]
    exact and_iff_right (marked first)

end Fragment

/-! ### Files -/

namespace SourceFile

/-- The lines of a file. -/
def sourceLines (file : SourceFile) : List SourceLine :=
  [SourceLine.code []].intercalate (file.sections.map (Fragment.sourceLinesAll (Indent.spaces 4).text 0))

theorem ended_intercalate (separator : List SourceLine) (parts : List (List SourceLine)) :
    SourceLine.ended (separator.intercalate parts) = (SourceLine.ended separator).intercalate (parts.map SourceLine.ended) := by
  induction parts with
  | nil => rfl
  | cons part rest ih =>
    cases rest with
    | nil => simp
    | cons next rest => simp only [List.map_cons, List.intercalate_cons_cons, SourceLine.ended_append, ih]

theorem text_toList (file : SourceFile) : file.text.toList = SourceLine.ended file.sourceLines := by
  rw [text, String.toList_intercalate, sourceLines, ended_intercalate, List.map_map, List.map_map]
  congr 1
  exact List.map_congr_left fun fragments _ => Fragment.textAll_toList _ _ fragments

theorem forall_mem_intercalate {α : Type} {Q : α → Prop} {separator : List α} (between : ∀ a ∈ separator, Q a)
    (parts : List (List α)) : (∀ a ∈ separator.intercalate parts, Q a) ↔ ∀ part ∈ parts, ∀ a ∈ part, Q a := by
  induction parts with
  | nil => simp
  | cons part rest ih =>
    cases rest with
    | nil => simp
    | cons next rest =>
      rw [List.intercalate_cons_cons, List.forall_mem_append, List.forall_mem_append, ih, List.forall_mem_cons (a := part)]
      exact and_congr_left fun _ => and_iff_left between

theorem forall_sourceLines_iff {Q : SourceLine → Prop} (blank : Q (.code [])) (file : SourceFile) :
    (∀ line ∈ file.sourceLines, Q line) ↔
      ∀ part ∈ file.sections, ∀ fragment ∈ part, ∀ line ∈ fragment.sourceLines (Indent.spaces 4).text 0, Q line := by
  rw [sourceLines, forall_mem_intercalate (List.forall_mem_singleton.mpr blank), List.forall_mem_map]
  refine forall₂_congr fun part _ => ?_
  rw [Fragment.sourceLinesAll_eq_flatMap, List.forall_mem_flatMap]

/-- The notes of a file are those of its items. -/
theorem forall_notes_iff (P : List Char → Prop) (file : SourceFile) :
    (∀ line ∈ file.sourceLines, line.note = true → P line.text) ↔
      ∀ item ∈ file.items, ∀ fragment ∈ item, ∀ line ∈ fragment.sourceLines (Indent.spaces 4).text 0,
        line.note = true → P line.text := by
  have code (s : String) : ∀ line ∈ (Fragment.line s).sourceLines (Indent.spaces 4).text 0, line.note = true → P line.text :=
    List.forall_mem_map.mpr fun part _ note => by cases note
  have blank : (SourceLine.code []).note = true → P [] := fun note => by cases note
  rw [forall_sourceLines_iff blank, sections, List.forall_mem_append]
  refine and_iff_right fun part member fragment inside => ?_
  obtain ⟨s, rfl⟩ : ∃ s, fragment = .line s := by
    simp only [List.mem_filter, List.mem_cons, List.not_mem_nil, or_false] at member
    rcases member with ⟨rfl | rfl | rfl | rfl, -⟩ <;> obtain ⟨_, -, rfl⟩ := List.mem_map.mp inside <;> exact ⟨_, rfl⟩
  exact code s

end SourceFile

end Rust

end StackCompiler
