import Mathlib.Data.List.DropRight
import StackCompiler.Proofs.Declaration.Names
import StackCompiler.Proofs.Template.References
import StackCompiler.Proofs.Text.Search

/-!
The names that substitution templates ask for. A template has its groups in one way only (`Grouped`),
and each group that is neither empty nor literal asks for what it holds, without the white space at
its ends. A group of white space alone so asks for the empty name (`placeholders_filled_iff`), which
is then reported as a reference that leads nowhere (`reports_nothing_iff`).
-/
namespace StackCompiler

namespace Text

variable {cs : List Char}

theorem trim_eq_nil_iff : trim cs = [] ↔ ∀ c ∈ cs, isBlank c = true := by
  have start (cs : List Char) : trimStart cs = [] ↔ ∀ c ∈ cs, isBlank c = true := List.dropWhile_eq_nil_iff
  rw [trim, List.reverse_eq_nil_iff, start]
  simp only [List.mem_reverse]
  rw [← start, ← start, trimStart, trimStart, List.dropWhile_idempotent]

end Text

namespace Value

open Text (IsBeforeFirst)

/-! ### Groups -/

/-- What a group begins with. -/
def opening : List Char := ['$', '\x7b']

/-- The groups of a text, from left to right. A group begins at the first opening and ends at the first
    closing brace after that, and the others stand in the text after it. One that is not closed is
    none, and neither is anything after its opening. -/
inductive Grouped : List Char → List (List Char) → Prop
  | unopened {cs : List Char} (none : ¬ opening <:+: cs) : Grouped cs []
  | unclosed {before after : List Char} (first : IsBeforeFirst opening (before ++ opening ++ after) before)
      (unclosed : '\x7d' ∉ after) : Grouped (before ++ opening ++ after) []
  | group {before inner rest : List Char} {others : List (List Char)}
      (first : IsBeforeFirst opening (before ++ opening ++ (inner ++ '\x7d' :: rest)) before) (closed : '\x7d' ∉ inner)
      (later : Grouped rest others) : Grouped (before ++ opening ++ (inner ++ '\x7d' :: rest)) (inner :: others)

variable {before inner cs rest : List Char}

theorem groups_unclosed (unclosed : '\x7d' ∉ cs) : groups (some inner) cs = [] := by
  induction cs generalizing inner with
  | nil => rw [groups]
  | cons c rest ih =>
    rw [List.mem_cons, not_or] at unclosed
    rw [groups, if_neg (Ne.symm unclosed.1), ih unclosed.2]

theorem groups_closed (closed : '\x7d' ∉ cs) (rest : List Char) :
    groups (some inner) (cs ++ '\x7d' :: rest) = (inner.reverse ++ cs) :: groups none rest := by
  induction cs generalizing inner with
  | nil => rw [List.nil_append, groups, if_pos rfl, List.append_nil]
  | cons c cs ih =>
    rw [List.mem_cons, not_or] at closed
    rw [List.cons_append, groups, if_neg (Ne.symm closed.1), ih closed.2, List.reverse_cons, List.append_assoc]
    rfl

theorem groups_cons {c : Char} (starts : ¬ opening <+: c :: rest) : groups none (c :: rest) = groups none rest := by
  rw [groups]
  rintro after rfl rfl
  exact starts ⟨after, rfl⟩

theorem groups_unopened (none : ¬ opening <:+: cs) : groups Option.none cs = [] := by
  induction cs with
  | nil => rw [groups]
  | cons c rest ih =>
    rw [List.infix_cons_iff, not_or] at none
    rw [groups_cons none.1, ih none.2]

theorem groups_opened {after : List Char} (first : IsBeforeFirst opening (before ++ opening ++ after) before) :
    groups none (before ++ opening ++ after) = groups (some []) after := by
  induction before with
  | nil => rfl
  | cons c before ih =>
    rw [List.cons_append, List.cons_append] at first ⊢
    obtain ⟨starts, later⟩ := Text.isBeforeFirst_cons_iff.mp first
    rw [groups_cons starts, ih later]

theorem Grouped.groups_eq {gs : List (List Char)} (grouped : Grouped cs gs) : groups none cs = gs := by
  induction grouped with
  | unopened none => exact groups_unopened none
  | unclosed first unclosed => rw [groups_opened first, groups_unclosed unclosed]
  | group first closed later ih => rw [groups_opened first, groups_closed closed, ih]; rfl

/-- Every text has groups: what is left after one is shorter. -/
theorem exists_grouped (cs : List Char) : ∃ gs, Grouped cs gs := by
  induction long : cs.length using Nat.strong_induction_on generalizing cs with
  | _ size ih =>
    by_cases opened : opening <:+: cs
    · obtain ⟨before, first⟩ := Text.exists_isBeforeFirst opened
      obtain ⟨after, rfl⟩ := first.1
      by_cases closes : '\x7d' ∈ after
      · obtain ⟨inner, rest, rfl, closed⟩ := List.eq_append_cons_of_mem closes
        have shorter : rest.length < size := by
          rw [← long]
          simp only [List.length_append, List.length_cons]
          omega
        obtain ⟨others, later⟩ := ih rest.length shorter rest rfl
        exact ⟨inner :: others, .group first closed later⟩
      · exact ⟨[], .unclosed first closes⟩
    · exact ⟨[], .unopened opened⟩

theorem grouped_iff {gs : List (List Char)} : Grouped cs gs ↔ gs = groups none cs := by
  constructor
  · exact fun grouped => grouped.groups_eq.symm
  · rintro rfl
    obtain ⟨gs, grouped⟩ := exists_grouped cs
    rwa [grouped.groups_eq]

/-! ### Names -/

/-- A group of white space alone, if of anything. -/
def Blank (group : List Char) : Prop := ∀ c ∈ group, Text.isBlank c = true

instance (group : List Char) : Decidable (Blank group) :=
  decidable_of_iff (group.all Text.isBlank = true) List.all_eq_true

/-- A group that starts with an exclamation mark. -/
def Literal (group : List Char) : Prop := group.head? = some '!'

instance (group : List Char) : Decidable (Literal group) := inferInstanceAs (Decidable (_ = _))

/-- The name that a group holds. -/
def groupName (group : List Char) : String := String.ofList (Text.trim group)

theorem groupName_eq_empty_iff {group : List Char} : groupName group = "" ↔ Blank group := by
  rw [groupName, String.ofList_eq_empty_iff, Text.trim_eq_nil_iff, Blank]

theorem not_literal_of_blank {group : List Char} (blank : Blank group) : ¬ Literal group := by
  intro literal
  exact absurd (blank '!' (List.mem_of_mem_head? literal)) (by decide)

theorem placeholders_eq (template : String) :
    placeholders template =
      ((groups none template.toList).filter fun g => decide (g ≠ [] ∧ ¬ Literal g)).map groupName := by
  unfold placeholders
  rw [← List.filterMap_eq_map, List.filterMap_filter]
  congr 1
  funext g
  by_cases empty : g = []
  · simp [empty]
  · by_cases literal : g.head? = some '!' <;> simp [empty, literal, Literal, groupName]

theorem mem_placeholders_iff {template name : String} :
    name ∈ placeholders template ↔
      ∃ g ∈ groups none template.toList, g ≠ [] ∧ ¬ Literal g ∧ groupName g = name := by
  simp only [placeholders_eq, List.mem_map, List.mem_filter, decide_eq_true_eq, and_assoc]

/-- The empty name is asked for by what is white space alone. -/
theorem empty_mem_placeholders_iff {template : String} :
    "" ∈ placeholders template ↔ ∃ g ∈ groups none template.toList, g ≠ [] ∧ Blank g := by
  rw [mem_placeholders_iff]
  refine exists_congr fun g => and_congr_right fun _ => and_congr_right fun _ => ?_
  rw [groupName_eq_empty_iff]
  exact ⟨And.right, fun blank => ⟨not_literal_of_blank blank, blank⟩⟩

/-- The names that groups hold, of those that are neither literal nor blank. -/
def filledNames (gs : List (List Char)) : List String :=
  (gs.filter fun g => decide (¬ Blank g ∧ ¬ Literal g)).map groupName

theorem placeholders_eq_filledNames_iff (template : String) :
    placeholders template = filledNames (groups none template.toList) ↔
      ∀ g ∈ groups none template.toList, Blank g → g = [] := by
  constructor
  · intro same g member blank
    by_contra filled
    have asked : "" ∈ placeholders template := empty_mem_placeholders_iff.mpr ⟨g, member, filled, blank⟩
    rw [same, filledNames] at asked
    obtain ⟨other, kept, empty⟩ := List.mem_map.mp asked
    have notBlank := (of_decide_eq_true (List.mem_filter.mp kept).2).1
    exact notBlank (groupName_eq_empty_iff.mp empty)
  · intro empty
    rw [placeholders_eq, filledNames]
    refine congrArg (List.map groupName) (List.filter_congr fun g member => ?_)
    have same : g ≠ [] ↔ ¬ Blank g :=
      not_congr ⟨by rintro rfl; exact List.forall_mem_nil _, empty g member⟩
    exact decide_eq_decide.mpr (and_congr_left fun _ => same)

/-! ### References to the empty name -/

/-- A node refers to the empty name: outright, or it is a substitution that does not give it a value
    and has a group of white space or one whose name starts with a dot. -/
inductive NamesNothing : Value → Prop
  | ref : NamesNothing (.fn (.ref ""))
  | blank {template : String} {bindings : List (String × Value)} {gs : List (List Char)} {g : List Char}
      (grouped : Grouped template.toList gs) (member : g ∈ gs) (filled : g ≠ []) (blank : Blank g)
      (free : "" ∉ memberNames bindings) : NamesNothing (.fn (.sub template bindings))
  | dotted {template : String} {bindings : List (String × Value)} {gs : List (List Char)} {g : List Char}
      (grouped : Grouped template.toList gs) (member : g ∈ gs) (plain : ¬ Literal g)
      (dot : (groupName g).toList.head? = some '.') (free : "" ∉ memberNames bindings) :
      NamesNothing (.fn (.sub template bindings))

theorem beforeDot_eq_empty_iff {name : String} : beforeDot name = "" ↔ name = "" ∨ name.toList.head? = some '.' := by
  rw [beforeDot, String.ofList_eq_empty_iff, ← String.toList_eq_nil_iff]
  cases name.toList with
  | nil => simp
  | cons c rest => simp [List.takeWhile_cons]

theorem refersTo_empty_iff (node : Value) : RefersTo node "" ↔ NamesNothing node := by
  constructor
  · intro refers
    generalize name : "" = target at refers
    rcases refers with _ | resolved | ⟨member, free⟩
    · exact name ▸ .ref
    · exact absurd name.symm resolved
    · rw [← name] at free
      obtain ⟨g, inside, filled, plain, rfl⟩ := mem_placeholders_iff.mp member
      rcases beforeDot_eq_empty_iff.mp name.symm with empty | dot
      · exact .blank (grouped_iff.mpr rfl) inside filled (groupName_eq_empty_iff.mp empty) free
      · exact .dotted (grouped_iff.mpr rfl) inside plain dot free
  · have asks {template : String} {bindings : List (String × Value)} {g : List Char}
        (asked : groupName g ∈ placeholders template) (empty : beforeDot (groupName g) = "")
        (free : "" ∉ memberNames bindings) : RefersTo (.fn (.sub template bindings)) "" :=
      empty ▸ .placeholder asked (empty.symm ▸ free)
    intro nothing
    cases nothing with
    | ref => exact .ref ""
    | @blank template bindings gs g grouped member filled blank free =>
      rw [grouped_iff.mp grouped] at member
      exact asks (mem_placeholders_iff.mpr ⟨g, member, filled, not_literal_of_blank blank, rfl⟩)
        (beforeDot_eq_empty_iff.mpr (.inl (groupName_eq_empty_iff.mpr blank))) free
    | @dotted template bindings gs g grouped member plain dot free =>
      rw [grouped_iff.mp grouped] at member
      have filled : g ≠ [] := by
        rintro rfl
        cases dot
      exact asks (mem_placeholders_iff.mpr ⟨g, member, filled, plain, rfl⟩) (beforeDot_eq_empty_iff.mpr (.inr dot)) free

end Value

namespace Template

/-- Nothing that a template has, or brings with it, is called by the empty name. -/
theorem not_known_empty {text : String} {t : Template} {format : Format} (parsed : parse text = .ok (t, format)) :
    ¬ t.Known "" := by
  have names := entryNames_of_parse parsed
  simp only [entryNames, nameProblem?_eq_none_iff, List.forall_mem_append] at names
  obtain ⟨⟨⟨⟨parameters, -⟩, -⟩, resources⟩, -⟩ := names
  have companion : ∀ type, "" ∉ companions type := by
    intro type
    unfold companions
    split <;> decide
  have api : ∀ api ∈ implicitApis, api.name ≠ "" := by decide
  rintro (resource | parameter | ⟨logical, r, -, ⟨suffix, listed, same⟩ | ⟨-, _, _, _, made, -, -, listed, same, -⟩⟩ |
    pseudo)
  · exact (resources "" resource).1 rfl
  · exact (parameters "" parameter).1 rfl
  · obtain rfl : suffix = "" := (String.append_eq_empty_iff.mp same.symm).2
    exact companion r.type listed
  · exact api made listed same
  · exact absurd pseudo (by decide)

/-- A reference to the empty name is reported exactly where a node refers to it: nothing has that name. -/
theorem reports_nothing_iff {text : String} {t : Template} {format : Format} (parsed : parse text = .ok (t, format)) :
    (∃ r ∈ t.undefinedReferences, r.target = "") ↔
      ∃ location v path node, t.Scans location v ∧ (path, node) ∈ v.walk .root ∧ node.NamesNothing := by
  simp only [mem_undefinedReferences_iff, Mentions, ← Value.refersTo_empty_iff]
  constructor
  · rintro ⟨r, ⟨⟨location, v, path, node, scans, inside, refers, -⟩, -⟩, empty⟩
    exact ⟨location, v, path, node, scans, inside, empty ▸ refers⟩
  · rintro ⟨location, v, path, node, scans, inside, refers⟩
    have mentioned : t.Mentions ⟨nodeLocation location path, ""⟩ := ⟨location, v, path, node, scans, inside, refers, rfl⟩
    exact ⟨_, ⟨mentioned, not_known_empty parsed⟩, rfl⟩

open Value (Grouped Blank Literal groupName filledNames placeholders)

/-- A substitution template asks for the names that its groups hold, in their order, except for those of
    empty and of literal groups. These are the names of the groups that are neither literal nor blank
    exactly if no group is white space alone; otherwise the empty name is among them. Where a
    template was read, the empty name is reported exactly if a node refers to it. -/
theorem placeholders_filled_iff (template : String) :
    (∃ gs, (∀ other, Grouped template.toList other ↔ other = gs) ∧
      placeholders template = (gs.filter fun g => decide (g ≠ [] ∧ ¬ Literal g)).map groupName ∧
      (placeholders template = filledNames gs ↔ ∀ g ∈ gs, Blank g → g = []) ∧
      ("" ∈ placeholders template ↔ ∃ g ∈ gs, g ≠ [] ∧ Blank g)) ∧
    ∀ text t format, parse text = .ok (t, format) →
      ((∃ r ∈ t.undefinedReferences, r.target = "") ↔
        ∃ location v path node, t.Scans location v ∧ (path, node) ∈ v.walk .root ∧ node.NamesNothing) :=
  ⟨⟨_, fun _ => Value.grouped_iff, Value.placeholders_eq template, Value.placeholders_eq_filledNames_iff template,
    Value.empty_mem_placeholders_iff⟩, fun _ _ _ => reports_nothing_iff⟩

/-- Groups after a dollar sign, literal, empty, with white space at the ends, with an opening inside, and unclosed. -/
def mixedTemplate : String := "$$\x7bA\x7d $\x7b!B\x7d$\x7b\x7d$\x7b C.D \x7d$\x7bE$\x7b\x7d\x7d $\x7bF"

theorem placeholders_filled_mixed :
    (∀ g ∈ ["A", "!B", "", " C.D ", "E$\x7b"].map String.toList, Blank g → g = []) ∧
      Grouped mixedTemplate.toList (["A", "!B", "", " C.D ", "E$\x7b"].map String.toList) ∧
      placeholders mixedTemplate = ["A", "C.D", "E$\x7b"] := by
  have filled : ∀ g ∈ ["A", "!B", "", " C.D ", "E$\x7b"].map String.toList, Blank g → g = [] := by decide +kernel
  have grouped : Grouped mixedTemplate.toList (["A", "!B", "", " C.D ", "E$\x7b"].map String.toList) :=
    Value.grouped_iff.mpr (by decide +kernel)
  obtain ⟨⟨gs, unique, -, names, -⟩, -⟩ := placeholders_filled_iff mixedTemplate
  obtain rfl := (unique _).mp grouped
  exact ⟨filled, grouped, (names.mpr filled).trans (by decide +kernel)⟩

/-- A substitution whose only group is a blank. -/
def blankText : String :=
  "\x7b\"Resources\":\x7b\"Queue\":\x7b\"Type\":\"AWS::SQS::Queue\",\"Properties\":\x7b\"Tags\":[],\"QueueName\":\x7b\"Fn::Sub\":\"$\x7b \x7d\"\x7d\x7d\x7d\x7d\x7d"

def blankTemplate : Template :=
  { Template.empty with
    resources := [("Queue",
      { type := "AWS::SQS::Queue"
        properties := .obj [("Tags", .arr []), ("QueueName", .fn (.sub "$\x7b \x7d" []))] })] }

/-- The empty name is asked for, and reported. -/
theorem blank_reported :
    Grouped "$\x7b \x7d".toList [[' ']] ∧ Blank [' '] ∧ placeholders "$\x7b \x7d" = [""] ∧
      parse blankText = .ok (blankTemplate, .json) ∧
      blankTemplate.undefinedReferences = [⟨"Resources.Queue.Properties.QueueName", ""⟩] := by
  exact ⟨Value.grouped_iff.mpr (by decide +kernel), by decide, by decide +kernel, by decide +kernel, by decide +kernel⟩

end Template

end StackCompiler
