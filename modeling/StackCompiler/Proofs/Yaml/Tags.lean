import StackCompiler.Proofs.Json.Nodes
import StackCompiler.Proofs.Value.Decoding
import StackCompiler.Template.ShortForm
import StackCompiler.Yaml.Writer

/-!
Tags in written documents. A call of a known function is written as a tag before its
arguments. A document has a text exactly if no tag stands right before another
(`text?_ofJson_isSome_iff`).
-/
namespace StackCompiler

namespace Json

/-- The keys that become tags, whatever stands under them. -/
def TagKey (key : String) : Prop :=
  ∃ f : Function, f ≠ .transform ∧ f ≠ .condition ∧ f.key = key

/-- A document that is written with a tag. A condition has one only where it names a condition. -/
def HasTag : Json → Prop
  | .obj [(key, args)] => TagKey key ∨ key = Function.condition.key ∧ ∃ s, args = .str s
  | _ => False

/-- What stands under a tag has no tag. -/
def NodeApart : Json → Prop
  | .obj [(key, args)] => TagKey key → ¬ HasTag args
  | _ => True

/-- No tag stands right before another. -/
def TagsApart (json : Json) : Prop := Everywhere NodeApart json

@[simp] theorem not_hasTag_str (s : String) : ¬ HasTag (.str s) := id

@[simp] theorem not_hasTag_arr (items : List Json) : ¬ HasTag (.arr items) := id

theorem tagsApart_of_childless {json : Json} (childless : ∀ w, ¬ Child w json) : TagsApart json := by
  refine (everywhere_iff _ _).mpr ⟨?_, fun w child => absurd child (childless w)⟩
  unfold NodeApart
  split
  · exact absurd (List.mem_singleton.mpr rfl) (childless _)
  · trivial

@[simp] theorem tagsApart_bool (b : Bool) : TagsApart (.bool b) := tagsApart_of_childless fun _ => id

@[simp] theorem tagsApart_num (n : Number) : TagsApart (.num n) := tagsApart_of_childless fun _ => id

@[simp] theorem tagsApart_str (s : String) : TagsApart (.str s) := tagsApart_of_childless fun _ => id

@[simp] theorem tagsApart_arr (items : List Json) : TagsApart (.arr items) ↔ ∀ item ∈ items, TagsApart item := by
  rw [TagsApart, everywhere_iff]
  exact and_iff_right trivial

theorem tagsApart_obj (members : List (String × Json)) :
    TagsApart (.obj members) ↔ NodeApart (.obj members) ∧ ∀ w ∈ members.map (·.2), TagsApart w :=
  everywhere_iff _ _

@[simp] theorem tagsApart_single (key : String) (args : Json) :
    TagsApart (.obj [(key, args)]) ↔ (TagKey key → ¬ HasTag args) ∧ TagsApart args := by
  rw [tagsApart_obj]
  simp [NodeApart]

/-- Only an object with one member can have a tag. -/
theorem HasTag.eq_single {members : List (String × Json)} (tagged : HasTag (.obj members)) :
    ∃ key args, members = [(key, args)] := by
  match members, tagged with
  | [(key, args)], _ => exact ⟨key, args, rfl⟩

/-- In an object without a tag, no member has to stand apart from it. -/
theorem tagsApart_of_not_hasTag {members : List (String × Json)} (plain : ¬ HasTag (.obj members)) :
    TagsApart (.obj members) ↔ ∀ w ∈ members.map (·.2), TagsApart w := by
  rw [tagsApart_obj]
  refine and_iff_right ?_
  unfold NodeApart
  split
  · rename_i key args same
    cases same
    exact fun tagKey => absurd (Or.inl tagKey) plain
  · trivial

end Json

namespace Yaml.Tree

open Json

theorem shortTag?_isSome_iff (key : String) (args : Json) :
    (shortTag? key args).isSome ↔ HasTag (.obj [(key, args)]) := by
  have otherKey (f : Function) (other : f ≠ .condition) : f.key ≠ Function.condition.key := by
    cases f <;> first | exact absurd rfl other | decide
  unfold shortTag?
  cases known : Function.ofKey? key with
  | none =>
    have unknown := (Function.ofKey?_eq_none_iff key).mp known
    simp only [HasTag, TagKey, Option.isSome_none, Bool.false_eq_true, false_iff]
    rintro (⟨f, -, -, same⟩ | ⟨same, -⟩)
    · exact unknown f same
    · exact unknown .condition same.symm
  | some f =>
    have same := (Function.ofKey?_eq_some_iff key f).mp known
    have only (g : Function) : g.key = key ↔ g = f := by
      rw [← Function.ofKey?_eq_some_iff, known, Option.some.injEq, eq_comm]
    simp only [HasTag, TagKey, only]
    by_cases condition : f = .condition
    · subst condition same
      cases args <;> simp
    · have otherName : ¬ key = Function.condition.key := by
        rw [← same]
        exact otherKey f condition
      by_cases transform : f = .transform
      · simp [transform, otherName]
      · simp [transform, condition]

theorem ofJson_tagged {key tag : String} {args : Json} (short : shortTag? key args = some tag) :
    ofJson (.obj [(key, args)]) = .tagged tag (ofArgs (key, args)) := by
  simp [ofJson, short]

theorem ofJson_plain {members : List (String × Json)} (plain : ¬ HasTag (.obj members)) :
    ofJson (.obj members) = .map (ofMembers members) := by
  match members with
  | [] => simp [ofJson]
  | [(key, args)] =>
    have none : shortTag? key args = none := by
      rw [← shortTag?_isSome_iff, Bool.not_eq_true, Option.isSome_eq_false_iff, Option.isNone_iff_eq_none] at plain
      exact plain
    simp [ofJson, none]
  | _ :: _ :: _ => simp [ofJson]

/-! ### Writing -/

/-- Whether `json` is written does not depend on where it stands, but for a tag before it. -/
def WrittenIff (json : Json) : Prop :=
  ∀ c tag p, (write c tag (ofJson json) p).isSome ↔ (tag.isSome → ¬ HasTag json) ∧ TagsApart json

theorem writeItems_isSome_iff {items : List Json} (each : ∀ item ∈ items, WrittenIff item) (indent : Nat) (p : Pen) :
    (writeItems indent (ofItems items) p).isSome ↔ ∀ item ∈ items, TagsApart item := by
  induction items generalizing p with
  | nil => simp [ofItems, writeItems]
  | cons item rest ih =>
    rw [List.forall_mem_cons] at each ⊢
    have first := each.1 ⟨some indent, false, false⟩ none ((p.toIndent indent).indicator ['-'] true true)
    simp only [Option.isSome_none, Bool.false_eq_true, false_implies, true_and] at first
    rw [ofItems, writeItems, ← first]
    cases write ⟨some indent, false, false⟩ none (ofJson item) _ with
    | none => simp
    | some p => simpa using ih each.2 p

theorem writeEntry_isSome_iff {value : Json} (written : WrittenIff value) (name : String) (indent : Nat) (p : Pen) :
    (writeEntry indent (.str name, ofJson value) p).isSome ↔ TagsApart value := by
  have alone (c : Context) (p : Pen) : (write c none (ofJson value) p).isSome ↔ TagsApart value := by
    simpa using written c none p
  rw [writeEntry]
  split
  · simpa [write] using alone _ _
  · simpa [write] using alone _ _

theorem writeEntries_isSome_iff {members : List (String × Json)} (each : ∀ w ∈ members.map (·.2), WrittenIff w)
    (indent : Nat) (p : Pen) :
    (writeEntries indent (ofMembers members) p).isSome ↔ ∀ w ∈ members.map (·.2), TagsApart w := by
  induction members generalizing p with
  | nil => simp [ofMembers, writeEntries]
  | cons member rest ih =>
    rw [List.map_cons, List.forall_mem_cons] at each ⊢
    rw [ofMembers, writeEntries, ← writeEntry_isSome_iff each.1 member.1 indent p]
    cases writeEntry indent (.str member.1, ofJson member.2) p with
    | none => simp
    | some p => simpa using ih each.2 p

/-- What stands after a tag is written if its arguments are, and have no tag. -/
theorem write_ofArgs_isSome_iff {args : Json} (written : WrittenIff args) (key : String) (c : Context) (tag : String)
    (p : Pen) : (write c (some tag) (ofArgs (key, args)) p).isSome ↔ ¬ HasTag args ∧ TagsApart args := by
  cases dotted : dotted? key args with
  | some text =>
    -- A dotted text is written in place of a list of texts, in which there is no tag either.
    obtain ⟨resource, name, rfl⟩ : ∃ resource name, args = .arr [.str resource, .str name] := by
      unfold dotted? at dotted
      split at dotted
      · exact ⟨_, _, rfl⟩
      · cases dotted
    simp [ofArgs, dotted, write]
  | none =>
    rw [ofArgs, dotted]
    simpa using written c (some tag) p

theorem writtenIff (json : Json) : WrittenIff json := by
  induction json using node_induction with
  | step json ih =>
    intro c tag p
    cases json with
    | null | bool _ | num _ =>
      exact iff_of_true (by simp [ofJson, write]) ⟨fun _ => id, tagsApart_of_childless fun _ => id⟩
    | str s => simp [ofJson, write]
    | arr items =>
      have written (indent : Nat) (p : Pen) := writeItems_isSome_iff ih indent p
      rw [ofJson, tagsApart_arr]
      cases items with
      | nil => simp [ofItems, write]
      | cons item rest => simpa [ofItems, write] using written _ (p.tag tag)
    | obj members =>
      by_cases tagged : HasTag (.obj members)
      · obtain ⟨key, args, rfl⟩ := tagged.eq_single
        obtain ⟨name, short⟩ := Option.isSome_iff_exists.mp ((shortTag?_isSome_iff key args).mpr tagged)
        have inner := write_ofArgs_isSome_iff (ih args (List.mem_singleton.mpr rfl)) key c name p
        rw [ofJson_tagged short]
        cases tag with
        | some outer => simp [write, tagged]
        | none =>
          have apart : (TagKey key → ¬ HasTag args) ↔ ¬ HasTag args := by
            rcases tagged with tagKey | ⟨-, s, rfl⟩
            · exact forall_prop_of_true tagKey
            · simp
          rw [write, inner, tagsApart_single, apart]
          simp
      · have written (p : Pen) := writeEntries_isSome_iff ih c.inner p
        rw [ofJson_plain tagged, tagsApart_of_not_hasTag tagged]
        cases members with
        | nil => simp [ofMembers, write, tagged]
        | cons member rest => simpa [ofMembers, write, tagged] using written (p.tag tag)

/-- A document has a text exactly if no tag stands right before another. -/
theorem text?_ofJson_isSome_iff (json : Json) : (ofJson json).text?.isSome ↔ TagsApart json := by
  rw [text?, Option.isSome_map, writtenIff json]
  simp

end Yaml.Tree

end StackCompiler
