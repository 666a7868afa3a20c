import Mathlib.Data.List.Infix
import StackCompiler.Text.Lines

/-!
Where a text first stands in another, and how many bytes come before that place.
-/
namespace StackCompiler.Text

/-! ### Bytes -/

theorem byteCount_append (cs more : List Char) : byteCount (cs ++ more) = byteCount cs + byteCount more := by
  induction cs with
  | nil => exact (Nat.zero_add _).symm
  | cons c rest ih => rw [List.cons_append, byteCount, byteCount, ih, Nat.add_assoc]

theorem byteCount_toList (s : String) : byteCount s.toList = s.utf8ByteSize := by
  suffices same : ∀ cs, byteCount cs = (String.ofList cs).utf8ByteSize by rw [same, String.ofList_toList]
  intro cs
  induction cs with
  | nil => rfl
  | cons c rest ih =>
    rw [byteCount, ih, String.ofList_cons, String.utf8ByteSize_append, String.utf8ByteSize_singleton]

/-- A text is cut after a number of bytes in one way only. -/
theorem append_inj_of_byteCount {before other rest more : List Char} (same : before ++ rest = other ++ more)
    (bytes : byteCount before = byteCount other) : before = other ∧ rest = more := by
  induction before generalizing other with
  | nil =>
    cases other with
    | nil => exact ⟨rfl, same⟩
    | cons d other =>
      have filled := d.utf8Size_pos
      simp only [byteCount] at bytes
      omega
  | cons c before ih =>
    cases other with
    | nil =>
      have filled := c.utf8Size_pos
      simp only [byteCount] at bytes
      omega
    | cons d other =>
      obtain ⟨rfl, later⟩ := List.cons.inj same
      obtain ⟨rfl, rest⟩ := ih later (Nat.add_left_cancel bytes)
      exact ⟨rfl, rest⟩

/-! ### The first occurrence -/

section First

variable {mark cs : List Char}

theorem findFirst?_eq_none_iff : findFirst? mark cs = none ↔ ¬ mark <:+: cs := by
  induction cs with
  | nil => rw [findFirst?]; simp
  | cons c rest ih =>
    rw [findFirst?, List.infix_cons_iff, not_or, ← ih, ← List.isPrefixOf_iff_prefix]
    split <;> simp_all

/-- `before` is what comes before the first place at which `mark` stands. -/
def IsBeforeFirst (mark cs before : List Char) : Prop :=
  (∃ after, cs = before ++ mark ++ after) ∧ ∀ other after, cs = other ++ mark ++ after → before.length ≤ other.length

theorem IsBeforeFirst.stands {before : List Char} (first : IsBeforeFirst mark cs before) : mark <:+: cs := by
  obtain ⟨⟨after, split⟩, -⟩ := first
  exact ⟨before, after, split.symm⟩

theorem isBeforeFirst_nil (starts : mark <+: cs) : IsBeforeFirst mark cs [] := by
  obtain ⟨after, split⟩ := starts
  exact ⟨⟨after, split.symm⟩, fun _ _ _ => Nat.zero_le _⟩

theorem isBeforeFirst_cons_iff {c : Char} {rest before : List Char} :
    IsBeforeFirst mark (c :: rest) (c :: before) ↔ ¬ mark <+: c :: rest ∧ IsBeforeFirst mark rest before := by
  constructor
  · rintro ⟨⟨after, split⟩, first⟩
    refine ⟨fun starts => ?_, ⟨after, (List.cons.inj split).2⟩, fun other after same => ?_⟩
    · obtain ⟨after, starts⟩ := starts
      exact absurd (first [] after starts.symm) (Nat.not_succ_le_zero _)
    · exact Nat.le_of_succ_le_succ (first (c :: other) after (congrArg (c :: ·) same))
  · rintro ⟨starts, ⟨after, split⟩, first⟩
    refine ⟨⟨after, congrArg (c :: ·) split⟩, fun other after same => ?_⟩
    cases other with
    | nil => exact absurd ⟨after, same.symm⟩ starts
    | cons d other => exact Nat.succ_le_succ (first other after (List.cons.inj same).2)

theorem isBeforeFirst_of_findFirst? {position : Nat} (found : findFirst? mark cs = some position) :
    IsBeforeFirst mark cs (cs.take position) := by
  induction cs generalizing position with
  | nil =>
    rw [findFirst?] at found
    split at found
    case isTrue starts =>
      rw [List.take_nil]
      exact isBeforeFirst_nil (List.isPrefixOf_iff_prefix.mp starts)
    case isFalse => cases found
  | cons c rest ih =>
    rw [findFirst?] at found
    split at found
    case isTrue starts =>
      cases found
      exact isBeforeFirst_nil (List.isPrefixOf_iff_prefix.mp starts)
    case isFalse starts =>
      obtain ⟨after, later, rfl⟩ := Option.map_eq_some_iff.mp found
      exact isBeforeFirst_cons_iff.mpr ⟨fun first => starts (List.isPrefixOf_iff_prefix.mpr first), ih later⟩

theorem exists_isBeforeFirst (stands : mark <:+: cs) : ∃ before, IsBeforeFirst mark cs before := by
  cases found : findFirst? mark cs with
  | some position => exact ⟨_, isBeforeFirst_of_findFirst? found⟩
  | none => exact absurd stands (findFirst?_eq_none_iff.mp found)

end First

/-! ### Lines -/

theorem flatten_linesKept (cs : List Char) : (linesKept cs).flatten = cs := by
  induction cs with
  | nil => rfl
  | cons c rest ih =>
    rw [linesKept]
    split
    · rw [List.flatten_cons, ih]
      rfl
    · cases lines : linesKept rest <;> simp_all

/-- A text is empty or ends with a line feed. -/
def WholeLines (cs : List Char) : Prop := ∀ c ∈ cs.getLast?, c = '\n'

/-- Whole lines stay as they are before other text, and each has one line feed. -/
theorem linesKept_whole {before : List Char} (whole : WholeLines before) (cs : List Char) :
    linesKept (before ++ cs) = linesKept before ++ linesKept cs ∧ (linesKept before).length = before.count '\n' := by
  induction before with
  | nil => exact ⟨rfl, rfl⟩
  | cons c rest ih =>
    cases rest with
    | nil =>
      obtain rfl : c = '\n' := whole c rfl
      exact ⟨rfl, rfl⟩
    | cons d rest =>
      rw [WholeLines, List.getLast?_cons_cons] at whole
      obtain ⟨lines, feeds⟩ := ih whole
      by_cases feed : c = '\n'
      · subst feed
        exact ⟨congrArg (['\n'] :: ·) lines, by rw [List.count_cons_self, ← feeds]; rfl⟩
      · obtain ⟨line, more, split⟩ : ∃ line more, linesKept (d :: rest) = line :: more := by
          refine List.exists_cons_of_ne_nil fun none => ?_
          have flat := flatten_linesKept (d :: rest)
          rw [none] at flat
          cases flat
        have longer {cs : List Char} {others : List (List Char)} (kept : linesKept cs = line :: others) :
            linesKept (c :: cs) = (c :: line) :: others := by
          rw [linesKept, if_neg feed, kept]
        rw [split] at lines feeds
        rw [List.cons_append, longer lines, longer split, List.count_cons_of_ne feed, ← feeds]
        exact ⟨rfl, rfl⟩

end StackCompiler.Text
