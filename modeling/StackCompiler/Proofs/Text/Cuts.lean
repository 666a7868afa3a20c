import Mathlib.Data.List.Infix
import Mathlib.Data.List.TakeWhile
import StackCompiler.Text.Lines

/-!
Texts that are cut at the first, at the last or at every occurrence of a character. What is put
together around the character is cut into the same parts.
-/
namespace StackCompiler.Text

variable {mark : Char} {cs before after : List Char}

/-! ### The first occurrence -/

theorem splitFirst?_append (first : mark ∉ before) (after : List Char) :
    splitFirst? (· == mark) (before ++ mark :: after) = some (before, after) := by
  have unmarked : ∀ c ∈ before, (! (c == mark)) = true := by
    intro c member
    simp only [Bool.not_eq_true', beq_eq_false_iff_ne]
    rintro rfl
    exact first member
  unfold splitFirst?
  rw [List.dropWhile_append_of_pos unmarked, List.takeWhile_append_of_pos unmarked]
  simp

theorem splitFirst?_eq_some_iff :
    splitFirst? (· == mark) cs = some (before, after) ↔ cs = before ++ mark :: after ∧ mark ∉ before := by
  constructor
  · intro cut
    by_cases member : mark ∈ cs
    · obtain ⟨start, rest, rfl, first⟩ := List.eq_append_cons_of_mem member
      rw [splitFirst?_append first, Option.some.injEq, Prod.mk.injEq] at cut
      exact ⟨by rw [cut.1, cut.2], cut.1 ▸ first⟩
    · have unmarked : cs.dropWhile (! · == mark) = [] := by
        rw [List.dropWhile_eq_nil_iff]
        intro c inside
        simpa using fun same : c = mark => member (same ▸ inside)
      rw [splitFirst?, unmarked] at cut
      cases cut
  · rintro ⟨rfl, first⟩
    exact splitFirst?_append first after

/-- A text is cut in one way only. -/
theorem first_mark_unique {other rest more : List Char} (first : mark ∉ before) (firstToo : mark ∉ other)
    (same : before ++ mark :: rest = other ++ mark :: more) : before = other ∧ rest = more := by
  have cut := splitFirst?_append first rest
  rw [same, splitFirst?_append firstToo, Option.some.injEq, Prod.mk.injEq] at cut
  exact ⟨cut.1.symm, cut.2.symm⟩

/-! ### The last occurrence -/

/-- Marks of several characters may overlap one another, so it is anywhere in the text that none may stand. -/
theorem splitLast?_eq_none_iff {marks : List Char} : splitLast? marks cs = none ↔ ¬ marks <:+: cs := by
  induction cs with
  | nil => simp [splitLast?]
  | cons c rest ih =>
    rw [splitLast?, List.infix_cons_iff, not_or, ← ih, ← List.isPrefixOf_iff_prefix]
    cases splitLast? marks rest <;> simp

/-- The last of the marks is the one after whose first character there is no other. -/
theorem splitLast?_marks_eq_some_iff {marks : List Char} (filled : marks ≠ []) :
    splitLast? marks cs = some (before, after) ↔ cs = before ++ marks ++ after ∧ ¬ marks <:+: (marks ++ after).tail := by
  obtain ⟨m, more, rfl⟩ := List.exists_cons_of_ne_nil filled
  rw [List.cons_append, List.tail_cons]
  constructor
  · intro cut
    induction cs generalizing before with
    | nil => cases cut
    | cons c rest ih =>
      rw [splitLast?] at cut
      cases later : splitLast? (m :: more) rest with
      | some parts =>
        obtain ⟨start, last⟩ := parts
        simp only [later, Option.some.injEq, Prod.mk.injEq] at cut
        obtain ⟨rfl, rfl⟩ := cut
        obtain ⟨split, new⟩ := ih later
        exact ⟨congrArg (c :: ·) split, new⟩
      | none =>
        simp only [later] at cut
        split at cut
        · rename_i first
          obtain ⟨last, split⟩ := List.isPrefixOf_iff_prefix.mp first
          rw [← split, List.drop_left] at cut
          obtain ⟨rfl, rfl⟩ := Prod.mk.inj (Option.some.inj cut)
          rw [List.cons_append] at split
          rw [(List.cons.inj split).2]
          exact ⟨split.symm, splitLast?_eq_none_iff.mp later⟩
        · cases cut
  · rintro ⟨rfl, new⟩
    induction before with
    | nil =>
      have first : (m :: more).isPrefixOf (m :: (more ++ after)) = true :=
        List.isPrefixOf_iff_prefix.mpr (List.prefix_append (m :: more) after)
      rw [List.nil_append, List.cons_append, splitLast?, splitLast?_eq_none_iff.mpr new]
      simp [first]
    | cons c rest ih => rw [List.cons_append, List.cons_append, splitLast?, ih]

theorem splitLast?_eq_some_iff :
    splitLast? [mark] cs = some (before, after) ↔ cs = before ++ mark :: after ∧ mark ∉ after := by
  rw [splitLast?_marks_eq_some_iff (List.cons_ne_nil mark []), List.singleton_append, List.tail_cons,
    List.singleton_infix_iff, List.append_assoc, List.singleton_append]

theorem splitLast?_append (before : List Char) (new : mark ∉ after) :
    splitLast? [mark] (before ++ mark :: after) = some (before, after) :=
  splitLast?_eq_some_iff.mpr ⟨rfl, new⟩

theorem last_mark_unique {other rest more : List Char} (last : mark ∉ rest) (lastToo : mark ∉ more)
    (same : before ++ mark :: rest = other ++ mark :: more) : before = other ∧ rest = more := by
  have cut := splitLast?_append before last
  rw [same, splitLast?_append other lastToo, Option.some.injEq, Prod.mk.injEq] at cut
  exact ⟨cut.1.symm, cut.2.symm⟩

/-! ### Every occurrence -/

section Parts

variable {cut : Char → Bool}

theorem splitBy_ne_nil (cut : Char → Bool) (cs : List Char) : splitBy cut cs ≠ [] := by
  cases cs with
  | nil => exact List.cons_ne_nil _ _
  | cons c rest =>
    rw [splitBy]
    split
    · exact List.cons_ne_nil _ _
    · split <;> exact List.cons_ne_nil _ _

theorem splitBy_append {start : List Char} (uncut : ∀ c ∈ start, cut c = false) (cs : List Char) :
    splitBy cut (start ++ cs) = (splitBy cut cs).modifyHead (start ++ ·) := by
  induction start with
  | nil =>
    rw [List.nil_append]
    cases splitBy cut cs <;> rfl
  | cons c start ih =>
    obtain ⟨kept, uncut⟩ := List.forall_mem_cons.mp uncut
    rw [List.cons_append, splitBy, kept, if_neg Bool.false_ne_true, ih uncut]
    cases parts : splitBy cut cs with
    | nil => exact absurd parts (splitBy_ne_nil cut cs)
    | cons part rest => rfl

theorem splitBy_uncut {start : List Char} (uncut : ∀ c ∈ start, cut c = false) : splitBy cut start = [start] := by
  have parts := splitBy_append uncut []
  rw [List.append_nil] at parts
  rw [parts, splitBy, List.modifyHead_cons, List.append_nil]

theorem splitBy_append_cut {start : List Char} (uncut : ∀ c ∈ start, cut c = false) {c : Char} (isCut : cut c = true)
    (cs : List Char) : splitBy cut (start ++ c :: cs) = start :: splitBy cut cs := by
  rw [splitBy_append uncut, splitBy, if_pos isCut, List.modifyHead_cons, List.append_nil]

theorem splitBy_head_starts {first : List Char} {others : List (List Char)} (parts : splitBy cut cs = first :: others) :
    first <+: cs := by
  induction cs generalizing first others with
  | nil => exact (List.cons.inj parts).1 ▸ List.prefix_rfl
  | cons c rest ih =>
    rw [splitBy] at parts
    split at parts
    · exact (List.cons.inj parts).1 ▸ List.nil_prefix
    · cases later : splitBy cut rest with
      | nil => exact absurd later (splitBy_ne_nil cut rest)
      | cons part more =>
        rw [later] at parts
        exact (List.cons.inj parts).1 ▸ List.cons_prefix_cons.mpr ⟨rfl, ih later⟩

/-- What stands in a part stands in the text and is no cut. -/
theorem mem_of_mem_splitBy {part : List Char} (member : part ∈ splitBy cut cs) : ∀ c ∈ part, c ∈ cs ∧ cut c = false := by
  induction cs generalizing part with
  | nil =>
    rw [splitBy, List.mem_singleton] at member
    rw [member]
    exact List.forall_mem_nil _
  | cons c rest ih =>
    have later {part : List Char} (member : part ∈ splitBy cut rest) : ∀ d ∈ part, d ∈ c :: rest ∧ cut d = false :=
      fun d inside => (ih member d inside).imp_left (List.mem_cons_of_mem c)
    rw [splitBy] at member
    split at member
    · rcases List.mem_cons.mp member with rfl | member
      · exact List.forall_mem_nil _
      · exact later member
    case isFalse uncut =>
      have kept : cut c = false := by simpa using uncut
      cases parts : splitBy cut rest with
      | nil => exact absurd parts (splitBy_ne_nil cut rest)
      | cons first others =>
        rw [parts] at member later
        rcases List.mem_cons.mp member with rfl | member
        · exact List.forall_mem_cons.mpr ⟨⟨List.mem_cons_self, kept⟩, later List.mem_cons_self⟩
        · exact later (List.mem_cons_of_mem _ member)

end Parts

end StackCompiler.Text
