import Mathlib.Data.String.Basic
import StackCompiler.Distinct

/-!
Names in ascending order. Inserting a name adds it and keeps the order, and names in
ascending order are without repetitions. Of elements with the same key, the first is kept.
-/
namespace StackCompiler

/-- Each name is less than all that come after it. -/
def Ascending (names : List String) : Prop := names.Pairwise (· < ·)

theorem Ascending.nodup {names : List String} (ascending : Ascending names) : names.Nodup :=
  ascending.imp fun less => ne_of_lt less

/-- Names in ascending order are given by which names there are. -/
theorem Ascending.ext {names others : List String} (ascending : Ascending names) (ascendingToo : Ascending others)
    (same : ∀ x, x ∈ names ↔ x ∈ others) : names = others := by
  have perm : names.Perm others := (List.perm_ext_iff_of_nodup ascending.nodup ascendingToo.nodup).mpr same
  exact perm.eq_of_pairwise (fun x y _ _ less more => absurd more (lt_asymm less)) ascending ascendingToo

theorem mem_insertName (name x : String) (names : List String) :
    x ∈ insertName name names ↔ x = name ∨ x ∈ names := by
  induction names with
  | nil => simp [insertName]
  | cons other rest ih =>
    rw [insertName]
    split
    · exact List.mem_cons
    · split
      · rename_i same
        subst same
        simp
      · rw [List.mem_cons, ih, List.mem_cons]
        tauto

theorem ascending_insertName {names : List String} (ascending : Ascending names) (name : String) :
    Ascending (insertName name names) := by
  unfold Ascending at *
  induction names with
  | nil => exact List.pairwise_singleton _ _
  | cons other rest ih =>
    obtain ⟨first, later⟩ := List.pairwise_cons.mp ascending
    rw [insertName]
    split
    · rename_i less
      refine List.pairwise_cons.mpr ⟨fun x member => ?_, ascending⟩
      rcases List.mem_cons.mp member with rfl | member
      · exact less
      · exact lt_trans less (first x member)
    · split
      · exact ascending
      · rename_i notLess different
        refine List.pairwise_cons.mpr ⟨fun x member => ?_, ih later⟩
        rcases (mem_insertName name x rest).mp member with rfl | member
        · exact lt_of_le_of_ne (not_lt.mp notLess) (Ne.symm different)
        · exact first x member

theorem mem_sortedNames (x : String) (names : List String) : x ∈ sortedNames names ↔ x ∈ names := by
  have folded (start : List String) :
      x ∈ names.foldl (fun sorted name => insertName name sorted) start ↔ x ∈ names ∨ x ∈ start := by
    induction names generalizing start with
    | nil => simp
    | cons name rest ih =>
      rw [List.foldl_cons, ih, mem_insertName, List.mem_cons]
      tauto
  rw [sortedNames, folded]
  simp

theorem ascending_sortedNames (names : List String) : Ascending (sortedNames names) := by
  have folded (start : List String) (ascending : Ascending start) :
      Ascending (names.foldl (fun sorted name => insertName name sorted) start) := by
    induction names generalizing start with
    | nil => exact ascending
    | cons name rest ih => exact ih _ (ascending_insertName ascending name)
  exact folded [] List.Pairwise.nil

variable {α : Type}

theorem mem_of_mem_keepFirst {same : α → α → Bool} {a : α} {items : List α} (member : a ∈ keepFirst same items) :
    a ∈ items := by
  induction items with
  | nil => exact member
  | cons first rest ih =>
    rcases List.mem_cons.mp member with rfl | member
    · exact List.mem_cons_self
    · exact List.mem_cons_of_mem _ (ih (List.mem_of_mem_filter member))

section Keys

variable {β : Type} (key : α → β) {same : α → α → Bool} (compares : ∀ a b, same a b = true ↔ key a = key b)
include compares

theorem exists_mem_keepFirst {a : α} {items : List α} (member : a ∈ items) : ∃ b ∈ keepFirst same items, key b = key a := by
  induction items with
  | nil => cases member
  | cons first rest ih =>
    by_cases found : key first = key a
    · exact ⟨first, List.mem_cons_self, found⟩
    · have later : a ∈ rest := List.mem_of_ne_of_mem (fun eq => found (congrArg key eq.symm)) member
      obtain ⟨b, kept, eq⟩ := ih later
      refine ⟨b, List.mem_cons_of_mem _ (List.mem_filter.mpr ⟨kept, ?_⟩), eq⟩
      rw [Bool.not_eq_true', ← Bool.not_eq_true, compares, eq]
      exact found

theorem nodup_keys_keepFirst (items : List α) : ((keepFirst same items).map key).Nodup := by
  induction items with
  | nil => exact List.nodup_nil
  | cons first rest ih =>
    rw [keepFirst, List.map_cons, List.nodup_cons]
    refine ⟨?_, (List.filter_sublist.map key).nodup ih⟩
    intro again
    obtain ⟨a, kept, eq⟩ := List.mem_map.mp again
    have differs := (List.mem_filter.mp kept).2
    rw [(compares first a).mpr eq.symm] at differs
    cases differs

end Keys

section Equal

variable [BEq α] [LawfulBEq α]

theorem mem_keepFirst (a : α) (items : List α) : a ∈ keepFirst (· == ·) items ↔ a ∈ items := by
  constructor
  · exact mem_of_mem_keepFirst
  · intro member
    obtain ⟨b, kept, rfl⟩ := exists_mem_keepFirst id (fun _ _ => beq_iff_eq) member
    exact kept

/-- Elements are kept in the order in which they first come. -/
theorem pairwise_idxOf_keepFirst (items : List α) :
    (keepFirst (· == ·) items).Pairwise fun a b => items.idxOf a < items.idxOf b := by
  induction items with
  | nil => exact .nil
  | cons first rest ih =>
    have later {a : α} (kept : a ∈ (keepFirst (· == ·) rest).filter (! first == ·)) : (first == a) = false := by
      simpa using (List.mem_filter.mp kept).2
    refine List.pairwise_cons.mpr ⟨fun a kept => ?_, ?_⟩
    · rw [List.idxOf_cons_self, List.idxOf_cons, later kept]
      exact Nat.succ_pos _
    · refine (ih.filter _).imp_of_mem fun {a b} first second less => ?_
      rw [List.idxOf_cons, List.idxOf_cons, later first, later second]
      exact Nat.succ_lt_succ less

theorem keepFirst_filter (p : α → Bool) (items : List α) :
    keepFirst (· == ·) (items.filter p) = (keepFirst (· == ·) items).filter p := by
  induction items with
  | nil => rfl
  | cons first rest ih =>
    by_cases holds : p first = true
    · rw [List.filter_cons_of_pos holds, keepFirst, keepFirst, List.filter_cons_of_pos holds, ih,
        List.filter_filter, List.filter_filter]
      simp [Bool.and_comm]
    · rw [List.filter_cons_of_neg holds, keepFirst, List.filter_cons_of_neg holds, ih, List.filter_filter]
      refine List.filter_congr fun a _ => ?_
      -- what is left out as equal to the first does not satisfy `p` either
      by_cases same : first = a
      · subst same
        simp [holds]
      · simp [same]

end Equal

/-- Of what comes later, only that is kept which is not there already. -/
theorem keepFirst_append (same : α → α → Bool) (items others : List α) :
    keepFirst same (items ++ others) =
      keepFirst same items ++ (keepFirst same others).filter fun a => items.all (! same · a) := by
  induction items with
  | nil => simp [keepFirst]
  | cons first rest ih =>
    rw [List.cons_append, keepFirst, ih, keepFirst, List.filter_append, List.filter_filter, List.cons_append]
    rfl

end StackCompiler
