import StackCompiler.Number.Basic

/-!
The characters of numbers in documents. A number is written with digits, a point, signs and a
few letters, and its last character is a letter or a digit (`Number.text_isNumeral`).
-/
namespace StackCompiler

/-- The characters beside digits that numbers are written with. -/
def numeralMarks : List Char := ['+', '-', '.', 'e', 'N', 'a', 'i', 'n', 'f']

def IsNumeralChar (c : Char) : Prop := c.isDigit = true ∨ c ∈ numeralMarks

/-- Characters of numbers, of which the last is a letter or a digit. -/
structure IsNumeral (s : String) : Prop where
  chars : ∀ c ∈ s.toList, IsNumeralChar c
  last : ∃ c ∈ s.toList.getLast?, c.isAlphanum = true

namespace IsNumeral

variable {s t : String}

theorem after (start : ∀ c ∈ s.toList, IsNumeralChar c) (numeral : IsNumeral t) : IsNumeral (s ++ t) where
  chars := by
    rw [String.toList_append, List.forall_mem_append]
    exact ⟨start, numeral.chars⟩
  last := by
    obtain ⟨c, last, letter⟩ := numeral.last
    rw [String.toList_append, List.getLast?_append, Option.mem_def.mp last]
    exact ⟨c, rfl, letter⟩

theorem ofDigits {digits : List Char} (some : digits ≠ []) (each : ∀ c ∈ digits, c.isDigit = true) :
    IsNumeral (String.ofList digits) where
  chars := by
    rw [String.toList_ofList]
    exact fun c member => .inl (each c member)
  last := by
    rw [String.toList_ofList]
    refine ⟨_, List.getLast_mem_getLast? some, ?_⟩
    exact Bool.or_eq_true_iff.mpr (.inr (each _ (List.getLast_mem some)))

end IsNumeral

/-! ### Digits -/

theorem isDigit_of_mem_toDigits {n : Nat} : ∀ c ∈ Nat.toDigits 10 n, c.isDigit = true :=
  fun _ member => Nat.isDigit_of_mem_toDigits (by decide) (by decide) member

theorem nat_isNumeral (n : Nat) : IsNumeral (toString n) := by
  rw [Nat.toString_eq_ofList_toDigits]
  exact .ofDigits Nat.toDigits_ne_nil isDigit_of_mem_toDigits

namespace Decimal

theorem zeros_chars (n : Nat) : ∀ c ∈ (zeros n).toList, IsNumeralChar c := by
  intro c member
  rw [zeros, String.toList_ofList] at member
  obtain rfl := List.eq_of_mem_replicate member
  exact .inl (by decide)

theorem digits_chars {digits : List Char} {n : Nat} (among : digits ⊆ Nat.toDigits 10 n) :
    ∀ c ∈ (String.ofList digits).toList, IsNumeralChar c := by
  rw [String.toList_ofList]
  exact fun c member => .inl (isDigit_of_mem_toDigits c (among member))

theorem mark_chars {s : String} (marks : s.toList.all (fun c => c.isDigit || numeralMarks.contains c) = true) :
    ∀ c ∈ s.toList, IsNumeralChar c := by
  intro c member
  have mark := List.all_eq_true.mp marks c member
  rw [Bool.or_eq_true, List.contains_iff_mem] at mark
  exact mark

theorem append_chars {s t : String} (first : ∀ c ∈ s.toList, IsNumeralChar c) (second : ∀ c ∈ t.toList, IsNumeralChar c) :
    ∀ c ∈ (s ++ t).toList, IsNumeralChar c := by
  rw [String.toList_append, List.forall_mem_append]
  exact ⟨first, second⟩

theorem positional_isNumeral (d : Decimal) : IsNumeral (d.positional true) := by
  have digits : IsNumeral (String.ofList (Nat.toDigits 10 d.digits)) :=
    .ofDigits Nat.toDigits_ne_nil isDigit_of_mem_toDigits
  unfold positional
  dsimp only
  split
  · -- a whole number ends with a point and a zero
    refine .after (append_chars digits.chars (zeros_chars _)) ⟨mark_chars (by decide), '0', by decide, by decide⟩
  · rename_i e below
    split
    · exact .after (mark_chars (by decide)) digits
    · rename_i p _ point
      -- the point stands before the last digit
      have inside : p < (Nat.toDigits 10 d.digits).length := by
        rw [below] at point
        have value : ((Nat.toDigits 10 d.digits).length : Int) + Int.negSucc e = (p : Int) := point
        omega
      refine .after (append_chars (digits_chars (List.take_subset _ _)) (mark_chars (by decide))) (.ofDigits ?_ ?_)
      · rw [Ne, List.drop_eq_nil_iff]
        omega
      · exact fun c member => isDigit_of_mem_toDigits c (List.drop_subset _ _ member)
    · exact .after (append_chars (mark_chars (by decide)) (zeros_chars _)) digits

theorem scientific_isNumeral (d : Decimal) : IsNumeral (d.scientific "+") := by
  unfold scientific
  dsimp only
  refine .after (append_chars (append_chars ?mantissa (mark_chars (by decide))) ?sign) (nat_isNumeral _)
  case mantissa =>
    split
    case h_1 first second rest listed =>
      have among : first :: second :: rest ⊆ Nat.toDigits 10 d.digits := by
        rw [listed]
        exact List.Subset.refl _
      intro c member
      rw [String.toList_ofList, List.mem_cons, List.mem_cons] at member
      rcases member with rfl | rfl | member
      · exact .inl (isDigit_of_mem_toDigits _ (among List.mem_cons_self))
      · exact .inr (by decide)
      · exact .inl (isDigit_of_mem_toDigits _ (among (List.mem_cons_of_mem _ member)))
    case h_2 => exact digits_chars (List.Subset.refl _)
  case sign => split <;> exact mark_chars (by decide)

end Decimal

theorem Number.text_isNumeral (n : Number) : IsNumeral (n.text .json) := by
  have word {s : String} (marks : s.toList.all (fun c => c.isDigit || numeralMarks.contains c) = true)
      (last : ∃ c ∈ s.toList.getLast?, c.isAlphanum = true) : IsNumeral s := ⟨Decimal.mark_chars marks, last⟩
  cases n with
  | int i =>
    cases i with
    | ofNat n => exact nat_isNumeral n
    | negSucc n => exact .after (s := "-") (Decimal.mark_chars (by decide)) (nat_isNumeral (n + 1))
  | float x =>
    have sign : ∀ c ∈ (if x.negative then "-" else "").toList, IsNumeralChar c := by
      split <;> exact Decimal.mark_chars (by decide)
    have decimal (d : Decimal) (isPositional : Bool) : IsNumeral
        (if isPositional then d.positional FloatStyle.json.fraction else d.scientific FloatStyle.json.positive) := by
      split
      · exact d.positional_isNumeral
      · exact d.scientific_isNumeral
    rw [Number.text, Binary64.text]
    split
    · exact word (by decide) ⟨'N', by decide, by decide⟩
    · dsimp only
      split
      · exact .after sign (word (by decide) ⟨'f', by decide, by decide⟩)
      · exact .after sign (decimal _ _)

end StackCompiler
