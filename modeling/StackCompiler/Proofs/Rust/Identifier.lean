import StackCompiler.Rust.Identifier

/-!
Identifiers for logical names. A name has one unless it holds no ASCII letter or digit.
-/
namespace StackCompiler

namespace Text

theorem recased_ne_nil {several : List (Nat × List Nat)} (forms : ∀ e ∈ several, e.2 ≠ []) (single : List (Stride × Int))
    (c : Char) : recased several single c ≠ [] := by
  unfold recased
  split
  case h_1 codes found =>
    obtain ⟨key, listed⟩ : ∃ key, (key, codes) ∈ several := by
      rw [List.lookup_eq_some_iff] at found
      obtain ⟨before, after, split, -⟩ := found
      exact ⟨c.toNat, by simp [split]⟩
    simpa using forms _ listed
  case h_2 => split <;> simp

theorem toUpper_ne_nil (c : Char) : toUpper c ≠ [] := recased_ne_nil (by decide) _ c

/-- Words run together give nothing exactly if there are none. -/
theorem capitalized_words_eq_nil_iff (cut : Char → Bool) (cs : List Char) :
    (splitBy cut cs).flatMap capitalized = [] ↔ ∀ c ∈ cs, cut c = true := by
  induction cs with
  | nil => simp [splitBy, capitalized]
  | cons c rest ih =>
    rw [List.forall_mem_cons, ← ih, splitBy]
    by_cases cuts : cut c = true
    · simp [cuts, capitalized]
    · rw [if_neg cuts]
      split <;> simp [capitalized, cuts, toUpper_ne_nil]

theorem isUpper_iff_code (c : Char) : c.isUpper = true ↔ 65 ≤ c.toNat ∧ c.toNat ≤ 90 :=
  ⟨fun is => of_decide_eq_true is, fun range => decide_eq_true range⟩

theorem isLower_iff_code (c : Char) : c.isLower = true ↔ 97 ≤ c.toNat ∧ c.toNat ≤ 122 := by
  refine Bool.and_eq_true_iff.trans (and_congr ?_ ?_) <;>
    exact ⟨fun is => of_decide_eq_true is, fun range => decide_eq_true range⟩

theorem code_of_alphanumeric {c : Char} (alphanumeric : isAsciiAlphanumeric c = true) :
    48 ≤ c.toNat ∧ c.toNat ≤ 57 ∨ 65 ≤ c.toNat ∧ c.toNat ≤ 90 ∨ 97 ≤ c.toNat ∧ c.toNat ≤ 122 := by
  rcases Bool.or_eq_true_iff.mp alphanumeric with letter | number
  · exact .inr ((Bool.or_eq_true_iff.mp letter).imp (isUpper_iff_code c).mp (isLower_iff_code c).mp)
  · exact .inl (Char.isDigit_iff_toNat.mp number)

/-- Letters and digits stand in words. -/
theorem dividesWords_of_alphanumeric {c : Char} (alphanumeric : isAsciiAlphanumeric c = true) : dividesWords c = false := by
  have code := code_of_alphanumeric alphanumeric
  have apart (d : Char) (other : c.toNat ≠ d.toNat) : (c == d) = false :=
    beq_eq_false_iff_ne.mpr fun same => other (congrArg Char.toNat same)
  have blank : isBlank c = false := by
    simp [isBlank, blanks, Interval.holds]
    omega
  rw [dividesWords, blank, apart '_' (by simp; omega), apart '-' (by simp; omega), apart '.' (by simp; omega),
    apart ':' (by simp; omega)]
  rfl

end Text

namespace Rust

/-- What is no letter or digit is an underscore among plain characters, and divides words there. -/
theorem dividesWords_plain (c : Char) :
    Text.dividesWords (if Text.isAsciiAlphanumeric c then c else '_') = ! Text.isAsciiAlphanumeric c := by
  cases plain : Text.isAsciiAlphanumeric c with
  | false => simp [Text.dividesWords]
  | true => simp [Text.dividesWords_of_alphanumeric plain]

theorem declarationName?_eq_none_iff (logical : String) :
    declarationName? logical = none ↔ ∀ c ∈ logical.toList, Text.isAsciiAlphanumeric c = false := by
  have words : (Text.pascalCase (plainChars logical)).isEmpty = true ↔
      ∀ c ∈ logical.toList, Text.isAsciiAlphanumeric c = false := by
    simp [Text.pascalCase, plainChars, -List.flatMap_eq_nil_iff, Text.capitalized_words_eq_nil_iff, dividesWords_plain]
  simp [declarationName?, words]

end Rust

end StackCompiler
