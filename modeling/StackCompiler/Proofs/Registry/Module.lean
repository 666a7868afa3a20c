import StackCompiler.Proofs.Registry.Type
import StackCompiler.Proofs.Rust.LegalName

/-!
The modules of the resource library. The short names of namespaces are small letters and
digits, so that the module of a namespace is its short name unless that is a keyword
(`fieldName_small`); in either case it is a path of one part (`module_plain`).
-/
namespace StackCompiler

namespace Text

/-- A character whose bytes are those of ASCII is of ASCII. -/
theorem code_of_encoded {c : Char} (ascii : ∀ b ∈ String.utf8EncodeChar c, b < 128) : c.toNat < 128 := by
  have same : c.val.toNat = c.toNat := rfl
  unfold String.utf8EncodeChar at ascii
  rw [same] at ascii
  dsimp only at ascii
  -- Of several bytes the first is that of no ASCII character.
  repeat' split at ascii
  all_goals simp [UInt8.lt_iff_toNat_lt] at ascii
  all_goals omega

/-- A text of ASCII characters has one byte for each. -/
theorem bytes_ascii {s : String} (ascii : ∀ b ∈ bytes s, b < 128) :
    bytes s = s.toList.map (fun c => UInt8.ofNat c.toNat) ∧ ∀ c ∈ s.toList, c.toNat < 128 := by
  rw [bytes_eq_flatMap] at ascii ⊢
  generalize s.toList = cs at ascii
  induction cs with
  | nil => exact ⟨rfl, List.forall_mem_nil _⟩
  | cons c rest ih =>
    rw [List.flatMap_cons, List.forall_mem_append] at ascii
    have code := code_of_encoded ascii.1
    obtain ⟨bytes, codes⟩ := ih ascii.2
    have one : String.utf8EncodeChar c = [UInt8.ofNat c.toNat] := if_pos (Nat.le_of_lt_succ code)
    rw [List.flatMap_cons, List.map_cons, bytes, one]
    exact ⟨rfl, List.forall_mem_cons.mpr ⟨code, codes⟩⟩

/-- A small letter or a digit. -/
def isSmall (c : Char) : Bool := c.isLower || c.isDigit

theorem isSmall_kept {c : Char} (small : isSmall c = true) :
    (c == '-' || c == '.' || c == ' ') = false ∧ isUpper c = false ∧ toLower c = [c] ∧ isAsciiAlphanumeric c = true := by
  have all : ((List.range 128).all fun code => let c := Char.ofNat code
      ! isSmall c || ! (c == '-' || c == '.' || c == ' ') && ! isUpper c && toLower c == [c] && isAsciiAlphanumeric c) = true := by
    decide +kernel
  have code : c.toNat < 128 := by
    rcases Bool.or_eq_true_iff.mp small with lower | digit
    · exact Nat.lt_of_le_of_lt ((isLower_iff_code c).mp lower).2 (by decide)
    · exact Nat.lt_of_le_of_lt (Char.isDigit_iff_toNat.mp digit).2 (by decide)
  have own := List.all_eq_true.mp all c.toNat (List.mem_range.mpr code)
  simp only [Char.ofNat_toNat, small, Bool.not_true, Bool.false_or, Bool.and_eq_true, Bool.not_eq_true', beq_iff_eq] at own
  obtain ⟨⟨⟨marks, upper⟩, lower⟩, letter⟩ := own
  exact ⟨marks, upper, lower, letter⟩

theorem snakeFrom_small {cs : List Char} (small : ∀ c ∈ cs, isSmall c = true) (before : Option Char) (written : List Char) :
    snakeFrom before written cs = written.reverse ++ cs := by
  induction cs generalizing before written with
  | nil => rw [snakeFrom, List.append_nil]
  | cons c rest ih =>
    rw [List.forall_mem_cons] at small
    obtain ⟨marks, upper, lower, -⟩ := isSmall_kept small.1
    rw [snakeFrom, marks, upper, lower]
    simp [ih small.2]

/-- Small letters and digits are one word. -/
theorem snakeCase_small {s : String} (small : ∀ c ∈ s.toList, isSmall c = true) : snakeCase s = s := by
  rw [snakeCase, snakeFrom_small small]
  exact String.ofList_toList

end Text

namespace Rust

/-- A name of small letters and digits is that of its field, unless it is a keyword. -/
theorem fieldName_small {s : String} (small : ∀ c ∈ s.toList, Text.isSmall c = true)
    (first : ∃ c, s.toList.head? = some c ∧ c.isLower = true) :
    fieldName s = s ∨ fieldName s = s ++ "_" ∨ fieldName s = "r#" ++ s := by
  have plain : plainChars s = s := by
    rw [← String.toList_inj, plainChars, String.toList_map, List.map_congr_left (g := id), List.map_id]
    exact fun c member => if_pos (Text.isSmall_kept (small c member)).2.2.2
  obtain ⟨c, head, lower⟩ := first
  have start : (s.isEmpty || startsWithDigit s) = false := by
    have filled : s.isEmpty = false := by
      rw [← Bool.not_eq_true, String.isEmpty_iff]
      rintro rfl
      cases head
    have letter : c.isDigit = false := by
      rw [← Bool.not_eq_true, Char.isDigit_iff_toNat]
      exact fun digit => absurd (Nat.le_trans ((Text.isLower_iff_code c).mp lower).1 digit.2) (by decide)
    rw [filled, startsWithDigit, head, Option.any_some, letter]
    rfl
  rw [fieldName, Text.snakeCase_small small, plain]
  simp only [start, Bool.false_eq_true, if_false]
  split
  · exact .inr (.inl rfl)
  · split
    · exact .inr (.inr rfl)
    · exact .inl rfl

end Rust

namespace Namespace

/-- The short names of namespaces are of small letters and digits, and begin with a letter. -/
theorem short_bytes : (all.all fun ns =>
    (Text.bytes ns.short).all (fun b => 97 ≤ b && b ≤ 122 || 48 ≤ b && b ≤ 57) &&
      (Text.bytes ns.short).head?.any fun b => 97 ≤ b && b ≤ 122 && b != 106) = true := by
  decide +kernel

theorem short_small {ns : Namespace} (known : ns ∈ all) :
    (∀ c ∈ ns.short.toList, Text.isSmall c = true) ∧ ∃ c, ns.short.toList.head? = some c ∧ c.isLower = true ∧ c ≠ 'j' := by
  obtain ⟨each, first⟩ := Bool.and_eq_true_iff.mp (List.all_eq_true.mp short_bytes ns known)
  simp only [List.all_eq_true, Bool.or_eq_true, Bool.and_eq_true, decide_eq_true_eq] at each
  have ascii : ∀ b ∈ Text.bytes ns.short, b < 128 := by
    intro b member
    rcases each b member with letter | digit
    · exact UInt8.lt_of_le_of_lt letter.2 (by decide)
    · exact UInt8.lt_of_le_of_lt digit.2 (by decide)
  obtain ⟨same, codes⟩ := Text.bytes_ascii ascii
  have byte {c : Char} (code : c.toNat < 128) : (UInt8.ofNat c.toNat).toNat = c.toNat := by
    rw [UInt8.toNat_ofNat']
    omega
  rw [same] at each first
  constructor
  · intro c member
    have range := each _ (List.mem_map_of_mem member)
    simp only [UInt8.le_iff_toNat_le, byte (codes c member)] at range
    rw [Text.isSmall, Bool.or_eq_true, Text.isLower_iff_code, Char.isDigit_iff_toNat]
    exact range
  · cases written : ns.short.toList with
    | nil =>
      rw [written] at first
      cases first
    | cons c rest =>
      rw [written] at first codes
      have code := byte (codes c List.mem_cons_self)
      simp only [List.map_cons, List.head?_cons, Option.any_some, Bool.and_eq_true, decide_eq_true_eq, bne_iff_ne,
        UInt8.le_iff_toNat_le, code] at first
      refine ⟨c, rfl, (Text.isLower_iff_code c).mpr first.1, ?_⟩
      rintro rfl
      exact first.2 rfl

/-- The modules of services are paths of one part, and none begins as the macro for documents does. -/
theorem module_plain {ns : Namespace} (known : ns ∈ all) :
    ':' ∉ (Rust.fieldName ns.short).toList ∧ ∃ c, (Rust.fieldName ns.short).toList.head? = some c ∧ c.isLower = true ∧ c ≠ 'j' := by
  obtain ⟨small, c, first, lower, other⟩ := short_small known
  have colon : ':' ∉ ns.short.toList := fun member => absurd (small ':' member) (by decide)
  rcases Rust.fieldName_small small ⟨c, first, lower⟩ with same | same | same
  · rw [same]
    exact ⟨colon, c, first, lower, other⟩
  · rw [same, String.toList_append]
    refine ⟨?_, c, ?_, lower, other⟩
    · simp [colon]
    · rw [List.head?_append, first]
      rfl
  · rw [same, String.toList_append]
    exact ⟨by simp [colon], 'r', rfl, by decide, by decide⟩

end Namespace

end StackCompiler
