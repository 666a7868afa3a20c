import StackCompiler.Proofs.Members
import StackCompiler.Proofs.Rust.Identifier
import StackCompiler.Proofs.Rust.NameTable
import StackCompiler.Proofs.Text.Cuts

/-!
Which texts are identifiers in source. What a declaration is called begins with a capital, and what
is put after that never completes a keyword (`isCapitalized_append_iff`); the name of a field is
legal for every property of which a letter, a digit or two other characters are left
(`isFieldIdentifier_fieldName_iff`).
-/
namespace StackCompiler

namespace Text

/-! ### Upper case -/

theorem code_of_isLower_ofNat {code : Nat} (small : (Char.ofNat code).isLower = true) : 97 ≤ code ∧ code ≤ 122 := by
  rw [isLower_iff_code] at small
  by_cases valid : code.isValidChar
  · have same : Char.ofNat code = Char.ofNatAux code valid := dif_pos valid
    rw [same] at small
    exact small
  · have zero : Char.ofNat code = Char.ofNat 0 := dif_neg valid
    rw [zero] at small
    exact absurd small (by decide)

/-- A text does not begin with a small letter of ASCII. -/
def StartsBig (cs : List Char) : Prop := ∀ c ∈ cs.head?, c.isLower = false

theorem startsBig_nil : StartsBig [] := fun _ none => by cases none

theorem startsBig_append {cs more : List Char} (first : StartsBig cs) (second : StartsBig more) : StartsBig (cs ++ more) := by
  cases cs with
  | nil => exact second
  | cons c rest => exact first

/-- No letter has a small letter of ASCII as its upper case. -/
theorem startsBig_toUpper (c : Char) : StartsBig (toUpper c) := by
  have several : (CaseTable.toUpperSeveral.all fun e => e.2.head?.all fun code => code < 97 || 122 < code) = true := by
    decide +kernel
  have single : (CaseTable.toUpper.all fun e => e.1.high + e.2 < 97 || 122 < e.1.low + e.2) = true := by decide +kernel
  -- A character that is in neither table stays as it is; the small letters of ASCII are in the second.
  have letters : (⟨97, 122, 1⟩, -32) ∈ CaseTable.toUpper := List.mem_cons_self
  intro d first
  rw [← Bool.not_eq_true]
  intro small
  unfold toUpper recased at first
  split at first
  case h_1 codes found =>
    have listed := List.all_eq_true.mp several _ (mem_of_lookup found)
    rw [List.head?_map, Option.mem_def, Option.map_eq_some_iff] at first
    obtain ⟨code, first, rfl⟩ := first
    have range := code_of_isLower_ofNat small
    have outside : code < 97 ∨ 122 < code := by simpa [first] using listed
    omega
  case h_2 =>
    split at first
    case h_1 stride distance found =>
      obtain rfl : Char.ofNat (c.toNat + distance).toNat = d := by simpa using first
      have range := code_of_isLower_ofNat small
      have outside := List.all_eq_true.mp single _ (List.mem_of_find?_eq_some found)
      have within := List.find?_some found
      simp only [Stride.holds, Bool.and_eq_true, Bool.or_eq_true, decide_eq_true_eq] at within outside
      omega
    case h_2 unlisted =>
      obtain rfl : c = d := by simpa using first
      obtain ⟨low, high⟩ := (isLower_iff_code c).mp small
      exact List.find?_eq_none.mp unlisted _ letters (by simp [Stride.holds, low, high, Nat.mod_one])

theorem startsBig_capitalized (word : List Char) : StartsBig (capitalized word) := by
  cases word with
  | nil => exact startsBig_nil
  | cons c rest =>
    rw [capitalized, StartsBig, List.head?_append_of_ne_nil _ (toUpper_ne_nil c)]
    exact startsBig_toUpper c

theorem startsBig_pascalCase (s : String) : StartsBig (pascalCase s).toList := by
  rw [pascalCase, String.toList_ofList]
  induction splitBy dividesWords s.toList with
  | nil => exact startsBig_nil
  | cons word words ih =>
    rw [List.flatMap_cons]
    exact startsBig_append (startsBig_capitalized word) ih

/-- What is tried on all codes of ASCII holds of its letters and digits. -/
theorem of_alphanumeric {p : Char → Bool} (all : ((List.range 128).all fun code => p (Char.ofNat code)) = true) {c : Char}
    (alphanumeric : isAsciiAlphanumeric c = true) : p c = true := by
  have code : c.toNat < 128 := by
    have := code_of_alphanumeric alphanumeric
    omega
  simpa [Char.ofNat_toNat] using List.all_eq_true.mp all c.toNat (List.mem_range.mpr code)

/-- The letters and digits of ASCII stay such in upper case. -/
theorem toUpper_of_alphanumeric {c : Char} (alphanumeric : isAsciiAlphanumeric c = true) :
    (toUpper c).all isAsciiAlphanumeric = true := by
  have all : ((List.range 128).all fun code =>
      ! isAsciiAlphanumeric (Char.ofNat code) || (toUpper (Char.ofNat code)).all isAsciiAlphanumeric) = true := by decide +kernel
  have own := of_alphanumeric (p := fun c => ! isAsciiAlphanumeric c || (toUpper c).all isAsciiAlphanumeric) all alphanumeric
  simpa [alphanumeric] using own

/-- Words of letters and digits run together give letters and digits. -/
theorem pascalCase_alphanumeric {s : String} (plain : ∀ c ∈ s.toList, dividesWords c = false → isAsciiAlphanumeric c = true) :
    ∀ c ∈ (pascalCase s).toList, isAsciiAlphanumeric c = true := by
  rw [pascalCase, String.toList_ofList, List.forall_mem_flatMap]
  intro word member
  have letters (c : Char) (inside : c ∈ word) : isAsciiAlphanumeric c = true := by
    obtain ⟨listed, uncut⟩ := mem_of_mem_splitBy member c inside
    exact plain c listed uncut
  cases word with
  | nil => exact List.forall_mem_nil _
  | cons c rest =>
    rw [List.forall_mem_cons] at letters
    exact List.forall_mem_append.mpr ⟨List.all_eq_true.mp (toUpper_of_alphanumeric letters.1), letters.2⟩

end Text

namespace Rust

/-! ### Legal identifiers -/

/-- Whether a character may stand in an identifier of ASCII characters. -/
def isNameChar (c : Char) : Bool := Text.isAsciiAlphanumeric c || c == '_'

/-- An identifier of ASCII characters that is no keyword and not the underscore alone. -/
structure IsIdentifier (name : String) : Prop where
  nonempty : name ≠ ""
  named : name ≠ "_"
  chars : name.toList.all isNameChar = true
  start : startsWithDigit name = false
  free : isKeyword name = false

instance (name : String) : Decidable (IsIdentifier name) :=
  decidable_of_iff
    (name ≠ "" ∧ name ≠ "_" ∧ name.toList.all isNameChar = true ∧ startsWithDigit name = false ∧ isKeyword name = false)
    ⟨fun ⟨nonempty, named, chars, start, free⟩ => ⟨nonempty, named, chars, start, free⟩,
      fun ⟨nonempty, named, chars, start, free⟩ => ⟨nonempty, named, chars, start, free⟩⟩

/-- A name that a field may have: an identifier, or a keyword that is written as a raw identifier. -/
def IsFieldIdentifier (name : String) : Prop :=
  IsIdentifier name ∨ ∃ keyword ∈ keywords, keyword ∉ neverRaw ∧ name = "r#" ++ keyword

instance (name : String) : Decidable (IsFieldIdentifier name) :=
  inferInstanceAs (Decidable (IsIdentifier name ∨ ∃ keyword ∈ keywords, keyword ∉ neverRaw ∧ name = "r#" ++ keyword))

/-! ### Names of declarations -/

/-- An identifier that begins with a capital. -/
def IsCapitalized (name : String) : Prop := IsIdentifier name ∧ ∃ c ∈ name.toList.head?, c.isUpper = true

/-- Only one keyword begins with a capital. -/
theorem isIdentifier_of_capital {name : String} {c : Char} (first : name.toList.head? = some c) (upper : c.isUpper = true)
    (chars : name.toList.all isNameChar = true) (other : name ≠ "Self") : IsIdentifier name where
  nonempty := by
    rintro rfl
    cases first
  named := by
    rintro rfl
    cases first
    exact absurd upper (by decide)
  chars := chars
  start := by
    have range := (Text.isUpper_iff_code c).mp upper
    have noDigit : c.isDigit = false := by
      rw [← Bool.not_eq_true, Char.isDigit_iff_toNat]
      exact fun digit => absurd (Nat.le_trans range.1 digit.2) (by decide)
    rw [startsWithDigit, first, Option.any_some, noDigit]
  free := by
    have small : (keywords.all fun word => word == "Self" || ! word.toList.head?.any Char.isUpper) = true := by decide
    rw [← Bool.not_eq_true]
    intro keyword
    have listed := List.all_eq_true.mp small name (List.contains_iff_mem.mp keyword)
    simp [other, first, upper] at listed

/-- What is put after the identifier of a declaration and does not begin with a small letter may hold
    all characters of identifiers, since it completes no keyword. -/
theorem isCapitalized_append_iff {name more : String} (capitalized : IsCapitalized name) (big : Text.StartsBig more.toList) :
    IsCapitalized (name ++ more) ↔ more.toList.all isNameChar = true := by
  obtain ⟨identifier, c, first, upper⟩ := capitalized
  obtain ⟨rest, split⟩ := List.head?_eq_some_iff.mp first
  constructor
  · rintro ⟨⟨-, -, chars, -, -⟩, -⟩
    rw [String.toList_append, List.all_append, Bool.and_eq_true] at chars
    exact chars.2
  · intro chars
    have head : (name ++ more).toList.head? = some c := by rw [String.toList_append, split]; rfl
    have all : (name ++ more).toList.all isNameChar = true := by
      rw [String.toList_append, List.all_append, identifier.chars, chars]
      rfl
    refine ⟨isIdentifier_of_capital head upper all fun same => ?_, c, head, upper⟩
    have letters : c :: (rest ++ more.toList) = 'S' :: "elf".toList := by
      rw [← List.cons_append, ← split, ← String.toList_append, same]
      rfl
    cases written : more.toList with
    | nil =>
      have self : name = "Self" := by
        rw [← same, ← String.toList_inj, String.toList_append, written, List.append_nil]
      exact absurd identifier.free (by rw [self]; decide)
    | cons d later =>
      -- Where `more` ends the keyword, it begins inside "elf", with a small letter.
      rw [written] at letters big
      have inside : d ∈ "elf".toList := by
        rw [← (List.cons.inj letters).2]
        exact List.mem_append_right _ List.mem_cons_self
      have small : ("elf".toList.all Char.isLower) = true := by decide
      exact absurd (List.all_eq_true.mp small d inside) (by rw [big d rfl]; decide)

/-- Between what divides words, plain characters are letters and digits. -/
theorem plainChars_words (logical : String) :
    ∀ c ∈ (plainChars logical).toList, Text.dividesWords c = false → Text.isAsciiAlphanumeric c = true := by
  intro c member kept
  rw [plainChars, String.toList_map] at member
  obtain ⟨d, -, rfl⟩ := List.mem_map.mp member
  split at kept
  case isTrue alphanumeric => rwa [if_pos alphanumeric]
  case isFalse => exact absurd kept (by decide)

theorem pascalCase_plainChars (logical : String) :
    ∀ c ∈ (Text.pascalCase (plainChars logical)).toList, Text.isAsciiAlphanumeric c = true :=
  Text.pascalCase_alphanumeric (plainChars_words logical)

/-- A letter before a digit at the start makes letters and digits begin with a capital. -/
theorem exists_capital {words : String} (nonempty : words.isEmpty = false)
    (letters : ∀ c ∈ words.toList, Text.isAsciiAlphanumeric c = true) (big : Text.StartsBig words.toList) :
    ∃ c, (if startsWithDigit words then "R" ++ words else words).toList.head? = some c ∧ c.isUpper = true := by
  split
  case isTrue => exact ⟨'R', by rw [String.toList_append]; rfl, by decide⟩
  case isFalse noDigit =>
    cases written : words.toList with
    | nil => simp_all
    | cons c rest =>
      rw [written] at letters big
      have notDigit : c.isDigit = false := by simpa [startsWithDigit, written] using noDigit
      have notLower : c.isLower = false := big c rfl
      have either : ((c.isUpper || c.isLower) || c.isDigit) = true := letters c List.mem_cons_self
      exact ⟨c, rfl, by simpa [notDigit, notLower] using either⟩

theorem declarationName?_capitalized {logical name : String} (named : declarationName? logical = some name) :
    IsCapitalized name := by
  have letters := pascalCase_plainChars logical
  have big := Text.startsBig_pascalCase (plainChars logical)
  unfold declarationName? at named
  generalize Text.pascalCase (plainChars logical) = words at letters big named
  simp only [Option.ite_none_left_eq_some, Option.some.injEq, Bool.not_eq_true] at named
  obtain ⟨nonempty, rfl⟩ := named
  obtain ⟨c, first, upper⟩ := exists_capital nonempty letters big
  have chars : (if startsWithDigit words then "R" ++ words else words).toList.all isNameChar = true := by
    have plain : words.toList.all isNameChar = true :=
      List.all_eq_true.mpr fun c member => by rw [isNameChar, letters c member]; rfl
    split
    · rw [String.toList_append, List.all_append, plain]
      rfl
    · exact plain
  generalize (if startsWithDigit words then "R" ++ words else words) = name at first chars
  by_cases self : name = "Self"
  · subst self
    exact ⟨by decide, 'S', rfl, by decide⟩
  · have identifier := isIdentifier_of_capital first upper chars self
    rw [identifier.free]
    exact ⟨identifier, c, first, upper⟩

/-! ### Numbers -/

theorem toString_digits (n : Nat) : ∀ c ∈ (toString n).toList, c.isDigit = true := by
  rw [Nat.toString_eq_ofList_toDigits, String.toList_ofList]
  exact fun c member => Nat.isDigit_of_mem_toDigits (by decide) (by decide) member

/-- A declaration whose name is taken keeps a legal name under its number. -/
theorem isCapitalized_withNumber {name : String} (capitalized : IsCapitalized name) (n : Nat) :
    IsCapitalized (NameTable.withNumber name n) := by
  have big : Text.StartsBig (toString n).toList := by
    intro c first
    have digit := Char.isDigit_iff_toNat.mp (toString_digits n c (List.mem_of_mem_head? first))
    rw [← Bool.not_eq_true, Text.isLower_iff_code]
    exact fun small => absurd (Nat.le_trans small.1 digit.2) (by decide)
  refine (isCapitalized_append_iff capitalized big).mpr (List.all_eq_true.mpr fun c member => ?_)
  have alphanumeric : Text.isAsciiAlphanumeric c = true := Bool.or_eq_true_iff.mpr (.inr (toString_digits n c member))
  rw [isNameChar, alphanumeric, Bool.true_or]

/-! ### Names of fields -/

theorem plainChars_chars (s : String) : (plainChars s).toList.all isNameChar = true := by
  rw [plainChars, String.toList_map, List.all_map, List.all_eq_true]
  intro c _
  simp only [Function.comp_apply, isNameChar]
  split <;> simp_all

/-- Keywords are made harmless, and nothing but the underscore alone is illegal then. -/
theorem isFieldIdentifier_harmless_iff {name : String} (nonempty : name ≠ "") (chars : name.toList.all isNameChar = true)
    (start : startsWithDigit name = false) :
    IsFieldIdentifier (if neverRaw.contains name then name ++ "_" else if isKeyword name then "r#" ++ name else name) ↔
      name ≠ "_" := by
  have escaped : ∀ word ∈ neverRaw, IsIdentifier (word ++ "_") ∧ word ≠ "_" := by decide
  have apart : ∀ word ∈ keywords, word ≠ "_" := by decide
  split
  case isTrue never =>
    obtain ⟨legal, other⟩ := escaped name (List.contains_iff_mem.mp never)
    exact iff_of_true (.inl legal) other
  case isFalse mayBeRaw =>
    have mayBeRaw : name ∉ neverRaw := fun never => mayBeRaw (List.contains_iff_mem.mpr never)
    split
    case isTrue keyword =>
      have listed : name ∈ keywords := List.contains_iff_mem.mp keyword
      exact iff_of_true (.inr ⟨name, listed, mayBeRaw, rfl⟩) (apart name listed)
    case isFalse free =>
      constructor
      · rintro (identifier | ⟨keyword, -, -, rfl⟩)
        · exact identifier.named
        · rw [String.toList_append, List.all_append, Bool.and_eq_true] at chars
          exact absurd chars.1 (by decide)
      · exact fun named => .inl ⟨nonempty, named, chars, start, by simpa using free⟩

/-- A property name of which no letter or digit is left, and at most one other character. -/
def Nameless (property : String) : Prop :=
  (Text.snakeCase property).toList.length ≤ 1 ∧
    (Text.snakeCase property).toList.all (! Text.isAsciiAlphanumeric ·) = true

instance (property : String) : Decidable (Nameless property) := inferInstanceAs (Decidable (_ ∧ _))

/-- The name of a field is legal unless nothing is left for it to say. -/
theorem isFieldIdentifier_fieldName_iff (property : String) :
    IsFieldIdentifier (fieldName property) ↔ ¬ Nameless property := by
  have chars := plainChars_chars (Text.snakeCase property)
  have written : (plainChars (Text.snakeCase property)).toList =
      (Text.snakeCase property).toList.map fun c => if Text.isAsciiAlphanumeric c then c else '_' := String.toList_map
  unfold fieldName Nameless
  dsimp only
  generalize (Text.snakeCase property).toList = cs at written
  generalize plainChars (Text.snakeCase property) = name at chars written
  cases cs with
  | nil =>
    obtain rfl : name = "" := String.toList_inj.mp written
    decide
  | cons c rest =>
    have nonempty : name ≠ "" := by
      rintro rfl
      cases written
    have filled : name.isEmpty = false := by simpa using nonempty
    have first : startsWithDigit name = (if Text.isAsciiAlphanumeric c then c else '_').isDigit := by
      rw [startsWithDigit, written]
      rfl
    rw [filled, Bool.false_or]
    cases digit : startsWithDigit name with
    | true =>
      -- The underscore before a digit is never alone.
      have letter : Text.isAsciiAlphanumeric c = true := by
        by_contra other
        rw [digit, if_neg other] at first
        cases first
      have longer : "_" ++ name ≠ "_" := fun same => nonempty (String.append_eq_left_iff.mp same)
      rw [if_pos rfl, isFieldIdentifier_harmless_iff (by simp) (by simp [chars, isNameChar]) (by simp [startsWithDigit])]
      exact iff_of_true longer fun ⟨_, unlettered⟩ => by simp [letter] at unlettered
    | false =>
      rw [if_neg Bool.false_ne_true, isFieldIdentifier_harmless_iff nonempty chars digit]
      have underscore : name = "_" ↔ rest = [] ∧ Text.isAsciiAlphanumeric c = false := by
        rw [← String.toList_inj, written]
        cases letter : Text.isAsciiAlphanumeric c with
        | true =>
          have other : c ≠ '_' := by
            rintro rfl
            exact absurd letter (by decide)
          simp [letter, other]
        | false => simp [letter]
      refine not_congr (underscore.trans ?_)
      cases rest <;> simp

end Rust

end StackCompiler
