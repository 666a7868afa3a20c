import StackCompiler.Import.Identifiers
import StackCompiler.Proofs.Rust.LegalName

/-!
What entries are called in source. The name of an entry has the letters and digits of its logical
name (`Spelled`) and begins with a capital, so that neither what its kind adds nor a number
completes a keyword.
-/
namespace StackCompiler

namespace Text

theorem flatten_splitBy (cut : Char → Bool) (cs : List Char) : (splitBy cut cs).flatten = cs.filter (! cut ·) := by
  induction cs with
  | nil => rfl
  | cons c rest ih =>
    rw [splitBy]
    by_cases cuts : cut c = true
    · simp [cuts, ih]
    · rw [if_neg cuts]
      cases parts : splitBy cut rest with
      | nil => exact absurd parts (splitBy_ne_nil cut rest)
      | cons part others =>
        rw [parts] at ih
        simp [cuts, ← ih]

/-- Lower case undoes upper case on the letters of ASCII. -/
theorem toUpper_lower {c : Char} (alphanumeric : isAsciiAlphanumeric c = true) :
    (toUpper c).map Char.toLower = [c.toLower] := by
  have all : ((List.range 128).all fun code =>
      (toUpper (Char.ofNat code)).map Char.toLower == [(Char.ofNat code).toLower]) = true := by decide +kernel
  exact beq_iff_eq.mp (of_alphanumeric (p := fun c => (toUpper c).map Char.toLower == [c.toLower]) all alphanumeric)

/-- Words that run together keep their letters. -/
theorem pascalCase_lower {s : String} (plain : ∀ c ∈ s.toList, dividesWords c = false → isAsciiAlphanumeric c = true) :
    (pascalCase s).toList.map Char.toLower = (s.toList.filter (! dividesWords ·)).map Char.toLower := by
  rw [pascalCase, String.toList_ofList, ← flatten_splitBy]
  have letters : ∀ word ∈ splitBy dividesWords s.toList, ∀ c ∈ word, isAsciiAlphanumeric c = true := by
    intro word member c inside
    obtain ⟨listed, uncut⟩ := mem_of_mem_splitBy member c inside
    exact plain c listed uncut
  generalize splitBy dividesWords s.toList = words at letters
  induction words with
  | nil => rfl
  | cons word words ih =>
    rw [List.forall_mem_cons] at letters
    rw [List.flatMap_cons, List.flatten_cons, List.map_append, List.map_append, ih letters.2]
    cases word with
    | nil => rfl
    | cons c rest => rw [capitalized, List.map_append, toUpper_lower (letters.1 c List.mem_cons_self)]; rfl

end Text

namespace Rust

/-- `words` are the letters and digits of `logical`, in whatever case. -/
def SameLetters (logical words : String) : Prop :=
  words.toList.map Char.toLower = (logical.toList.filter Text.isAsciiAlphanumeric).map Char.toLower

/-- `name` is the letters and digits of `logical`. A letter is put before a digit at the start, and an
    underscore after a keyword. -/
inductive Spelled (logical : String) : (name : String) → Prop
  | plain {words : String} (letters : SameLetters logical words) (undigited : startsWithDigit words = false)
      (free : isKeyword words = false) : Spelled logical words
  | digit {words : String} (letters : SameLetters logical words) (digit : startsWithDigit words = true) :
      Spelled logical ("R" ++ words)
  | keyword {words : String} (letters : SameLetters logical words) (keyword : isKeyword words = true) :
      Spelled logical (words ++ "_")

theorem sameLetters_pascalCase (logical : String) : SameLetters logical (Text.pascalCase (plainChars logical)) := by
  have kept : (! Text.dividesWords ·) ∘ (fun c => if Text.isAsciiAlphanumeric c then c else '_') =
      Text.isAsciiAlphanumeric := by
    funext c
    rw [Function.comp_apply, dividesWords_plain, Bool.not_not]
  rw [SameLetters, Text.pascalCase_lower (plainChars_words logical), plainChars, String.toList_map, List.filter_map, kept,
    List.map_map]
  refine List.map_congr_left fun c member => ?_
  rw [Function.comp_apply, if_pos (List.mem_filter.mp member).2]

theorem declarationName?_spelled {logical name : String} (named : declarationName? logical = some name) :
    Spelled logical name := by
  have letters := sameLetters_pascalCase logical
  unfold declarationName? at named
  generalize Text.pascalCase (plainChars logical) = words at letters named
  simp only [Option.ite_none_left_eq_some, Option.some.injEq] at named
  obtain ⟨-, rfl⟩ := named
  cases digit : startsWithDigit words with
  | true =>
    have others : (keywords.all fun word => word.toList.head? != some 'R') = true := by decide
    have free : isKeyword ("R" ++ words) = false := by
      rw [← Bool.not_eq_true, isKeyword, List.contains_iff_mem]
      intro listed
      simpa using List.all_eq_true.mp others _ listed
    rw [if_pos rfl, free]
    exact .digit letters digit
  | false =>
    rw [if_neg Bool.false_ne_true]
    cases keyword : isKeyword words with
    | true => exact .keyword letters keyword
    | false => exact .plain letters digit keyword

end Rust

namespace Import

open Rust (IsCapitalized NameTable)

theorem isCapitalized_suffixed {name : String} (capitalized : IsCapitalized name) (kind : EntryKind) :
    IsCapitalized (name ++ kind.suffix) := by
  have big : Text.StartsBig kind.suffix.toList := by
    cases kind <;> exact fun c first => by cases first; decide
  exact (Rust.isCapitalized_append_iff capitalized big).mpr (by cases kind <;> decide)

/-- An entry has no name exactly if its logical name has no letter or digit of ASCII. Otherwise it is called
    by these, under a legal name that begins with a capital, and the name stays legal with what the
    entry's kind adds, with a number, and with both. -/
theorem declarationName?_legal (logical : String) :
    (Rust.declarationName? logical = none ↔ ∀ c ∈ logical.toList, Text.isAsciiAlphanumeric c = false) ∧
      ∀ name, Rust.declarationName? logical = some name →
        Rust.Spelled logical name ∧ IsCapitalized name ∧
          ∀ (kind : EntryKind) (n : Nat), IsCapitalized (name ++ kind.suffix) ∧
            IsCapitalized (NameTable.withNumber name n) ∧ IsCapitalized (NameTable.withNumber (name ++ kind.suffix) n) := by
  refine ⟨Rust.declarationName?_eq_none_iff logical, fun name named => ?_⟩
  have capitalized := Rust.declarationName?_capitalized named
  refine ⟨Rust.declarationName?_spelled named, capitalized, fun kind n => ?_⟩
  have suffixed := isCapitalized_suffixed capitalized kind
  exact ⟨suffixed, Rust.isCapitalized_withNumber capitalized n, Rust.isCapitalized_withNumber suffixed n⟩

end Import

end StackCompiler
