import Mathlib.Data.List.Forall2
import StackCompiler.Proofs.Rust.Literal
import StackCompiler.Rust.ExprText

/-!
The quotes in the source of an initialiser. Whatever way it is laid out, the texts that it holds
stand in it as quotes, in their order, between characters of code (`Woven`). So a reader of the
source finds these texts exactly if all the quotes are sound.
-/
namespace StackCompiler.Rust

/-! ### Texts with quotes -/

/-- A text in which `quotes` stand in this order, between characters with `p`. -/
inductive Woven (p : Char → Prop) : List Quote → List Char → Prop
  | nil : Woven p [] []
  | code {c : Char} {quotes : List Quote} {cs : List Char} : p c → Woven p quotes cs → Woven p quotes (c :: cs)
  | quote (q : Quote) {quotes : List Quote} {cs : List Char} : Woven p quotes cs → Woven p (q :: quotes) (q.text.toList ++ cs)

namespace Woven

variable {p : Char → Prop} {quotes more : List Quote} {cs ds : List Char}

theorem append (first : Woven p quotes cs) (second : Woven p more ds) : Woven p (quotes ++ more) (cs ++ ds) := by
  induction first with
  | nil => exact second
  | code holds _ ih => exact .code holds ih
  | quote q _ ih =>
    rw [List.append_assoc]
    exact .quote q ih

theorem ofCode (code : ∀ c ∈ cs, p c) : Woven p [] cs := by
  induction cs with
  | nil => exact .nil
  | cons c cs ih =>
    rw [List.forall_mem_cons] at code
    exact .code code.1 (ih code.2)

theorem single (q : Quote) : Woven p [q] q.text.toList := by
  have one := Woven.quote (p := p) q .nil
  rwa [List.append_nil] at one

theorem quotes_of_nil (woven : Woven p quotes []) : quotes = [] := by
  generalize none : ([] : List Char) = cs at woven
  cases woven with
  | nil => rfl
  | code => cases none
  | quote q =>
    rw [q.text_toList] at none
    cases none

theorem flatten {all : List (List Quote)} {texts : List (List Char)} (each : List.Forall₂ (Woven p) all texts) :
    Woven p all.flatten texts.flatten := by
  induction each with
  | nil => exact .nil
  | cons first _ ih => exact first.append ih

theorem intercalate {all : List (List Quote)} {texts : List (List Char)} {separator : List Char}
    (between : Woven p [] separator) (each : List.Forall₂ (Woven p) all texts) :
    Woven p all.flatten (separator.intercalate texts) := by
  induction each with
  | nil => exact .nil
  | @cons quotes text all texts first later ih =>
    cases texts with
    | nil =>
      cases later
      simpa using first
    | cons next texts =>
      rw [List.intercalate_cons_cons, List.flatten_cons]
      have start := first.append between
      rw [List.append_nil] at start
      exact start.append ih

/-- A text without its last character, which no quote ends with. -/
theorem dropEnd {c : Char} (woven : Woven p quotes (cs ++ [c])) (other : c ≠ '\x22') : Woven p quotes cs := by
  generalize whole : cs ++ [c] = text at woven
  induction woven generalizing cs with
  | nil => simp at whole
  | @code d quotes text holds rest ih =>
    cases cs with
    | nil =>
      obtain ⟨rfl, rfl⟩ : c = d ∧ [] = text := by simpa using whole
      obtain rfl := rest.quotes_of_nil
      exact .nil
    | cons e es =>
      obtain ⟨rfl, same⟩ : e = d ∧ es ++ [c] = text := by simpa using whole
      exact .code holds (ih same)
  | @quote q quotes text rest ih =>
    rcases text.eq_nil_or_concat with rfl | ⟨init, last, rfl⟩
    · rw [List.append_nil, q.text_toList, ← List.cons_append] at whole
      exact absurd (List.append_inj_right' whole rfl) (by simpa using other)
    · rw [List.concat_eq_append, ← List.append_assoc] at whole
      obtain ⟨rfl, same⟩ := List.append_inj' whole rfl
      obtain rfl : c = last := by simpa using same
      exact .quote q (ih List.concat_eq_append.symm)

end Woven

/-! ### Layout -/

section Layout

variable {p : Char → Prop} {quotes : List Quote} {cs : List Char}

theorem linesKept_append {word : List Char} (unbroken : Unbroken word) (some : word ≠ []) (cs : List Char) :
    Text.linesKept (word ++ cs) =
      match Text.linesKept cs with
      | [] => [word]
      | line :: lines => (word ++ line) :: lines := by
  induction word with
  | nil => exact absurd rfl some
  | cons c word ih =>
    obtain ⟨⟨feed, -⟩, unbroken⟩ := List.forall_mem_cons.mp (unbroken_iff.mp unbroken)
    rw [List.cons_append, Text.linesKept, if_neg feed]
    cases word with
    | nil =>
      rw [List.nil_append]
      cases Text.linesKept cs <;> rfl
    | cons d word =>
      rw [ih (unbroken_iff.mpr unbroken) (List.cons_ne_nil d word)]
      cases Text.linesKept cs <;> rfl

/-- Quotes are not cut by the ends of lines. -/
theorem Woven.linesKept (woven : Woven p quotes cs) :
    ∃ all, all.flatten = quotes ∧ List.Forall₂ (Woven p) all (Text.linesKept cs) := by
  induction woven with
  | nil => exact ⟨[], rfl, .nil⟩
  | @code c quotes cs holds _ ih =>
    obtain ⟨all, rfl, each⟩ := ih
    rw [Text.linesKept]
    by_cases feed : c = '\n'
    · rw [if_pos feed]
      exact ⟨[] :: all, rfl, .cons (.code holds .nil) each⟩
    · rw [if_neg feed]
      generalize Text.linesKept cs = lines at each
      cases each with
      | nil => exact ⟨[[]], rfl, .cons (.code holds .nil) .nil⟩
      | @cons first _ rest _ line lines => exact ⟨first :: rest, rfl, .cons (.code holds line) lines⟩
  | @quote q quotes cs _ ih =>
    obtain ⟨all, rfl, each⟩ := ih
    have some : q.text.toList ≠ [] := by simp [q.text_toList]
    rw [linesKept_append q.text_unbroken some]
    generalize Text.linesKept cs = lines at each
    cases each with
    | nil => exact ⟨[[q]], rfl, .cons (.single q) .nil⟩
    | @cons first _ rest _ line lines => exact ⟨(q :: first) :: rest, rfl, .cons (.quote q line) lines⟩

theorem Woven.unterminated (woven : Woven p quotes cs) : Woven p quotes (Text.unterminated cs) := by
  unfold Text.unterminated
  split
  case h_1 rest ended =>
    obtain rfl : cs = rest.reverse ++ ['\r'] ++ ['\n'] := by simpa using congrArg List.reverse ended
    exact (woven.dropEnd (by decide)).dropEnd (by decide)
  case h_2 rest _ ended =>
    obtain rfl : cs = rest.reverse ++ ['\n'] := by simpa using congrArg List.reverse ended
    exact woven.dropEnd (by decide)
  case h_3 => exact woven

end Layout

/-! ### Strings -/

/-- A string in which `quotes` stand in this order, between characters with `p`. -/
def Weaves (p : Char → Prop) (quotes : List Quote) (s : String) : Prop := Woven p quotes s.toList

namespace Weaves

variable {p : Char → Prop} {quotes more : List Quote} {s t : String} {all : List (List Quote)} {texts : List String}

theorem single (q : Quote) : Weaves p [q] q.text := Woven.single q

theorem append (first : Weaves p quotes s) (second : Weaves p more t) : Weaves p (quotes ++ more) (s ++ t) := by
  rw [Weaves, String.toList_append]
  exact Woven.append first second

theorem after (code : Weaves p [] s) (woven : Weaves p quotes t) : Weaves p quotes (s ++ t) := code.append woven

theorem before (woven : Weaves p quotes s) (code : Weaves p [] t) : Weaves p quotes (s ++ t) := by
  have both := woven.append code
  rwa [List.append_nil] at both

theorem join (each : List.Forall₂ (Weaves p) all texts) : Weaves p all.flatten (String.join texts) := by
  rw [Weaves, String.toList_join, List.flatMap_def]
  exact Woven.flatten (List.forall₂_map_right_iff.mpr each)

theorem intercalate (between : Weaves p [] s) (each : List.Forall₂ (Weaves p) all texts) :
    Weaves p all.flatten (s.intercalate texts) := by
  rw [Weaves, String.toList_intercalate]
  exact Woven.intercalate between (List.forall₂_map_right_iff.mpr each)

variable (plain : ∀ c, c ≠ '\x22' → p c)

include plain

theorem code (s : String) (code : '\x22' ∉ s.toList) : Weaves p [] s :=
  Woven.ofCode fun c member => plain c fun same => code (same ▸ member)

theorem indented (woven : Weaves p quotes s) : Weaves p quotes (Expr.indented s) := by
  obtain ⟨all, rfl, each⟩ := Woven.linesKept woven
  have lines : List.Forall₂ (Weaves p) all ((Text.lines s.toList).map fun line =>
      if line.isEmpty then "" else "    " ++ String.ofList line) := by
    rw [Text.lines, List.map_map, List.forall₂_map_right_iff]
    refine each.imp fun quotes line kept => ?_
    have ended := kept.unterminated
    rw [Function.comp_apply]
    generalize Text.unterminated line = line at ended ⊢
    cases line with
    | nil => exact ended
    | cons c line =>
      refine after (code plain "    " (by decide)) ?_
      rwa [Weaves, String.toList_ofList]
  exact intercalate (code plain "\n" (by decide)) lines

theorem wrapped {opening closing : String} (opened : Weaves p [] opening) (closed : Weaves p [] closing)
    (each : List.Forall₂ (Weaves p) all texts) : Weaves p all.flatten (Expr.wrapped opening texts closing) := by
  unfold Expr.wrapped
  dsimp only
  split
  · exact (after opened (intercalate (code plain ", " (by decide)) each)).before closed
  · have lines : List.Forall₂ (Weaves p) all (texts.map fun entry => Expr.indented (entry ++ ",") ++ "\n") := by
      refine List.forall₂_map_right_iff.mpr (each.imp fun quotes entry woven => ?_)
      exact (indented plain (woven.before (code plain "," (by decide)))).before (code plain "\n" (by decide))
    exact (after (opened.before (code plain "\n" (by decide))) (join lines)).before closed

theorem structText {type : String} (named : Weaves p [] type) (each : List.Forall₂ (Weaves p) all texts) :
    Weaves p all.flatten (Expr.structText type texts) := by
  have lines : List.Forall₂ (Weaves p) all (texts.map fun field => Expr.indented field ++ "\n") := by
    refine List.forall₂_map_right_iff.mpr (each.imp fun quotes field woven => ?_)
    exact (indented plain woven).before (code plain "\n" (by decide))
  exact (after (named.before (code plain " \x7b\n" (by decide))) (join lines)).before (code plain _ (by decide))

theorem converted (position : Position) (woven : Weaves p quotes s) : Weaves p quotes (Expr.converted position s) := by
  cases position with
  | field => exact woven.before (code plain ".into()" (by decide))
  | arg => exact woven

theorem unified (e : Expr) (woven : Weaves p quotes s) : Weaves p quotes (Expr.unified e s) := by
  have enclosed : Weaves p quotes ("Expr::from(" ++ s ++ ")") :=
    (after (code plain "Expr::from(" (by decide)) woven).before (code plain ")" (by decide))
  unfold Expr.unified
  split
  · exact enclosed
  · exact enclosed
  · exact enclosed
  · exact woven

end Weaves

/-! ### Numbers -/

section Numbers

variable {p : Char → Prop} (plain : ∀ c, c ≠ '\x22' → p c)

include plain

theorem digits_weave {digits : List Char} {n : Nat} (among : digits ⊆ Nat.toDigits 10 n) : Weaves p [] (String.ofList digits) := by
  refine Weaves.code plain _ fun member => ?_
  rw [String.toList_ofList] at member
  have digit := Nat.isDigit_of_mem_toDigits (by decide) (by decide) (among member)
  exact absurd digit (by decide)

theorem nat_weaves (n : Nat) : Weaves p [] (toString n) := by
  rw [Nat.toString_eq_ofList_toDigits]
  exact digits_weave plain (List.Subset.refl _)

theorem zeros_weave (n : Nat) : Weaves p [] (Decimal.zeros n) := by
  refine Weaves.code plain _ fun member => ?_
  rw [Decimal.zeros, String.toList_ofList] at member
  exact absurd (List.eq_of_mem_replicate member) (by decide)

theorem positional_weaves (d : Decimal) (fraction : Bool) : Weaves p [] (d.positional fraction) := by
  have digits := digits_weave plain (List.Subset.refl (Nat.toDigits 10 d.digits))
  unfold Decimal.positional
  dsimp only
  split
  · refine (digits.before (zeros_weave plain _)).before ?_
    cases fraction with
    | true => exact Weaves.code plain ".0" (by decide)
    | false => exact Weaves.code plain "" (by decide)
  · split
    · exact (Weaves.code plain "0." (by decide)).after digits
    · refine ((digits_weave plain (List.take_subset _ _)).before (Weaves.code plain "." (by decide))).before ?_
      exact digits_weave plain (List.drop_subset _ _)
    · exact ((Weaves.code plain "0." (by decide)).before (zeros_weave plain _)).after digits

theorem scientific_weaves (d : Decimal) {positive : String} (mark : Weaves p [] positive) :
    Weaves p [] (d.scientific positive) := by
  unfold Decimal.scientific
  dsimp only
  refine Weaves.before (Weaves.before (Weaves.before ?mantissa (Weaves.code plain "e" (by decide))) ?sign) (nat_weaves plain _)
  case mantissa =>
    split
    case h_1 first second rest listed =>
      have pointed : String.ofList (first :: '.' :: second :: rest) =
          String.ofList [first] ++ "." ++ String.ofList (second :: rest) := by
        rw [← String.toList_inj]
        simp
      rw [pointed]
      have among : [first] ⊆ Nat.toDigits 10 d.digits ∧ second :: rest ⊆ Nat.toDigits 10 d.digits := by
        rw [listed]
        simp
      exact ((digits_weave plain among.1).before (Weaves.code plain "." (by decide))).before (digits_weave plain among.2)
    case h_2 => exact digits_weave plain (List.Subset.refl _)
  case sign =>
    split
    · exact Weaves.code plain "-" (by decide)
    · exact mark

theorem number_weaves (n : Number) : Weaves p [] (n.text .json) := by
  cases n with
  | int i =>
    cases i with
    | ofNat n => exact nat_weaves plain n
    | negSucc n => exact (Weaves.code plain "-" (by decide)).after (nat_weaves plain (n + 1))
  | float x =>
    rw [Number.text, Binary64.text]
    have sign : Weaves p [] (if x.negative then "-" else "") := by
      split
      · exact Weaves.code plain "-" (by decide)
      · exact Weaves.code plain "" (by decide)
    have positive : Weaves p [] FloatStyle.json.positive := Weaves.code plain "+" (by decide)
    have decimal (d : Decimal) (isPositional : Bool) : Weaves p []
        (if isPositional then d.positional FloatStyle.json.fraction else d.scientific FloatStyle.json.positive) := by
      split
      · exact positional_weaves plain d _
      · exact scientific_weaves plain d positive
    split
    · exact Weaves.code plain "NaN" (by decide)
    · dsimp only
      split
      · exact sign.after (Weaves.code plain "inf" (by decide))
      · exact sign.after (decimal _ _)

end Numbers

/-! ### Documents -/

mutual

/-- The keys and strings of a document. -/
def documentQuotes : Json → List Quote
  | .str s => [.document s]
  | .arr items => itemQuotes items
  | .obj members => memberQuotes members
  | .null => []
  | .bool _ => []
  | .num _ => []

def itemQuotes : List Json → List Quote
  | [] => []
  | item :: rest => documentQuotes item ++ itemQuotes rest

def memberQuotes : List (String × Json) → List Quote
  | [] => []
  | (name, value) :: rest => .document name :: documentQuotes value ++ memberQuotes rest

end

section Documents

variable {p : Char → Prop}

mutual

theorem compact_weaves (plain : ∀ c, c ≠ '\x22' → p c) : (j : Json) → Weaves p (documentQuotes j) j.compact
  | .null => Weaves.code plain "null" (by decide)
  | .bool true => Weaves.code plain "true" (by decide)
  | .bool false => Weaves.code plain "false" (by decide)
  | .num n => number_weaves plain n
  | .str s => Weaves.single (.document s)
  | .arr items => by
    obtain ⟨all, same, each⟩ := compactItems_weave plain items
    rw [Json.compact, documentQuotes, ← same]
    exact ((Weaves.code plain "[" (by decide)).after (.intercalate (Weaves.code plain "," (by decide)) each)).before
      (Weaves.code plain "]" (by decide))
  | .obj members => by
    obtain ⟨all, same, each⟩ := compactMembers_weave plain members
    rw [Json.compact, documentQuotes, ← same]
    exact ((Weaves.code plain "\x7b" (by decide)).after (.intercalate (Weaves.code plain "," (by decide)) each)).before
      (Weaves.code plain "\x7d" (by decide))

theorem compactItems_weave (plain : ∀ c, c ≠ '\x22' → p c) : (items : List Json) →
    ∃ all, all.flatten = itemQuotes items ∧ List.Forall₂ (Weaves p) all (Json.compactItems items)
  | [] => ⟨[], rfl, .nil⟩
  | item :: rest => by
    obtain ⟨all, same, each⟩ := compactItems_weave plain rest
    exact ⟨documentQuotes item :: all, by rw [List.flatten_cons, same, itemQuotes], .cons (compact_weaves plain item) each⟩

theorem compactMembers_weave (plain : ∀ c, c ≠ '\x22' → p c) : (members : List (String × Json)) →
    ∃ all, all.flatten = memberQuotes members ∧ List.Forall₂ (Weaves p) all (Json.compactMembers members)
  | [] => ⟨[], rfl, .nil⟩
  | (name, value) :: rest => by
    obtain ⟨all, same, each⟩ := compactMembers_weave plain rest
    have member : Weaves p (.document name :: documentQuotes value) (Json.quoted name ++ ":" ++ value.compact) :=
      ((Weaves.single (.document name)).before (Weaves.code plain ":" (by decide))).append (compact_weaves plain value)
    exact ⟨_ :: all, by rw [List.flatten_cons, same, memberQuotes], .cons member each⟩

end

end Documents

/-! ### Initialisers -/

namespace Expr

mutual

/-- The texts that stand in the source of an initialiser as quotes. -/
def quotes : Expr → List Quote
  | .str s => [.source s]
  | .literal (.str s) => [.source s]
  | .literal scalar => documentQuotes scalar
  | .json document => documentQuotes document
  | .static _ => []
  | .ref _ (Option.some _) => []
  | .ref target none => [.source target]
  | .attr _ name (Option.some _) => [.source name]
  | .attr target name none => [.source target, .source name]
  | .call _ args => quotesOf args
  | .list items => quotesOf items
  | .pairs fields => pairQuotes fields
  | .some inner => inner.quotes
  | .struct _ fields => fieldQuotes fields

def quotesOf : List Expr → List Quote
  | [] => []
  | item :: rest => item.quotes ++ quotesOf rest

def pairQuotes : List (String × Expr) → List Quote
  | [] => []
  | (name, value) :: rest => .source name :: value.quotes ++ pairQuotes rest

def fieldQuotes : List (String × Expr) → List Quote
  | [] => []
  | (_, value) :: rest => value.quotes ++ fieldQuotes rest

end

mutual

/-- The identifiers, functions, types and fields of an initialiser. -/
def names : Expr → List String
  | .static ident => [ident]
  | .ref _ slot => slot.toList
  | .attr _ _ slot => slot.toList
  | .call func args => func :: namesOf args
  | .list items => namesOf items
  | .pairs fields => valueNames fields
  | .some inner => inner.names
  | .struct type fields => type :: memberNames fields ++ valueNames fields
  | .str _ => []
  | .literal _ => []
  | .json _ => []

def namesOf : List Expr → List String
  | [] => []
  | item :: rest => item.names ++ namesOf rest

def valueNames : List (String × Expr) → List String
  | [] => []
  | (_, value) :: rest => value.names ++ valueNames rest

end

variable {p : Char → Prop}

/-- The characters of names are characters of code. -/
def Coded (p : Char → Prop) (names : List String) : Prop := ∀ name ∈ names, Weaves p [] name

theorem literalText_weaves (plain : ∀ c, c ≠ '\x22' → p c) (scalar : Json) :
    Weaves p (Expr.literal scalar).quotes (literalText scalar) := by
  cases scalar with
  | str s => exact Weaves.single (.source s)
  | null => exact Weaves.code plain "json!(null)" (by decide)
  | bool b => exact compact_weaves plain (.bool b)
  | num n => exact compact_weaves plain (.num n)
  | arr items => exact compact_weaves plain (.arr items)
  | obj members => exact compact_weaves plain (.obj members)

mutual

theorem text_weaves (plain : ∀ c, c ≠ '\x22' → p c) (position : Position) :
    (e : Expr) → Coded p e.names → Weaves p e.quotes (e.text position)
  | .str s, _ => Weaves.single (.source s)
  | .literal scalar, _ => (literalText_weaves plain scalar).converted plain position
  | .json document, _ => by
    refine Weaves.converted plain position ?_
    exact ((Weaves.code plain "json!(" (by decide)).after (compact_weaves plain document)).before
      (Weaves.code plain ")" (by decide))
  | .static ident, coded => by
    have named : Weaves p [] ident := coded ident (List.mem_singleton.mpr rfl)
    exact Weaves.converted plain position (named.before (Weaves.code plain ".clone()" (by decide)))
  | .ref _ (Option.some ident), coded => by
    have named : Weaves p [] ident := coded ident (List.mem_singleton.mpr rfl)
    exact Weaves.converted plain position (named.before (Weaves.code plain ".to_ref()" (by decide)))
  | .ref target none, _ => by
    refine Weaves.converted plain position ?_
    exact ((Weaves.code plain "reference(" (by decide)).after (.single (.source target))).before
      (Weaves.code plain ")" (by decide))
  | .attr _ name (Option.some ident), coded => by
    have named : Weaves p [] ident := coded ident (List.mem_singleton.mpr rfl)
    refine Weaves.converted plain position ?_
    exact ((named.before (Weaves.code plain ".attr(" (by decide))).after (.single (.source name))).before
      (Weaves.code plain ")" (by decide))
  | .attr target name none, _ => by
    refine Weaves.converted plain position ?_
    have both : Weaves p [.source target, .source name] ("get_att(" ++ Text.literal target ++ ", " ++ Text.literal name) :=
      (((Weaves.code plain "get_att(" (by decide)).after (.single (.source target))).before
        (Weaves.code plain ", " (by decide))).append (.single (.source name))
    exact both.before (Weaves.code plain ")" (by decide))
  | .call func args, coded => by
    obtain ⟨named, inside⟩ := List.forall_mem_cons.mp coded
    obtain ⟨all, same, each⟩ := argTexts_weave plain args inside
    rw [quotes, ← same]
    exact Weaves.converted plain position
      (.wrapped plain (named.before (Weaves.code plain "(" (by decide))) (Weaves.code plain ")" (by decide)) each)
  | .list items, coded => by
    obtain ⟨all, same, each⟩ := itemTexts_weave plain position items coded
    rw [quotes, ← same]
    exact .wrapped plain (Weaves.code plain "vec![" (by decide)) (Weaves.code plain "]" (by decide)) each
  | .pairs fields, coded => by
    obtain ⟨all, same, each⟩ := pairTexts_weave plain fields coded
    rw [quotes, ← same]
    exact .wrapped plain (Weaves.code plain "[" (by decide)) (Weaves.code plain "]" (by decide)) each
  | .some inner, coded =>
    ((Weaves.code plain "Some(" (by decide)).after (text_weaves plain .field inner coded)).before
      (Weaves.code plain ")" (by decide))
  | .struct type fields, coded => by
    obtain ⟨⟨typed, named⟩, inside⟩ := (List.forall_mem_append.mp coded).imp_left List.forall_mem_cons.mp
    obtain ⟨all, same, each⟩ := fieldTexts_weave plain fields named inside
    rw [quotes, ← same]
    exact .structText plain typed each

theorem argTexts_weave (plain : ∀ c, c ≠ '\x22' → p c) : (args : List Expr) → Coded p (namesOf args) →
    ∃ all, all.flatten = quotesOf args ∧ List.Forall₂ (Weaves p) all (argTexts args)
  | [], _ => ⟨[], rfl, .nil⟩
  | arg :: rest, coded => by
    obtain ⟨own, others⟩ := List.forall_mem_append.mp coded
    obtain ⟨all, same, each⟩ := argTexts_weave plain rest others
    exact ⟨arg.quotes :: all, by rw [List.flatten_cons, same, quotesOf], .cons (text_weaves plain .arg arg own) each⟩

theorem itemTexts_weave (plain : ∀ c, c ≠ '\x22' → p c) (position : Position) :
    (items : List Expr) → Coded p (namesOf items) →
    ∃ all, all.flatten = quotesOf items ∧ List.Forall₂ (Weaves p) all (itemTexts position items)
  | [], _ => ⟨[], rfl, .nil⟩
  | item :: rest, coded => by
    obtain ⟨own, others⟩ := List.forall_mem_append.mp coded
    obtain ⟨all, same, each⟩ := itemTexts_weave plain position rest others
    refine ⟨item.quotes :: all, by rw [List.flatten_cons, same, quotesOf], .cons ?_ each⟩
    cases position with
    | field => exact text_weaves plain .field item own
    | arg => exact (text_weaves plain .arg item own).unified plain item

theorem pairTexts_weave (plain : ∀ c, c ≠ '\x22' → p c) : (fields : List (String × Expr)) → Coded p (valueNames fields) →
    ∃ all, all.flatten = pairQuotes fields ∧ List.Forall₂ (Weaves p) all (pairTexts fields)
  | [], _ => ⟨[], rfl, .nil⟩
  | (name, value) :: rest, coded => by
    obtain ⟨own, others⟩ := List.forall_mem_append.mp coded
    obtain ⟨all, same, each⟩ := pairTexts_weave plain rest others
    refine ⟨(.source name :: value.quotes) :: all, by rw [List.flatten_cons, same, pairQuotes], .cons ?_ each⟩
    have key : Weaves p [.source name] ("(" ++ Text.literal name ++ ", ") :=
      ((Weaves.code plain "(" (by decide)).after (.single (.source name))).before (Weaves.code plain ", " (by decide))
    exact (key.append ((text_weaves plain .arg value own).unified plain value)).before (Weaves.code plain ")" (by decide))

theorem fieldTexts_weave (plain : ∀ c, c ≠ '\x22' → p c) : (fields : List (String × Expr)) →
    Coded p (memberNames fields) → Coded p (valueNames fields) →
    ∃ all, all.flatten = fieldQuotes fields ∧ List.Forall₂ (Weaves p) all (fieldTexts fields)
  | [], _, _ => ⟨[], rfl, .nil⟩
  | (name, value) :: rest, coded, inside => by
    obtain ⟨named, fields⟩ := List.forall_mem_cons.mp coded
    obtain ⟨own, others⟩ := List.forall_mem_append.mp inside
    obtain ⟨all, same, each⟩ := fieldTexts_weave plain rest fields others
    refine ⟨value.quotes :: all, by rw [List.flatten_cons, same, fieldQuotes], .cons ?_ each⟩
    exact ((named.before (Weaves.code plain ": " (by decide))).after (text_weaves plain .field value own)).before
      (Weaves.code plain "," (by decide))

end

/-! ### Reading -/

/-- Where code holds no quotation mark, a reader finds the texts of the quotes, unless one is not sound. -/
theorem sourceLiterals_woven {quotes : List Quote} {cs : List Char} (woven : Woven (· ≠ '\x22') quotes cs) :
    sourceLiterals cs = if quotes.all Quote.isSound then Option.some (quotes.map (·.value.toList)) else none := by
  induction woven with
  | nil => rw [sourceLiterals]; rfl
  | code holds _ ih => rw [sourceLiterals_code holds, ih]
  | @quote q quotes cs _ ih =>
    rw [Quote.sourceLiterals_quote, ih, List.all_cons]
    cases q.isSound with
    | false => rfl
    | true => cases quotes.all Quote.isSound <;> rfl

/-- The texts of an initialiser stand in its source as quotes, in their order, and every other
    quotation mark is one of a name. A quote is a literal with that text as its value exactly if it is
    sound, which all are but those of documents with control characters. So a reader of the source
    finds the texts exactly if all quotes are sound. -/
theorem text_literals_iff_sound (e : Expr) (position : Position) :
    Weaves (fun c => c ≠ '\x22' ∨ ∃ name ∈ e.names, c ∈ name.toList) e.quotes (e.text position) ∧
      (∀ q ∈ e.quotes, literalValue? q.text = Option.some q.value ↔ q.isSound = true) ∧
      ((∀ name ∈ e.names, '\x22' ∉ name.toList) →
        (sourceLiterals (e.text position).toList = Option.some (e.quotes.map (·.value.toList)) ↔
          ∀ q ∈ e.quotes, q.isSound = true)) := by
  refine ⟨?woven, fun q _ => ?literal, fun plainNames => ?read⟩
  case woven =>
    refine text_weaves (fun c other => .inl other) position e fun name member => ?_
    exact Woven.ofCode fun c inside => .inr ⟨name, member, inside⟩
  case literal =>
    rw [q.literalValue?_text]
    cases q.isSound <;> simp
  case read =>
    have coded : Coded (· ≠ '\x22') e.names := fun name member =>
      Woven.ofCode fun c inside same => plainNames name member (same ▸ inside)
    rw [sourceLiterals_woven (text_weaves (fun _ => id) position e coded), ← List.all_eq_true]
    cases e.quotes.all Quote.isSound <;> simp

/-- A call with a text that needs escapes and a document whose key does. -/
def escapesExpr : Expr := .call "sub_with" [.str "\x00 \x22", .json (.obj [("\t", .str "\x5c")])]

theorem text_literals_escapes :
    escapesExpr.text .arg = "sub_with(\"\\0 \\\"\", json!(\x7b\"\\t\":\"\\\\\"\x7d))" ∧
      sourceLiterals (escapesExpr.text .arg).toList = Option.some [['\x00', ' ', '\x22'], ['\t'], ['\x5c']] := by
  obtain ⟨-, -, read⟩ := text_literals_iff_sound escapesExpr .arg
  exact ⟨by decide +kernel, (read (by decide)).mpr (by decide)⟩

/-- A backspace is one escape in a document and none in source. -/
theorem document_backspace :
    (Expr.json (.str "\x08")).text .arg = "json!(\"\\b\")" ∧ (Expr.json (.str "\x08")).quotes = [.document "\x08"] ∧
      (Quote.document "\x08").text = "\"\\b\"" ∧ literalValue? "\"\\b\"" = none := by
  decide

end Expr

end StackCompiler.Rust
