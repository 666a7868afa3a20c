import StackCompiler.Proofs.Rust.Operands

/-!
The layout of an initialiser and its tokens. Which lists and calls stand on one line is a parameter
here (`Expr.textBy`). Whatever it is, the tokens are those of the text on one line, with commas before
some of the closing brackets, as long as every name is read to its end outside of literals and
comments (`Expr.text_tokens_of_layout`).
-/
namespace StackCompiler.Rust

open Pending (InCode Ended Open)

/-! ### Trailing commas -/

/-- The second tokens are the first ones with a comma right before some of the closing brackets. -/
inductive Trailing : List Token → List Token → Prop
  | nil : Trailing [] []
  | same (token : Token) {flat tokens : List Token} : Trailing flat tokens → Trailing (token :: flat) (token :: tokens)
  | comma (c : Char) {flat tokens : List Token} :
    Trailing flat tokens → Trailing (.closing c :: flat) (comma :: .closing c :: tokens)

namespace Trailing

variable {flat tokens more rest : List Token}

theorem refl : (tokens : List Token) → Trailing tokens tokens
  | [] => .nil
  | token :: rest => .same token (refl rest)

theorem append (first : Trailing flat tokens) (second : Trailing more rest) : Trailing (flat ++ more) (tokens ++ rest) := by
  induction first with
  | nil => exact second
  | same token _ ih => exact .same token ih
  | comma c _ ih => exact .comma c ih

/-- Commas after the entries are those between them and one more. -/
theorem listed {flats all : List (List Token)} (each : List.Forall₂ Trailing flats all) (c : Char) :
    Trailing ([Rust.comma].intercalate flats ++ [.closing c]) (all.flatMap (· ++ [Rust.comma]) ++ [.closing c]) := by
  induction each with
  | nil => exact refl _
  | @cons flat tokens flats all first others ih =>
    rw [List.flatMap_cons, List.append_assoc, List.append_assoc]
    cases others with
    | nil =>
      rw [List.intercalate_singleton]
      exact first.append (.comma c .nil)
    | cons =>
      rw [List.intercalate_cons_cons, List.append_assoc, List.append_assoc]
      exact first.append (.same _ ih)

theorem between {flats all : List (List Token)} (each : List.Forall₂ Trailing flats all) :
    Trailing ([Rust.comma].intercalate flats) ([Rust.comma].intercalate all) := by
  induction each with
  | nil => exact .nil
  | @cons flat tokens flats all first others ih =>
    cases others with
    | nil =>
      rw [List.intercalate_singleton, List.intercalate_singleton]
      exact first
    | cons =>
      rw [List.intercalate_cons_cons, List.intercalate_cons_cons, List.append_assoc, List.append_assoc]
      exact first.append (.same _ ih)

theorem ended {flats all : List (List Token)} (each : List.Forall₂ Trailing flats all) :
    Trailing (flats.flatMap (· ++ [Rust.comma])) (all.flatMap (· ++ [Rust.comma])) := by
  induction each with
  | nil => exact .nil
  | cons first _ ih =>
    rw [List.flatMap_cons, List.flatMap_cons]
    exact (first.append (refl _)).append ih

/-- All other tokens are the same. -/
theorem filter_eq (trailing : Trailing flat tokens) : flat.filter (· ≠ Rust.comma) = tokens.filter (· ≠ Rust.comma) := by
  induction trailing with
  | nil => rfl
  | same token _ ih => rw [List.filter_cons, List.filter_cons, ih]
  | comma c _ ih =>
    have dropped : (decide (Rust.comma ≠ Rust.comma)) = false := by decide
    rw [List.filter_cons, List.filter_cons (x := Rust.comma), dropped, if_neg Bool.false_ne_true, List.filter_cons, ih]

end Trailing

/-! ### One text on one line, and laid out -/

/-- Two texts that are read as operands, the second with the tokens of the first and trailing commas. -/
def Agree (flat s : String) : Prop := ∃ code tokens, Operand flat code ∧ Operand s tokens ∧ Trailing code tokens

theorem Agree.of_leads {s : String} (leads : Leads IsCode s Ended) : Agree s s := by
  obtain ⟨tokens, operand⟩ := operand_of_leads leads
  exact ⟨tokens, tokens, operand, operand, .refl tokens⟩

theorem Agree.after {opening flat s : String} (opens : Leads IsCode opening IsCode) (agree : Agree flat s) :
    Agree (opening ++ flat) (opening ++ s) := by
  obtain ⟨before, opened⟩ := reads_of_leads opens
  obtain ⟨code, tokens, one, other, trailing⟩ := agree
  exact ⟨before ++ code, before ++ tokens, opened.before one, opened.before other, (Trailing.refl before).append trailing⟩

theorem Agree.closed {flat s closing : String} {c : Char} (agree : Agree flat s) (written : closing.toList = [c])
    (closes : charClass c = .closing) : Agree (flat ++ closing) (s ++ closing) := by
  obtain ⟨code, tokens, one, other, trailing⟩ := agree
  exact ⟨_, _, (one.closed written closes).operand, (other.closed written closes).operand, trailing.append (.refl _)⟩

/-- After an integer a point could still belong to the number, but not before a letter. -/
theorem run_method {p : Pending} (ended : Ended p) : p.run ['.', 'i'] = (p.tokens ++ [.mark '.' false], .word ['i']) := by
  have point : charClass '.' = .mark := by decide
  cases p with
  | code => decide
  | word read =>
    by_cases integer : Pending.isInteger read = true
    · have stepped : (Pending.word read).step '.' = ([], .point read) := by simp [Pending.step, Pending.wordStep, point, integer]
      have ends : (Pending.point read).step 'i' = ([.word read.reverse, .mark '.' false], .word ['i']) := by
        simp +decide [Pending.step, Pending.pointStep]
      rw [Pending.run_cons, stepped, Pending.run_cons, ends]
      rfl
    · have stepped : (Pending.word read).step '.' = ([.word read.reverse], .mark '.') := by
        simp [Pending.step, Pending.wordStep, point, integer, Pending.after, Pending.fresh]
      have ends : (Pending.mark '.').step 'i' = ([.mark '.' false], .word ['i']) := by decide
      rw [Pending.run_cons, stepped, Pending.run_cons, ends]
      rfl
  | _ => exact ended.elim

/-- The tokens of a conversion. -/
def intoTokens : List Token := [.mark '.' false, .word "into".toList, .opening '(', .closing ')']

theorem Operand.into {s : String} {tokens : List Token} (operand : Operand s tokens) :
    Reads (s ++ ".into()") (tokens ++ intoTokens) := by
  have unbroken : Unbroken ".into()".toList := by decide
  refine operand.through (fun p _ => Pending.safe_of_unbroken unbroken p) fun p ended => ?_
  have written : ".into()".toList = ['.', 'i'] ++ ['n', 't', 'o', '(', ')'] := rfl
  have later : (Pending.word ['i']).run ['n', 't', 'o', '(', ')'] = (intoTokens.tail, .code) := by decide
  rw [written, Pending.run_append, run_method ended, later, List.append_assoc]
  rfl

namespace Agree

variable {flat s : String} {flats texts : List String}

theorem converted (agree : Agree flat s) (position : Position) : Agree (Expr.converted position flat) (Expr.converted position s) := by
  cases position with
  | arg => exact agree
  | field =>
    obtain ⟨code, tokens, one, other, trailing⟩ := agree
    exact ⟨_, _, one.into.operand, other.into.operand, trailing.append (.refl _)⟩

theorem enclosed {opening : String} (opens : Leads IsCode opening IsCode) (agree : Agree flat s) :
    Agree (opening ++ flat ++ ")") (opening ++ s ++ ")") :=
  (agree.after opens).closed (c := ')') rfl (by decide)

theorem unified (agree : Agree flat s) (e : Expr) : Agree (Expr.unified e flat) (Expr.unified e s) := by
  have opens : Leads IsCode "Expr::from(" IsCode := .fresh (.closed (by decide) (by decide))
  cases e with
  | literal _ | str _ | static _ => exact enclosed opens agree
  | _ => exact agree

/-- The tokens of several pairs of texts. -/
theorem exists_tokens (each : List.Forall₂ Agree flats texts) : ∃ codes all,
    List.Forall₂ Operand flats codes ∧ List.Forall₂ Operand texts all ∧ List.Forall₂ Trailing codes all := by
  induction each with
  | nil => exact ⟨[], [], .nil, .nil, .nil⟩
  | cons agree _ ih =>
    obtain ⟨code, tokens, one, other, trailing⟩ := agree
    obtain ⟨codes, all, ones, others, trails⟩ := ih
    exact ⟨code :: codes, tokens :: all, .cons one ones, .cons other others, .cons trailing trails⟩

end Agree

/-! ### Whole texts -/

theorem Operand.tokens?_eq {s : String} {tokens : List Token} (operand : Operand s tokens) : tokens? s = some tokens := by
  show (if (Pending.code.run s.toList).2.isComplete then some ((Pending.code.run s.toList).1 ++ (Pending.code.run s.toList).2.tokens)
    else none) = some tokens
  rw [operand.ended.inCode.isComplete, if_pos rfl, operand.tokens]

theorem Operand.fed {s : String} {tokens : List Token} (operand : Operand s tokens) : Reads (s ++ "\n") tokens := by
  have written : "\n".toList = ['\n'] := rfl
  have blank : charClass '\n' = .blank := by decide
  rw [← List.append_nil tokens]
  refine operand.through (fun p ended => ?_) fun p ended => ?_
  · rw [written]
    exact ⟨by decide, fun _ => ended.inCode, trivial⟩
  · rw [written, Pending.run_cons, Pending.step_blank ended.inCode blank]
    rfl

/-- Code is indented with white space. -/
theorem margin_blank (unit : Indent) (level : Nat) : ∀ c ∈ (Fragment.margin unit.text level).toList, c = ' ' ∨ c = '\t' := by
  have once : unit.text.toList.all (fun c => c == ' ' || c == '\t') = true := by
    unfold Indent.text
    split <;> decide
  intro c member
  simpa using List.all_eq_true.mp once c (Fragment.margin_subset unit.text level member)

/-! ### Entries -/

section Entries

variable {opening closing : String} {texts : List String} {before : List Token} {all : List (List Token)} {c : Char}

theorem reads_inline (each : List.Forall₂ Operand texts all) (written : closing.toList = [c]) (closes : charClass c = .closing) :
    Reads (", ".intercalate texts ++ closing) ([comma].intercalate all ++ [.closing c]) := by
  induction each with
  | nil =>
    have none : Operand "" [] := Reads.empty.operand
    exact none.closed written closes
  | @cons s tokens texts all first others ih =>
    cases others with
    | nil =>
      rw [String.intercalate_singleton, List.intercalate_singleton]
      exact first.closed written closes
    | cons =>
      rw [String.intercalate_cons_cons, List.intercalate_cons_cons, String.append_assoc, List.append_assoc]
      exact (first.separated rfl (.inl rfl)).append ih

theorem reads_onLines (each : List.Forall₂ Operand texts all) :
    Reads (String.join (texts.map fun entry => Expr.indented (entry ++ ",") ++ "\n")) (all.flatMap (· ++ [comma])) := by
  induction each with
  | nil => exact .empty
  | cons first _ ih =>
    rw [List.map_cons, String.join_cons, List.flatMap_cons]
    exact first.onLines.append ih

end Entries

namespace Expr

/-! ### Layouts -/

/-- Whether entries between brackets are short enough for one line. -/
def isShort (inline : String) : Bool :=
  inline.utf8ByteSize ≤ inlineLimit && ! inline.toList.contains '\n'

/-- Every list and call stands on one line. -/
def oneLine (_ : String) : Bool := true

/-- Entries between brackets, on one line if they fit. -/
def wrappedBy (fits : String → Bool) (opening : String) (entries : List String) (closing : String) : String :=
  let inline := opening ++ ", ".intercalate entries ++ closing
  if fits inline then inline
  else
    opening ++ "\n" ++ String.join (entries.map fun entry => indented (entry ++ ",") ++ "\n") ++ closing

mutual

/-- The source of an initialiser, with the lists and calls that fit on one line each. -/
def textBy (fits : String → Bool) (position : Position) : Expr → String
  | .call func args => converted position (wrappedBy fits (func ++ "(") (argTextsBy fits args) ")")
  | .list items => wrappedBy fits "vec![" (itemTextsBy fits position items) "]"
  | .pairs fields => wrappedBy fits "[" (pairTextsBy fits fields) "]"
  | .some inner => "Some(" ++ inner.textBy fits .field ++ ")"
  | .struct type fields => structText type (fieldTextsBy fits fields)
  | .str s => text position (.str s)
  | .literal scalar => text position (.literal scalar)
  | .json document => text position (.json document)
  | .static ident => text position (.static ident)
  | .ref target slot => text position (.ref target slot)
  | .attr target name slot => text position (.attr target name slot)

def argTextsBy (fits : String → Bool) : List Expr → List String
  | [] => []
  | arg :: rest => arg.textBy fits .arg :: argTextsBy fits rest

def itemTextsBy (fits : String → Bool) (position : Position) : List Expr → List String
  | [] => []
  | item :: rest =>
    (match position with
      | .field => item.textBy fits .field
      | .arg => unified item (item.textBy fits .arg)) :: itemTextsBy fits position rest

def pairTextsBy (fits : String → Bool) : List (String × Expr) → List String
  | [] => []
  | (name, value) :: rest =>
    ("(" ++ Text.literal name ++ ", " ++ unified value (value.textBy fits .arg) ++ ")") :: pairTextsBy fits rest

def fieldTextsBy (fits : String → Bool) : List (String × Expr) → List String
  | [] => []
  | (name, value) :: rest => (name ++ ": " ++ value.textBy fits .field ++ ",") :: fieldTextsBy fits rest

end

mutual

/-- The layout by length is the one that initialisers have. -/
theorem textBy_isShort (position : Position) : (e : Expr) → e.textBy isShort position = e.text position
  | .call func args => by
    rw [textBy, text, argTextsBy_isShort args]
    rfl
  | .list items => by
    rw [textBy, text, itemTextsBy_isShort position items]
    rfl
  | .pairs fields => by
    rw [textBy, text, pairTextsBy_isShort fields]
    rfl
  | .some inner => by rw [textBy, text, textBy_isShort .field inner]
  | .struct type fields => by rw [textBy, text, fieldTextsBy_isShort fields]
  | .str _ | .literal _ | .json _ | .static _ | .ref _ _ | .attr _ _ _ => by rw [textBy]

theorem argTextsBy_isShort : (args : List Expr) → argTextsBy isShort args = argTexts args
  | [] => rfl
  | arg :: rest => by rw [argTextsBy, argTexts, textBy_isShort .arg arg, argTextsBy_isShort rest]

theorem itemTextsBy_isShort (position : Position) : (items : List Expr) → itemTextsBy isShort position items = itemTexts position items
  | [] => rfl
  | item :: rest => by
    have others := itemTextsBy_isShort position rest
    cases position with
    | field => rw [itemTextsBy, itemTexts, textBy_isShort .field item, others]
    | arg => rw [itemTextsBy, itemTexts, textBy_isShort .arg item, others]

theorem pairTextsBy_isShort : (fields : List (String × Expr)) → pairTextsBy isShort fields = pairTexts fields
  | [] => rfl
  | (name, value) :: rest => by rw [pairTextsBy, pairTexts, textBy_isShort .arg value, pairTextsBy_isShort rest]

theorem fieldTextsBy_isShort : (fields : List (String × Expr)) → fieldTextsBy isShort fields = fieldTexts fields
  | [] => rfl
  | (name, value) :: rest => by rw [fieldTextsBy, fieldTexts, textBy_isShort .field value, fieldTextsBy_isShort rest]

end

/-! ### Tokens of initialisers -/

/-- Read on its own, a name ends outside of literals and comments. -/
def EndsInCode (name : String) : Prop := InCode (Pending.code.run name.toList).2

instance : DecidablePred EndsInCode := fun name => inferInstanceAs (Decidable (InCode (Pending.code.run name.toList).2))

/-- Names on one line each, after which code goes on. -/
def Readable (names : List String) : Prop := ∀ name ∈ names, Unbroken name.toList ∧ EndsInCode name

section Leaves

variable {opening s name : String}

theorem leads_enclosed (opens : Leads IsCode opening IsCode) (inside : Leads Open s Ended) :
    Leads IsCode (opening ++ s ++ ")") Ended := by
  have closes : Leads InCode ")" IsCode := .closed (by decide) (by decide)
  exact (opens.append inside.operand).append closes.afterOperand.ends

/-- A text as the first of two operands. -/
theorem leads_first (opens : Leads IsCode opening IsCode) (first : String) :
    Leads IsCode (opening ++ Text.literal first ++ ", ") IsCode := by
  have divides : Leads InCode ", " IsCode := .closed (by decide) (by decide)
  exact (opens.append (leads_quote (.source first)).operand).append divides.afterOperand

/-- A name and code that ends it. -/
theorem leads_named (readable : Unbroken name.toList ∧ EndsInCode name) (chars : s.toList.all Leads.isTame = true)
    (last : s.toList.getLast?.any Leads.divides = true) : Leads IsCode (name ++ s) IsCode := by
  have named : Leads IsCode name InCode := by
    rintro p rfl
    exact ⟨Pending.safe_of_unbroken readable.1 _, readable.2⟩
  exact named.append (.closed chars last)

theorem leads_literalText (scalar : Json) : Leads IsCode (literalText scalar) Ended := by
  cases scalar with
  | str s => exact (leads_quote (.source s)).operand
  | null =>
    have closed : Leads InCode "json!(null)" IsCode := .closed (by decide) (by decide)
    exact closed.fresh.ends
  | bool b => exact (leads_compact (.bool b)).operand
  | num n => exact (leads_compact (.num n)).operand
  | arr items => exact (leads_compact (.arr items)).operand
  | obj members => exact (leads_compact (.obj members)).operand

end Leaves

end Expr

namespace Agree

variable {flats texts : List String}

theorem wrappedBy (fits : String → Bool) {opening closing : String} {c : Char} (opens : Leads IsCode opening IsCode)
    (written : closing.toList = [c]) (closes : charClass c = .closing) (each : List.Forall₂ Agree flats texts) :
    Agree (Expr.wrappedBy Expr.oneLine opening flats closing) (Expr.wrappedBy fits opening texts closing) := by
  obtain ⟨before, opened⟩ := reads_of_leads opens
  obtain ⟨codes, all, ones, others, trails⟩ := exists_tokens each
  have inline {texts : List String} {all : List (List Token)} (each : List.Forall₂ Operand texts all) :
      Reads (opening ++ ", ".intercalate texts ++ closing) (before ++ ([comma].intercalate all ++ [.closing c])) := by
    rw [String.append_assoc]
    exact opened.append (reads_inline each written closes)
  have flat : Expr.wrappedBy Expr.oneLine opening flats closing = opening ++ ", ".intercalate flats ++ closing := rfl
  rw [flat]
  by_cases short : fits (opening ++ ", ".intercalate texts ++ closing) = true
  · have same : Expr.wrappedBy fits opening texts closing = opening ++ ", ".intercalate texts ++ closing := if_pos short
    rw [same]
    exact ⟨_, _, (inline ones).operand, (inline others).operand, (Trailing.refl before).append ((Trailing.between trails).append (.refl _))⟩
  · have laid : Expr.wrappedBy fits opening texts closing =
        opening ++ "\n" ++ String.join (texts.map fun entry => Expr.indented (entry ++ ",") ++ "\n") ++ closing := if_neg short
    have lines := ((opened.append reads_feed).append (reads_onLines others)).operand.closed written closes
    rw [laid]
    refine ⟨_, _, (inline ones).operand, lines.operand, ?_⟩
    rw [List.append_nil, List.append_assoc]
    exact (Trailing.refl before).append (Trailing.listed trails c)

theorem structText {type : String} (opens : Leads IsCode (type ++ " \x7b\n") IsCode) (each : List.Forall₂ Agree flats texts) :
    Agree (Expr.structText type (flats.map (· ++ ","))) (Expr.structText type (texts.map (· ++ ","))) := by
  obtain ⟨before, opened⟩ := reads_of_leads opens
  obtain ⟨after, closed⟩ := reads_of_leads (s := "    ..Default::default()\n\x7d") (.fresh (.closed (by decide) (by decide)))
  obtain ⟨codes, all, ones, others, trails⟩ := exists_tokens each
  have written {texts : List String} {all : List (List Token)} (each : List.Forall₂ Operand texts all) :
      Operand (Expr.structText type (texts.map (· ++ ","))) (before ++ all.flatMap (· ++ [comma]) ++ after) := by
    rw [Expr.structText, List.map_map]
    exact ((opened.append (reads_onLines each)).append closed).operand
  exact ⟨_, _, written ones, written others, ((Trailing.refl before).append (.ended trails)).append (.refl after)⟩

end Agree

namespace Expr

mutual

/-- On one line and laid out, an initialiser has the same tokens but for trailing commas. -/
theorem textBy_agree (fits : String → Bool) (position : Position) :
    (e : Expr) → Readable e.names → Agree (e.textBy oneLine position) (e.textBy fits position)
  | .str s, _ => .of_leads (leads_quote (.source s)).operand
  | .literal scalar, _ => (Agree.of_leads (leads_literalText scalar)).converted position
  | .json document, _ => by
    have opens : Leads IsCode "json!(" IsCode := .fresh (.closed (by decide) (by decide))
    exact (Agree.of_leads (leads_enclosed opens (leads_compact document))).converted position
  | .static ident, readable => by
    have named := leads_named (s := ".clone()") (readable ident (List.mem_singleton.mpr rfl)) (by decide) (by decide)
    exact (Agree.of_leads named.ends).converted position
  | .ref _ (Option.some ident), readable => by
    have named := leads_named (s := ".to_ref()") (readable ident (List.mem_singleton.mpr rfl)) (by decide) (by decide)
    exact (Agree.of_leads named.ends).converted position
  | .ref target none, _ => by
    have opens : Leads IsCode "reference(" IsCode := .fresh (.closed (by decide) (by decide))
    exact (Agree.of_leads (leads_enclosed opens (leads_quote (.source target)))).converted position
  | .attr _ name (Option.some ident), readable => by
    have opens := leads_named (s := ".attr(") (readable ident (List.mem_singleton.mpr rfl)) (by decide) (by decide)
    exact (Agree.of_leads (leads_enclosed opens (leads_quote (.source name)))).converted position
  | .attr target name none, _ => by
    have opens : Leads IsCode "get_att(" IsCode := .fresh (.closed (by decide) (by decide))
    exact (Agree.of_leads (leads_enclosed (leads_first opens target) (leads_quote (.source name)))).converted position
  | .call func args, readable => by
    obtain ⟨named, inside⟩ := List.forall_mem_cons.mp readable
    have opens := leads_named (s := "(") named (by decide) (by decide)
    exact (Agree.wrappedBy fits opens (c := ')') rfl (by decide) (argTextsBy_agree fits args inside)).converted position
  | .list items, readable => by
    have opens : Leads IsCode "vec![" IsCode := .fresh (.closed (by decide) (by decide))
    exact .wrappedBy fits opens (c := ']') rfl (by decide) (itemTextsBy_agree fits position items readable)
  | .pairs fields, readable => by
    have opens : Leads IsCode "[" IsCode := .fresh (.closed (by decide) (by decide))
    exact .wrappedBy fits opens (c := ']') rfl (by decide) (pairTextsBy_agree fits fields readable)
  | .some inner, readable => by
    have opens : Leads IsCode "Some(" IsCode := .fresh (.closed (by decide) (by decide))
    exact .enclosed opens (textBy_agree fits .field inner readable)
  | .struct type fields, readable => by
    obtain ⟨⟨typed, named⟩, inside⟩ := (List.forall_mem_append.mp readable).imp_left List.forall_mem_cons.mp
    obtain ⟨flats, texts, one, other, each⟩ := fieldTextsBy_agree fits fields named inside
    have opens := leads_named (s := " \x7b\n") typed (by decide) (by decide)
    rw [textBy, textBy, one, other]
    exact .structText opens each

theorem argTextsBy_agree (fits : String → Bool) : (args : List Expr) → Readable (namesOf args) →
    List.Forall₂ Agree (argTextsBy oneLine args) (argTextsBy fits args)
  | [], _ => .nil
  | arg :: rest, readable => by
    obtain ⟨own, others⟩ := List.forall_mem_append.mp readable
    exact .cons (textBy_agree fits .arg arg own) (argTextsBy_agree fits rest others)

theorem itemTextsBy_agree (fits : String → Bool) (position : Position) : (items : List Expr) → Readable (namesOf items) →
    List.Forall₂ Agree (itemTextsBy oneLine position items) (itemTextsBy fits position items)
  | [], _ => .nil
  | item :: rest, readable => by
    obtain ⟨own, others⟩ := List.forall_mem_append.mp readable
    refine .cons ?_ (itemTextsBy_agree fits position rest others)
    cases position with
    | field => exact textBy_agree fits .field item own
    | arg => exact (textBy_agree fits .arg item own).unified item

theorem pairTextsBy_agree (fits : String → Bool) : (fields : List (String × Expr)) → Readable (valueNames fields) →
    List.Forall₂ Agree (pairTextsBy oneLine fields) (pairTextsBy fits fields)
  | [], _ => .nil
  | (name, value) :: rest, readable => by
    obtain ⟨own, others⟩ := List.forall_mem_append.mp readable
    refine .cons ?_ (pairTextsBy_agree fits rest others)
    have opens : Leads IsCode "(" IsCode := .fresh (.closed (by decide) (by decide))
    exact .enclosed (leads_first opens name) ((textBy_agree fits .arg value own).unified value)

/-- The texts of fields end with commas. -/
theorem fieldTextsBy_agree (fits : String → Bool) : (fields : List (String × Expr)) →
    Readable (memberNames fields) → Readable (valueNames fields) →
    ∃ flats texts, fieldTextsBy oneLine fields = flats.map (· ++ ",") ∧ fieldTextsBy fits fields = texts.map (· ++ ",") ∧
      List.Forall₂ Agree flats texts
  | [], _, _ => ⟨[], [], rfl, rfl, .nil⟩
  | (name, value) :: rest, readable, inside => by
    obtain ⟨named, fields⟩ := List.forall_mem_cons.mp readable
    obtain ⟨own, others⟩ := List.forall_mem_append.mp inside
    obtain ⟨flats, texts, one, other, each⟩ := fieldTextsBy_agree fits rest fields others
    have opens := leads_named (s := ": ") named (by decide) (by decide)
    refine ⟨_ :: flats, _ :: texts, ?_, ?_, .cons ((textBy_agree fits .field value own).after opens) each⟩
    · rw [fieldTextsBy, one, List.map_cons]
    · rw [fieldTextsBy, other, List.map_cons]

end

/-- The layout of an initialiser never changes its code. Whatever fits on one line, its tokens are
    those of the source on one line, with commas right before some of the closing brackets; and they are the
    same where the lines of the source are written at an indentation. Literals are tokens as a whole. -/
theorem text_tokens_of_layout (e : Expr) (position : Position) (unbroken : ∀ name ∈ e.names, Unbroken name.toList)
    (ends : ∀ name ∈ e.names, EndsInCode name) :
    ∃ flat, tokens? (e.textBy oneLine position) = Option.some flat ∧
      (∀ fits, ∃ tokens, tokens? (e.textBy fits position) = Option.some tokens ∧ Trailing flat tokens) ∧
      ∃ tokens, tokens? (e.text position) = Option.some tokens ∧ Trailing flat tokens ∧
        ∀ (unit : Indent) (level : Nat), tokens? ((Fragment.line (e.text position)).text unit.text level) = Option.some tokens := by
  have readable : Readable e.names := fun name member => ⟨unbroken name member, ends name member⟩
  obtain ⟨flat, tokens, one, other, trailing⟩ := textBy_agree isShort position e readable
  rw [textBy_isShort] at other
  refine ⟨flat, one.tokens?_eq, fun fits => ?_, tokens, other.tokens?_eq, trailing, fun unit level => ?_⟩
  · obtain ⟨code, tokens, again, laid, trailing⟩ := textBy_agree fits position e readable
    obtain rfl : flat = code := one.tokens.symm.trans again.tokens
    exact ⟨tokens, laid.tokens?_eq, trailing⟩
  · exact (other.fed.lineText (margin_blank unit level)).operand.tokens?_eq

/-- A call with a text that reads like a comment and a line end, and with a struct as its last argument. -/
def nestedExpr : Expr := .call "sub_with" [.str "//\n)", .struct "Tag" [("key", .literal (.str ",]"))]]

theorem text_tokens_of_nested :
    nestedExpr.text .arg =
        "sub_with(\n    \"//\\n)\",\n    Tag \x7b\n        key: \",]\".into(),\n        ..Default::default()\n    \x7d,\n)" ∧
      ∃ flat tokens, tokens? (nestedExpr.textBy oneLine .arg) = Option.some flat ∧
        tokens? (nestedExpr.text .arg) = Option.some tokens ∧ Trailing flat tokens ∧ Token.word "\"//\\n)\"".toList ∈ tokens ∧
        tokens? ((Fragment.line (nestedExpr.text .arg)).text "\t" 2) = Option.some tokens := by
  obtain ⟨flat, one, -, tokens, laid, trailing, indented⟩ :=
    text_tokens_of_layout nestedExpr .arg (by decide) (by decide)
  refine ⟨by decide +kernel, flat, tokens, one, laid, trailing, ?_, indented .tab 2⟩
  have read : (tokens? (nestedExpr.text .arg)).any (·.contains (.word "\"//\\n)\"".toList)) = true := by decide +kernel
  rw [laid] at read
  simpa using read

/-- A name that begins a comment, which on one line holds all that follows. -/
def commentExpr : Expr := .list [.static "a//", .static (String.join (List.replicate 4 "long_name_"))]

theorem comment_of_layout :
    (∀ name ∈ commentExpr.names, Unbroken name.toList) ∧ ¬ EndsInCode "a//" ∧
      ∃ flat tokens, tokens? (commentExpr.textBy oneLine .field) = Option.some flat ∧
        tokens? (commentExpr.text .field) = Option.some tokens ∧ ¬ Trailing flat tokens := by
  have oneTokens : tokens? (commentExpr.textBy oneLine .field) =
      Option.some [.word "vec".toList, .mark '!' false, .opening '[', .word "a".toList] := by decide +kernel
  have laidTokens : tokens? (commentExpr.text .field) = Option.some ([.word "vec".toList, .mark '!' false, .opening '[', .word "a".toList,
      .word (String.join (List.replicate 4 "long_name_")).toList, .mark '.' false, .word "clone".toList, .opening '(', .closing ')']
      ++ intoTokens ++ [comma, .closing ']']) := by decide +kernel
  refine ⟨by decide, by decide, _, _, oneTokens, laidTokens, fun trailing => ?_⟩
  exact absurd trailing.filter_eq (by decide +kernel)

end Expr

end StackCompiler.Rust
