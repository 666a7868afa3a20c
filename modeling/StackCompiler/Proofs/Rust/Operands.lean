import StackCompiler.Proofs.Numeral
import StackCompiler.Proofs.Rust.ExprText
import StackCompiler.Proofs.Rust.SourceLines
import StackCompiler.Proofs.Rust.Tokens

/-!
Texts that are read as whole operands. Quotes, numbers and documents are such texts, wherever an operand
may begin (`leads_compact`). What white space stands before the lines of an operand does not
matter, since no line of it ends inside a literal (`Reads.lineText`).
-/
namespace StackCompiler.Rust

open Pending (InCode Ended Open)

/-! ### Quotes -/

/-- Whether an escape is open after a part of a literal, unless a quote in it ends the literal. -/
def inLiteral : Bool → List Char → Option Bool
  | escaped, [] => some escaped
  | true, _ :: rest => inLiteral false rest
  | false, c :: rest => if c = '\x22' then none else inLiteral (c == '\x5c') rest

theorem run_string {escaped last : Bool} {cs : List Char} (inside : inLiteral escaped cs = some last) (read : List Char) :
    (Pending.string read escaped).run cs = ([], .string (cs.reverse ++ read) last) := by
  induction cs generalizing escaped read with
  | nil =>
    obtain rfl : escaped = last := by simpa [inLiteral] using inside
    rfl
  | cons c cs ih =>
    rw [Pending.run_cons]
    cases escaped with
    | true =>
      rw [inLiteral] at inside
      simp [Pending.step, ih inside]
    | false =>
      rw [inLiteral] at inside
      split at inside
      · cases inside
      · rename_i other
        simp [Pending.step, other, ih inside]

theorem inLiteral_append {escaped mid : Bool} {cs : List Char} (inside : inLiteral escaped cs = some mid) (ds : List Char) :
    inLiteral escaped (cs ++ ds) = inLiteral mid ds := by
  induction cs generalizing escaped with
  | nil =>
    obtain rfl : escaped = mid := by simpa [inLiteral] using inside
    rfl
  | cons c cs ih =>
    cases escaped with
    | true =>
      rw [inLiteral] at inside
      rw [List.cons_append, inLiteral, ih inside]
    | false =>
      rw [inLiteral] at inside
      split at inside
      · cases inside
      · rename_i other
        rw [List.cons_append, inLiteral, if_neg other, ih inside]

theorem inLiteral_plain {cs : List Char} (plain : ∀ c ∈ cs, c ≠ '\x22' ∧ c ≠ '\x5c') : inLiteral false cs = some false := by
  induction cs with
  | nil => rfl
  | cons c cs ih =>
    obtain ⟨⟨quote, backslash⟩, plain⟩ := List.forall_mem_cons.mp plain
    have unescaped : (c == '\x5c') = false := by simpa using backslash
    rw [inLiteral, if_neg quote, unescaped, ih plain]

theorem inLiteral_escape (letter : Char) (rest : List Char) :
    inLiteral false ('\x5c' :: letter :: rest) = inLiteral false rest := rfl

theorem inLiteral_literalChar (c : Char) : inLiteral false (Text.literalChar c).toList = some false := by
  by_cases simple : c ∈ '\x00' :: sharedEscapes
  · obtain ⟨letter, -, written, -⟩ := exists_simple_escape simple
    rw [written]
    rfl
  · rw [literalChar_of_not_mem simple]
    rw [List.mem_cons, not_or, not_mem_sharedEscapes] at simple
    obtain ⟨-, quote, backslash, -⟩ := simple
    split
    · exact inLiteral_plain (List.forall_mem_singleton.mpr ⟨quote, backslash⟩)
    · have digits : ∀ digit : Fin 16, Nat.digitChar digit ≠ '\x22' ∧ Nat.digitChar digit ≠ '\x5c' := by decide
      rw [inLiteral_escape]
      refine inLiteral_plain fun d member => ?_
      simp only [List.mem_cons, List.mem_append, List.not_mem_nil, or_false] at member
      rcases member with rfl | inside | rfl
      · decide
      · obtain ⟨digit, rfl⟩ := exists_digit_of_mem_toDigits inside
        exact digits digit
      · decide

theorem inLiteral_escaped (c : Char) : inLiteral false (Json.escaped c).toList = some false := by
  by_cases simple : c ∈ sharedEscapes
  · rw [escaped_shared simple]
    exact inLiteral_literalChar c
  · by_cases hidden : c < ' '
    · have all : ((List.range 32).all fun code =>
          inLiteral false (Json.escaped (Char.ofNat code)).toList == some false) = true := by decide
      have code : c.toNat < 32 := hidden
      have own := List.all_eq_true.mp all c.toNat (List.mem_range.mpr code)
      rwa [Char.ofNat_toNat, beq_iff_eq] at own
    · obtain ⟨quote, backslash, -⟩ := not_mem_sharedEscapes.mp simple
      rw [escaped_of_visible hidden simple]
      exact inLiteral_plain (List.forall_mem_singleton.mpr ⟨quote, backslash⟩)

theorem Quote.inLiteral_body (q : Quote) : inLiteral false (q.value.toList.flatMap q.write) = some false := by
  have each (c : Char) : inLiteral false (q.write c) = some false := by
    cases q with
    | source _ => exact inLiteral_literalChar c
    | document _ => exact inLiteral_escaped c
  induction q.value.toList with
  | nil => rfl
  | cons c cs ih => rw [List.flatMap_cons, inLiteral_append (each c), ih]

theorem leads_quote (q : Quote) : Leads Open q.text Ended := by
  intro p isOpen
  refine ⟨Pending.safe_of_unbroken q.text_unbroken p, ?_⟩
  rw [q.text_toList, Pending.run_cons, Pending.step_quote isOpen, Pending.run_append, run_string q.inLiteral_body]
  trivial

/-! ### Numbers -/

theorem isTame_of_isNumeralChar {c : Char} (numeral : IsNumeralChar c) : Leads.isTame c = true := by
  rcases numeral with digit | mark
  · have ret : c ≠ '\r' := by
      rintro rfl
      exact absurd digit (by decide)
    simp [Leads.isTame, ret, Pending.charClass_of_isDigit digit]
  · have all : numeralMarks.all Leads.isTame = true := by decide
    exact List.all_eq_true.mp all c mark

theorem leads_number (n : Number) : Leads InCode (n.text .json) Ended := by
  obtain ⟨chars, c, last, letter⟩ := n.text_isNumeral
  have tame : (n.text .json).toList.all Leads.isTame = true :=
    List.all_eq_true.mpr fun c member => isTame_of_isNumeralChar (chars c member)
  exact Leads.worded tame last (Pending.charClass_of_isAlphanum letter)

/-! ### Documents -/

theorem leads_separator {separator : String} {c : Char} (written : separator.toList = [c]) (separates : c = ',' ∨ c = ':') :
    Leads Ended separator Open := by
  intro p ended
  have unbroken : Unbroken [c] := by rcases separates with rfl | rfl <;> decide
  rw [written]
  refine ⟨Pending.safe_of_unbroken unbroken p, ?_⟩
  rw [Pending.run_cons, Pending.step_separator ended separates]
  trivial

theorem leads_listed {texts : List String} {closing : String} (each : ∀ s ∈ texts, Leads Open s Ended)
    (closes : Leads InCode closing IsCode) : Leads Open (",".intercalate texts ++ closing) IsCode := by
  induction texts with
  | nil =>
    rw [String.intercalate_nil, String.empty_append]
    exact closes.atOperand
  | cons s rest ih =>
    obtain ⟨first, each⟩ := List.forall_mem_cons.mp each
    cases rest with
    | nil =>
      rw [String.intercalate_singleton]
      exact first.append closes.afterOperand
    | cons next rest =>
      rw [String.intercalate_cons_cons, String.append_assoc]
      exact (first.append (leads_separator rfl (.inl rfl))).append (ih each)

theorem leads_bracketed {opening closing : String} {texts : List String} (opens : Leads InCode opening IsCode)
    (closes : Leads InCode closing IsCode) (each : ∀ s ∈ texts, Leads Open s Ended) :
    Leads Open (opening ++ ",".intercalate texts ++ closing) Ended := by
  rw [String.append_assoc]
  have inside := leads_listed each closes
  exact (opens.atOperand.mono (fun _ => id) fun _ => isCode_open).append inside.ends

/-- A word that documents have for a value. -/
theorem leads_word {s : String} (word : s = "null" ∨ s = "true" ∨ s = "false") : Leads Open s Ended := by
  have worded : Leads InCode s Ended := by
    rcases word with rfl | rfl | rfl <;> exact .worded (by decide) rfl (by decide)
  exact worded.atOperand

mutual

/-- A document is an operand. -/
theorem leads_compact : (j : Json) → Leads Open j.compact Ended
  | .null => leads_word (.inl rfl)
  | .bool true => leads_word (.inr (.inl rfl))
  | .bool false => leads_word (.inr (.inr rfl))
  | .num n => (leads_number n).atOperand
  | .str s => leads_quote (.document s)
  | .arr items => leads_bracketed (.closed (by decide) (by decide)) (.closed (by decide) (by decide)) (leads_compactItems items)
  | .obj members =>
    leads_bracketed (.closed (by decide) (by decide)) (.closed (by decide) (by decide)) (leads_compactMembers members)

theorem leads_compactItems : (items : List Json) → ∀ s ∈ Json.compactItems items, Leads Open s Ended
  | [] => List.forall_mem_nil _
  | item :: rest => List.forall_mem_cons.mpr ⟨leads_compact item, leads_compactItems rest⟩

theorem leads_compactMembers : (members : List (String × Json)) → ∀ s ∈ Json.compactMembers members, Leads Open s Ended
  | [] => List.forall_mem_nil _
  | (name, value) :: rest => by
    refine List.forall_mem_cons.mpr ⟨?_, leads_compactMembers rest⟩
    exact ((leads_quote (.document name)).append (leads_separator rfl (.inr rfl))).append (leads_compact value)

end

/-! ### Operands -/

/-- A text that is read from code back to code, with these tokens. -/
structure Reads (s : String) (tokens : List Token) : Prop where
  safe : Pending.code.Safe s.toList
  run : Pending.code.run s.toList = (tokens, .code)

/-- A text that is read from code as an operand, with these tokens. -/
structure Operand (s : String) (tokens : List Token) : Prop where
  safe : Pending.code.Safe s.toList
  ended : Ended (Pending.code.run s.toList).2
  tokens : (Pending.code.run s.toList).1 ++ (Pending.code.run s.toList).2.tokens = tokens

section Reading

variable {s t : String} {tokens more : List Token}

theorem reads_of_leads (leads : Leads IsCode s IsCode) : ∃ tokens, Reads s tokens := by
  obtain ⟨safe, last⟩ := leads .code rfl
  exact ⟨(Pending.code.run s.toList).1, safe, Prod.ext rfl last⟩

theorem operand_of_leads (leads : Leads IsCode s Ended) : ∃ tokens, Operand s tokens := by
  obtain ⟨safe, last⟩ := leads .code rfl
  exact ⟨_, safe, last, rfl⟩

theorem Reads.empty : Reads "" [] := ⟨trivial, rfl⟩

theorem Reads.append (first : Reads s tokens) (second : Reads t more) : Reads (s ++ t) (tokens ++ more) where
  safe := by
    rw [String.toList_append, Pending.safe_append, first.run]
    exact ⟨first.safe, second.safe⟩
  run := by rw [String.toList_append, Pending.run_append, first.run, second.run]

theorem Reads.operand (reads : Reads s tokens) : Operand s tokens where
  safe := reads.safe
  ended := by
    rw [reads.run]
    trivial
  tokens := by
    rw [reads.run]
    exact List.append_nil _

theorem Reads.before (first : Reads s tokens) (second : Operand t more) : Operand (s ++ t) (tokens ++ more) where
  safe := by
    rw [String.toList_append, Pending.safe_append, first.run]
    exact ⟨first.safe, second.safe⟩
  ended := by
    rw [String.toList_append, Pending.run_append, first.run]
    exact second.ended
  tokens := by
    rw [String.toList_append, Pending.run_append, first.run, List.append_assoc, second.tokens]

theorem reads_feed : Reads "\n" [] := ⟨⟨by decide, fun _ => trivial, trivial⟩, rfl⟩

/-- An operand and what ends it. -/
theorem Operand.through (operand : Operand s tokens) (safe : ∀ p, Ended p → p.Safe t.toList)
    (run : ∀ p, Ended p → p.run t.toList = (p.tokens ++ more, .code)) : Reads (s ++ t) (tokens ++ more) where
  safe := by
    rw [String.toList_append, Pending.safe_append]
    exact ⟨operand.safe, safe _ operand.ended⟩
  run := by
    rw [String.toList_append, Pending.run_append, run _ operand.ended, ← List.append_assoc, operand.tokens]

theorem Operand.closed (operand : Operand s tokens) {c : Char} (written : t.toList = [c]) (closes : charClass c = .closing) :
    Reads (s ++ t) (tokens ++ [.closing c]) := by
  have unbroken : Unbroken [c] := by
    refine unbroken_iff.mpr (List.forall_mem_singleton.mpr ⟨?_, ?_⟩)
    · rintro rfl
      exact absurd closes (by decide)
    · rintro rfl
      exact absurd closes (by decide)
  refine operand.through (fun p _ => ?_) fun p ended => ?_
  · rw [written]
    exact Pending.safe_of_unbroken unbroken p
  · rw [written, Pending.run_cons, Pending.step_closing ended.inCode closes]
    simp [Pending.run]

/-- The token of a comma before white space. -/
def comma : Token := .mark ',' false

theorem Operand.separated (operand : Operand s tokens) {gap : Char} (written : t.toList = [',', gap])
    (blank : gap = ' ' ∨ gap = '\n') : Reads (s ++ t) (tokens ++ [comma]) := by
  have isBlank : charClass gap = .blank := by rcases blank with rfl | rfl <;> decide
  have ret : gap ≠ '\r' := by rcases blank with rfl | rfl <;> decide
  have marked : InCode (.mark ',') := trivial
  refine operand.through (fun p ended => ?_) fun p ended => ?_
  · rw [written, Pending.Safe, Pending.step_separator ended (.inl rfl)]
    exact ⟨by decide, fun _ => ended.inCode, ret, fun _ => marked, trivial⟩
  · rw [written, Pending.run_cons, Pending.step_separator ended (.inl rfl), Pending.run_cons, Pending.step_blank marked isBlank]
    simp [Pending.run, Pending.tokens, comma]

end Reading

/-! ### Lines -/

theorem linesKept_of_mem {cs line : List Char} (member : line ∈ Text.linesKept cs) : line ≠ [] ∧ line ⊆ cs := by
  induction cs generalizing line with
  | nil => cases member
  | cons c rest ih =>
    rw [Text.linesKept] at member
    split at member
    · rcases List.mem_cons.mp member with rfl | later
      · exact ⟨List.cons_ne_nil _ _, List.cons_subset_cons c (List.nil_subset rest)⟩
      · exact (ih later).imp_right (List.subset_cons_of_subset c)
    · split at member
      · obtain rfl := List.mem_singleton.mp member
        exact ⟨List.cons_ne_nil _ _, List.cons_subset_cons c (List.nil_subset rest)⟩
      · rename_i first others kept
        rw [kept] at ih
        rcases List.mem_cons.mp member with rfl | later
        · exact ⟨List.cons_ne_nil _ _, List.cons_subset_cons c (ih List.mem_cons_self).2⟩
        · exact (ih (List.mem_cons_of_mem _ later)).imp_right (List.subset_cons_of_subset c)

/-- Without carriage returns the end of a line is a line feed alone. -/
theorem unterminated_feed {line : List Char} (ret : '\r' ∉ line) : Text.unterminated (line ++ ['\n']) = line := by
  unfold Text.unterminated
  split
  case h_1 rest ended =>
    have reversed : line.reverse = '\r' :: rest := by simpa using ended
    have member : '\r' ∈ line.reverse := reversed ▸ List.mem_cons_self
    exact absurd (List.mem_reverse.mp member) ret
  case h_2 rest _ ended =>
    obtain rfl : line.reverse = rest := by simpa using ended
    exact List.reverse_reverse line
  case h_3 _ other => exact absurd (List.reverse_concat ..) (other _)

theorem unterminated_other {line : List Char} {last : Char} (other : last ≠ '\n') :
    Text.unterminated (line ++ [last]) = line ++ [last] := by
  unfold Text.unterminated
  split
  · simp_all
  · simp_all
  · rfl

theorem unterminated_cons {c : Char} {line : List Char} (some : line ≠ []) (ret : '\r' ∉ c :: line) :
    Text.unterminated (c :: line) = c :: Text.unterminated line := by
  obtain ⟨init, last, rfl⟩ : ∃ init last, line = init ++ [last] := by
    rcases line.eq_nil_or_concat with none | ⟨init, last, same⟩
    · exact absurd none some
    · exact ⟨init, last, by rw [same, List.concat_eq_append]⟩
  rw [← List.cons_append] at ret ⊢
  have before : '\r' ∉ c :: init := fun member => ret (List.mem_append_left _ member)
  by_cases feed : last = '\n'
  · rw [feed, unterminated_feed before, unterminated_feed fun member => before (List.mem_cons_of_mem c member)]
  · rw [unterminated_other feed, unterminated_other feed, List.cons_append]

theorem lines_eq_splitBy {cs : List Char} {last : Char} (ret : '\r' ∉ cs) (ends : cs.getLast? = some last) (other : last ≠ '\n') :
    Text.lines cs = Text.splitBy (· == '\n') cs := by
  induction cs with
  | nil => cases ends
  | cons c rest ih =>
    have inside : '\r' ∉ rest := fun member => ret (List.mem_cons_of_mem c member)
    cases rest with
    | nil =>
      obtain rfl : c = last := by simpa using ends
      simp [Text.lines, Text.linesKept, Text.splitBy, Text.unterminated, other]
    | cons d rest =>
      have later := ih inside (by rwa [List.getLast?_cons_cons] at ends)
      rw [Text.lines] at later
      rw [Text.lines, Text.linesKept, Text.splitBy]
      by_cases feed : c = '\n'
      · rw [if_pos feed, if_pos (by simpa using feed), List.map_cons, later, feed]
        rfl
      · rw [if_neg feed, if_neg (by simpa using feed), ← later]
        cases kept : Text.linesKept (d :: rest) with
        | nil =>
          rw [kept] at later
          exact absurd later.symm (Text.splitBy_ne_nil _ _)
        | cons line lines =>
          obtain ⟨some, among⟩ := linesKept_of_mem (kept ▸ List.mem_cons_self : line ∈ Text.linesKept (d :: rest))
          have returns : '\r' ∉ c :: line := by
            intro member
            rcases List.mem_cons.mp member with same | later
            · exact ret (same ▸ List.mem_cons_self)
            · exact inside (among later)
          simp only [List.map_cons, unterminated_cons some returns]

/-- White space before a line. -/
def indentedLine (margin line : List Char) : List Char := if line.isEmpty then [] else margin ++ line

theorem run_margin {margin : List Char} (blank : ∀ c ∈ margin, c = ' ' ∨ c = '\t') : Pending.code.run margin = ([], .code) := by
  induction margin with
  | nil => rfl
  | cons c rest ih =>
    obtain ⟨first, blank⟩ := List.forall_mem_cons.mp blank
    have isBlank : charClass c = .blank := by rcases first with rfl | rfl <;> decide
    have inCode : InCode .code := trivial
    rw [Pending.run_cons, Pending.step_blank inCode isBlank, ih blank]
    rfl

theorem run_indentedLine {margin : List Char} (blank : ∀ c ∈ margin, c = ' ' ∨ c = '\t') (line : List Char) :
    Pending.code.run (indentedLine margin line) = Pending.code.run line ∧
      (Pending.code.Safe line → Pending.code.Safe (indentedLine margin line)) := by
  have unbroken : Unbroken margin := by
    refine unbroken_iff.mpr fun c member => ?_
    rcases blank c member with rfl | rfl <;> decide
  cases line with
  | nil => exact ⟨rfl, id⟩
  | cons c line =>
    have written : indentedLine margin (c :: line) = margin ++ c :: line := rfl
    rw [written, Pending.run_append, Pending.safe_append, run_margin blank]
    exact ⟨rfl, fun safe => ⟨Pending.safe_of_unbroken unbroken _, safe⟩⟩

/-- White space before lines changes no tokens, as long as no line ends inside a literal. -/
theorem run_indentedLines {margin : List Char} (blank : ∀ c ∈ margin, c = ' ' ∨ c = '\t') {lines : List (List Char)}
    (safe : Pending.code.Safe (lines.flatMap (· ++ ['\n']))) :
    Pending.code.run (lines.flatMap (indentedLine margin · ++ ['\n'])) = Pending.code.run (lines.flatMap (· ++ ['\n'])) ∧
      Pending.code.Safe (lines.flatMap (indentedLine margin · ++ ['\n'])) := by
  induction lines with
  | nil => exact ⟨rfl, trivial⟩
  | cons line rest ih =>
    rw [List.flatMap_cons, List.append_assoc, Pending.safe_append, List.singleton_append] at safe
    obtain ⟨inLine, -, inCode, later⟩ := safe
    have ends := Pending.step_blank (inCode rfl) (by decide : charClass '\n' = .blank)
    rw [ends] at later
    obtain ⟨run, safe⟩ := ih later
    obtain ⟨same, kept⟩ := run_indentedLine blank line
    rw [List.flatMap_cons, List.flatMap_cons, List.append_assoc, List.append_assoc, List.singleton_append, List.singleton_append,
      Pending.run_append, Pending.run_append, Pending.safe_append, same, Pending.run_cons, Pending.run_cons, Pending.Safe, ends, run]
    exact ⟨rfl, kept inLine, by decide, fun _ => inCode rfl, safe⟩

section Lines

variable {s margin : String} {tokens : List Token}

/-- A text keeps its tokens where its lines are written at a margin. -/
theorem Reads.lineText (reads : Reads (s ++ "\n") tokens) (blank : ∀ c ∈ margin.toList, c = ' ' ∨ c = '\t') :
    Reads (Fragment.lineText margin s) tokens := by
  have written : (s ++ "\n").toList = (Text.splitBy (· == '\n') s.toList).flatMap (· ++ ['\n']) := by
    rw [Text.flatMap_splitBy_feed, String.toList_append]
    rfl
  have indented : (Fragment.lineText margin s).toList =
      (Text.splitBy (· == '\n') s.toList).flatMap (indentedLine margin.toList · ++ ['\n']) := by
    rw [Fragment.lineText_toList, SourceLine.ended, Fragment.codeLines, List.flatMap_map]
    rfl
  obtain ⟨safe, run⟩ := reads
  rw [written] at safe run
  obtain ⟨same, kept⟩ := run_indentedLines blank safe
  exact ⟨indented ▸ kept, by rw [indented, same, run]⟩

theorem intercalate_feed {texts : List String} (some : texts ≠ []) :
    "\n".intercalate texts ++ "\n" = String.join (texts.map (· ++ "\n")) := by
  induction texts with
  | nil => exact absurd rfl some
  | cons s rest ih =>
    cases rest with
    | nil => simp [String.join_cons]
    | cons next rest =>
      rw [String.intercalate_cons_cons, String.append_assoc, ih (List.cons_ne_nil next rest)]
      simp only [List.map_cons, String.join_cons]

/-- One level deeper is a margin of four spaces. -/
theorem indented_eq_lineText {last : Char} (ret : '\r' ∉ s.toList) (ends : s.toList.getLast? = some last) (other : last ≠ '\n') :
    Expr.indented s ++ "\n" = Fragment.lineText "    " s := by
  rw [Expr.indented, Text.indentLines, lines_eq_splitBy ret ends other, intercalate_feed, List.map_map, Fragment.lineText]
  · congr 1
    refine List.map_congr_left fun line _ => ?_
    rw [Function.comp_apply]
    split <;> rfl
  · rw [Ne, List.map_eq_nil_iff]
    exact Text.splitBy_ne_nil _ _

/-- An entry on lines of its own. -/
theorem Operand.onLines (operand : Operand s tokens) : Reads (Expr.indented (s ++ ",") ++ "\n") (tokens ++ [comma]) := by
  have reads : Reads (s ++ ("," ++ "\n")) (tokens ++ [comma]) := operand.separated rfl (.inr rfl)
  have ends : (s ++ ",").toList.getLast? = some ',' := by
    rw [String.toList_append]
    exact List.getLast?_concat
  rw [← String.append_assoc] at reads
  have safe := (Pending.safe_append _ _ _).mp (String.toList_append ▸ reads.safe)
  rw [indented_eq_lineText safe.1.return_not_mem ends (by decide)]
  exact reads.lineText fun _ member => .inl (List.eq_of_mem_replicate (n := 4) member)

end Lines

end StackCompiler.Rust
