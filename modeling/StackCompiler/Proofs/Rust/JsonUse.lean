import StackCompiler.Proofs.Numeral
import StackCompiler.Proofs.Rust.Nodes
import StackCompiler.Rust.ExprText

/-!
Documents in source. What `usesJson` looks for is a node that is a document
(`usesJson_iff`), and these are the nodes whose source is a call of the macro `json!`
(`invokesJson_iff`), as long as no name begins as that macro does.
-/
namespace StackCompiler.Rust.Expr

/-- A document, or the scalar that only a document can hold. -/
def IsDocument : Expr → Prop
  | .json _ => True
  | .literal .null => True
  | _ => False

theorem itemsUseJson_iff (items : List Expr) : itemsUseJson items = true ↔ ∃ e ∈ items, e.usesJson = true := by
  induction items with
  | nil => simp [itemsUseJson]
  | cons item rest ih => simp [itemsUseJson, ih]

theorem fieldsUseJson_iff (fields : List (String × Expr)) :
    fieldsUseJson fields = true ↔ ∃ e ∈ fields.map (·.2), e.usesJson = true := by
  induction fields with
  | nil => simp [fieldsUseJson]
  | cons field rest ih =>
    rw [fieldsUseJson, Bool.or_eq_true, ih]
    simp only [List.map_cons, List.mem_cons, exists_eq_or_imp]

/-- A node uses documents if it is one or one of its children uses them. -/
theorem usesJson_step (e : Expr) : e.usesJson = true ↔ e.IsDocument ∨ ∃ w, Child w e ∧ w.usesJson = true := by
  cases e with
  | list items => simp [usesJson, IsDocument, Child, itemsUseJson_iff]
  | call _ args => simp [usesJson, IsDocument, Child, itemsUseJson_iff]
  | pairs fields => simp only [usesJson, IsDocument, Child, fieldsUseJson_iff, false_or]
  | struct _ fields => simp only [usesJson, IsDocument, Child, fieldsUseJson_iff, false_or]
  | some inner => simp [usesJson, IsDocument, Child]
  | literal scalar => cases scalar <;> simp [usesJson, IsDocument, Child]
  | _ => simp [usesJson, IsDocument, Child]

theorem usesJson_iff (e : Expr) : e.usesJson = true ↔ ∃ w, Occurs w e ∧ w.IsDocument := by
  induction e using node_induction with
  | step e ih =>
    rw [usesJson_step]
    constructor
    · rintro (here | ⟨w, child, uses⟩)
      · exact ⟨e, .refl, here⟩
      · obtain ⟨u, inside, document⟩ := (ih w child).mp uses
        exact ⟨u, inside.tail child, document⟩
    · rintro ⟨u, inside, document⟩
      rcases inside.cases_tail with rfl | ⟨w, upper, child⟩
      · exact .inl document
      · exact .inr ⟨w, child, (ih w child).mpr ⟨u, upper, document⟩⟩

/-! ### Source -/

/-- How a call of the macro begins. -/
def jsonCall : List Char := "json!(".toList

/-- The source of a node at a position begins as a call of the macro does. -/
def InvokesJson (position : Position) (e : Expr) : Prop := jsonCall <+: (e.text position).toList

/-- A text that begins otherwise than a call of the macro, whatever follows it. -/
def StartsApart (s : String) : Prop := ¬ s.toList <+: jsonCall ∧ ¬ jsonCall <+: s.toList

instance (s : String) : Decidable (StartsApart s) := inferInstanceAs (Decidable (_ ∧ _))

/-- The name that the source of a node begins with, if it begins with one. -/
def leadingName? : Expr → Option String
  | .static ident => Option.some ident
  | .ref _ slot => slot
  | .attr _ _ slot => slot
  | .call func _ => Option.some func
  | .struct type _ => Option.some type
  | _ => none

/-- The source of a node does not begin with a name that begins as the macro does. -/
def LeadsApart (e : Expr) : Prop := ∀ name ∈ e.leadingName?, StartsApart name

theorem StartsApart.append {s : String} (apart : StartsApart s) (rest : String) : StartsApart (s ++ rest) := by
  rw [StartsApart, String.toList_append]
  refine ⟨fun shorter => apart.1 ((List.prefix_append _ _).trans shorter), fun longer => ?_⟩
  rcases List.prefix_or_prefix_of_prefix longer (List.prefix_append _ _) with within | shorter
  · exact apart.2 within
  · exact apart.1 shorter

theorem startsApart_of_head {s : String} {c : Char} (first : s.toList.head? = Option.some c) (other : c ≠ 'j') : StartsApart s := by
  obtain ⟨rest, written⟩ := List.head?_eq_some_iff.mp first
  rw [StartsApart, written]
  constructor
  · intro shorter
    exact other (List.cons_prefix_cons.mp shorter).1
  · intro longer
    exact other (List.cons_prefix_cons.mp longer).1.symm

theorem StartsApart.converted {s : String} (apart : StartsApart s) (position : Position) :
    StartsApart (converted position s) := by
  cases position with
  | field => exact apart.append _
  | arg => exact apart

theorem startsApart_wrapped {opening : String} (apart : StartsApart opening) (entries : List String) (closing : String) :
    StartsApart (wrapped opening entries closing) := by
  unfold wrapped
  dsimp only
  split
  · exact (apart.append _).append _
  · exact ((apart.append _).append _).append _

theorem startsApart_literal (s : String) : StartsApart (Text.literal s) := by
  have quote : StartsApart "\"" := by decide
  exact (quote.append _).append _

theorem startsApart_number (n : Number) : StartsApart (n.text .json) := by
  obtain ⟨chars, last, ended, -⟩ := n.text_isNumeral
  cases text : (n.text .json).toList with
  | nil =>
    rw [text] at ended
    cases ended
  | cons c rest =>
    rw [text] at chars
    refine startsApart_of_head (c := c) (by rw [text]; rfl) ?_
    rintro rfl
    rcases chars 'j' List.mem_cons_self with digit | mark
    · exact absurd digit (by decide)
    · exact absurd mark (by decide)

/-- The source of a scalar other than null. -/
theorem startsApart_literalText {scalar : Json} (other : scalar ≠ .null) : StartsApart (literalText scalar) := by
  cases scalar with
  | null => exact absurd rfl other
  | bool b => cases b <;> decide
  | num n => exact startsApart_number n
  | str s => exact startsApart_literal s
  | arr items =>
    have bracket : StartsApart "[" := by decide
    exact (bracket.append _).append _
  | obj members =>
    have brace : StartsApart "\x7b" := by decide
    exact (brace.append _).append _

theorem invokesJson_of_isDocument {e : Expr} (document : IsDocument e) (position : Position) : InvokesJson position e := by
  have converted (rest : String) : jsonCall <+: (converted position ("json!(" ++ rest)).toList := by
    cases position with
    | field =>
      rw [Expr.converted, String.toList_append, String.toList_append, List.append_assoc]
      exact List.prefix_append _ _
    | arg =>
      rw [Expr.converted, String.toList_append]
      exact List.prefix_append _ _
  cases e with
  | json document =>
    rw [InvokesJson, text, String.append_assoc]
    exact converted _
  | literal scalar =>
    cases scalar with
    | null => exact converted "null)"
    | _ => exact document.elim
  | _ => exact document.elim

theorem startsApart_text {e : Expr} (apart : LeadsApart e) (other : ¬ IsDocument e) (position : Position) :
    StartsApart (e.text position) := by
  cases e with
  | str s => exact startsApart_literal s
  | literal scalar =>
    have filled : scalar ≠ .null := fun null => other (null ▸ trivial)
    exact (startsApart_literalText filled).converted position
  | json document => exact absurd trivial other
  | static ident => exact ((apart ident rfl).append _).converted position
  | ref target slot =>
    cases slot with
    | none =>
      have reference : StartsApart "reference(" := by decide
      exact ((reference.append _).append _).converted position
    | some ident => exact ((apart ident rfl).append _).converted position
  | attr target name slot =>
    cases slot with
    | none =>
      have attr : StartsApart "get_att(" := by decide
      exact ((((attr.append _).append _).append _).append _).converted position
    | some ident => exact ((((apart ident rfl).append _).append _).append _).converted position
  | call func args => exact (startsApart_wrapped ((apart func rfl).append _) _ _).converted position
  | list items => exact startsApart_wrapped (by decide) _ _
  | pairs fields => exact startsApart_wrapped (by decide) _ _
  | some inner =>
    have option : StartsApart "Some(" := by decide
    exact (option.append _).append _
  | struct type fields => exact ((((apart type rfl).append _).append _).append _)

/-- The nodes that are documents are those whose source is a call of the macro, wherever they stand. -/
theorem invokesJson_iff {e : Expr} (apart : LeadsApart e) (position : Position) :
    InvokesJson position e ↔ IsDocument e := by
  constructor
  · intro invokes
    by_cases document : IsDocument e
    · exact document
    · exact absurd invokes (startsApart_text apart document position).2
  · exact fun document => invokesJson_of_isDocument document position

/-- Where no name begins as the macro does, documents are used exactly if the source of some node
    is a call of the macro. -/
theorem usesJson_iff_invokesJson {e : Expr} (apart : e.Everywhere LeadsApart) (position : Expr → Position) :
    e.usesJson = true ↔ ∃ w, Occurs w e ∧ InvokesJson (position w) w := by
  rw [usesJson_iff]
  exact exists_congr fun w => and_congr_right fun inside => (invokesJson_iff (apart w inside) _).symm

end StackCompiler.Rust.Expr
