import StackCompiler.Proofs.Import.EntryNames
import StackCompiler.Proofs.Import.Generation
import StackCompiler.Proofs.Import.Objects

/-!
The identifiers of declarations. Those of entries are always legal, and begin with capitals. The
declaration of a part is called after the properties on the way to it: what runs their words
together leaves out only what divides words, so that other characters stay
(`IsPartIdent.legal_iff`).
-/
namespace StackCompiler.Import

open Rust (IsIdentifier IsCapitalized NameTable)

/-! ### Entries -/

section Names

variable {stem ident : String}

theorem isCapitalized_of_numbered (capitalized : IsCapitalized stem)
    (numbered : ident = stem ∨ ∃ n, 2 ≤ n ∧ ident = NameTable.withNumber stem n) : IsCapitalized ident := by
  rcases numbered with rfl | ⟨n, -, rfl⟩
  · exact capitalized
  · exact Rust.isCapitalized_withNumber capitalized n

theorem isIdentFor_capitalized {kind : EntryKind} {logical : String} (named : IsIdentFor kind logical ident) :
    IsCapitalized ident := by
  obtain ⟨base, stem, found, suffixed, numbered⟩ := named
  have capitalized := Rust.declarationName?_capitalized found
  refine isCapitalized_of_numbered ?_ numbered
  rcases suffixed with rfl | ⟨-, rfl⟩
  · exact capitalized
  · exact isCapitalized_suffixed capitalized kind

end Names

/-- Every entry has a legal identifier that begins with a capital. -/
theorem assignIdents_capitalized {t : Template} {ids : Identifiers} {before after : NameTable}
    (assigned : (assignIdents t).run before = .ok (ids, after)) {kind : EntryKind} {logical : String}
    (entry : (kind, logical) ∈ entriesOf t) : IsCapitalized (ids.of kind logical) := by
  obtain ⟨keys, named, -⟩ := assignIdents_takes assigned
  cases found : ids.find? kind logical with
  | none => exact absurd entry ((ids.find?_eq_none_iff keys kind logical).mp found)
  | some ident =>
    rw [Identifiers.of, found]
    exact isIdentFor_capitalized (named _ (mem_of_lookup found))

/-! ### Parts -/

/-- The words of a property have only characters of identifiers. -/
def PlainWords (property : String) : Prop :=
  (Text.pascalCase property).toList.all Rust.isNameChar = true

instance (property : String) : Decidable (PlainWords property) := inferInstanceAs (Decidable (_ = _))

theorem isCapitalized_words_iff {holder : String} (capitalized : IsCapitalized holder) (property : String) :
    IsCapitalized (holder ++ Text.pascalCase property) ↔ PlainWords property :=
  Rust.isCapitalized_append_iff capitalized (Text.startsBig_pascalCase property)

/-- What a part is called begins with what its holder is called. -/
theorem IsPartIdent.starts {holder ident : String} {trail : List String} (named : IsPartIdent holder trail ident) :
    holder.toList <+: ident.toList := by
  induction named with
  | here ident => exact List.prefix_rfl
  | @under holder property next ident trail step rest ih =>
    refine List.IsPrefix.trans ?_ ih
    rcases step with rfl | ⟨n, -, rfl⟩
    · rw [String.toList_append]
      exact List.prefix_append _ _
    · rw [NameTable.withNumber, String.toList_append, String.toList_append, List.append_assoc]
      exact List.prefix_append _ _

theorem IsPartIdent.legal_iff {holder ident : String} {trail : List String} (named : IsPartIdent holder trail ident)
    (capitalized : IsCapitalized holder) : IsIdentifier ident ↔ ∀ key ∈ trail, PlainWords key := by
  induction named with
  | here ident => exact iff_of_true capitalized.1 (List.forall_mem_nil _)
  | @under holder property next ident trail step rest ih =>
    rw [List.forall_mem_cons]
    by_cases plain : PlainWords property
    · have next := isCapitalized_of_numbered ((isCapitalized_words_iff capitalized property).mpr plain) step
      rw [ih next, and_iff_right plain]
    · -- A character that is left by one property is in every name that goes on from there.
      refine iff_of_false (fun identifier => plain ?_) fun all => plain all.1
      have inside : (Text.pascalCase property).toList ⊆ ident.toList := by
        refine List.Subset.trans ?_ rest.starts.subset
        rcases step with rfl | ⟨n, -, rfl⟩ <;> simp [NameTable.withNumber]
      exact List.all_eq_true.mpr fun c member => List.all_eq_true.mp identifier.chars c (inside member)

/-! ### Templates -/

variable {schema : Schema} {t : Template} {statics : List Static} {progress : Progress}

/-- `s` has a legal identifier exactly if the words of all properties on the way to its part are plain. -/
def NamedAs (part : Part) (s : Static) : Prop :=
  IsIdentifier s.ident ↔ ∀ key ∈ part.trail, PlainWords key

theorem DeclaresResource.names {ids : Identifiers} {logical : String} {r : Resource} {own : Static} {parts : List Static}
    (declares : DeclaresResource ids schema logical r own parts) (capitalized : IsCapitalized (ids.of .resource logical)) :
    List.Forall₂ NamedAs (partsOf schema r) ((own :: parts).filter (! ·.topLevel)) := by
  have inner : ∀ s ∈ parts, s.topLevel = false := by
    intro s member
    obtain ⟨_, -, declares⟩ := exists_mem_of_forall₂ declares.parts member
    exact declares.inner
  have filtered : (own :: parts).filter (! ·.topLevel) = parts := by
    rw [List.filter_cons_of_neg (by simp [declares.top]), List.filter_eq_self]
    exact fun s member => by simp [inner s member]
  rw [filtered]
  exact declares.parts.imp fun part s part => part.named.legal_iff (declares.named ▸ capitalized)

theorem otherStatics_top (ids : Identifiers) (t : Template) : ∀ s ∈ otherStatics ids t, s.topLevel = true := by
  unfold otherStatics
  simp only [List.forall_mem_append, List.forall_mem_map]
  exact ⟨⟨⟨fun _ _ => rfl, fun _ _ => rfl⟩, fun _ _ => rfl⟩, fun _ _ => rfl⟩

theorem lowerTemplate_top_names (lowered : lowerTemplate schema t = .ok (statics, progress)) :
    ∀ s ∈ statics, s.topLevel = true → IsIdentifier s.ident := by
  obtain ⟨ids, _, assigned, headed, -⟩ := lowerTemplate_headed lowered
  intro s member top
  have listed : (s.ident, s.heading) ∈ (headings schema t).map fun e => (ids.of e.1.1 e.1.2, e.2) := by
    rw [← headed.tops]
    exact List.mem_map_of_mem (List.mem_filter.mpr ⟨member, top⟩)
  obtain ⟨e, entry, same⟩ := List.mem_map.mp listed
  have key : e.1 ∈ entriesOf t := headings_keys schema t ▸ List.mem_map_of_mem entry
  rw [← (Prod.mk.inj same).1]
  exact (assignIdents_capitalized assigned key).1

theorem lowerTemplate_part_names (lowered : lowerTemplate schema t = .ok (statics, progress)) :
    List.Forall₂ NamedAs (t.resources.flatMap (partsOf schema ·.2)) (statics.filter (! ·.topLevel)) := by
  obtain ⟨ids, _, resources, _, assigned, run, rfl⟩ := lowerTemplate_eq_ok lowered
  obtain ⟨groups, rfl, each⟩ := lowerResources_declares run
  have others : (otherStatics ids t).filter (! ·.topLevel) = [] :=
    List.filter_eq_nil_iff.mpr fun s member => by simp [otherStatics_top ids t s member]
  rw [List.filter_append, others, List.append_nil, List.filter_flatMap]
  refine forall₂_flatMap each fun e member group declares => declares.names ?_
  have entry : (EntryKind.resource, e.1) ∈ entriesOf t := by
    simp only [entriesOf, List.append_assoc]
    exact List.mem_append_left _ (List.mem_map_of_mem (List.mem_map_of_mem member))
  exact assignIdents_capitalized assigned entry

/-- Without a specification every template that was read is generated. All entries have legal identifiers
    then. The declaration of a part has one exactly if the words of each property on the way to
    it, run together, have only characters of identifiers. -/
theorem generated_idents_legal_iff {text : String} {format : Format} {t : Template}
    (parsed : Template.parse text = .ok (t, format)) (package : String) :
    ∃ g statics progress, generate .inferred package t = .ok g ∧
      lowerTemplate .inferred t = .ok (statics, progress) ∧ g.files = renderFiles package (breakCycles statics).1 ∧
      (∀ s ∈ (breakCycles statics).1, s.topLevel = true → IsIdentifier s.ident) ∧
      List.Forall₂ (fun part s => IsIdentifier s.ident ↔ ∀ key ∈ part.trail, PlainWords key)
        (t.resources.flatMap (partsOf .inferred ·.2)) ((breakCycles statics).1.filter (! ·.topLevel)) ∧
      ((∀ s ∈ (breakCycles statics).1, IsIdentifier s.ident) ↔
        ∀ e ∈ t.resources, ∀ part ∈ partsOf .inferred e.2, ∀ key ∈ part.trail, PlainWords key) := by
  obtain ⟨statics, progress, lowered⟩ := lowerTemplate_succeeds_of_parse parsed
  have tops : ∀ s ∈ (breakCycles statics).1, s.topLevel = true → IsIdentifier s.ident :=
    List.forall_mem_map.mpr (lowerTemplate_top_names lowered)
  have parts : List.Forall₂ NamedAs (t.resources.flatMap (partsOf .inferred ·.2))
      ((breakCycles statics).1.filter (! ·.topLevel)) := by
    rw [breakCycles, List.filter_map]
    exact List.forall₂_map_right_iff.mpr (lowerTemplate_part_names lowered)
  refine ⟨_, statics, progress, (generate_eq_ok _ _ _ _).mpr ⟨statics, progress, lowered, rfl⟩, lowered, rfl, tops, parts, ?_⟩
  rw [← List.forall_mem_flatMap, forall_mem_iff_of_forall₂ parts fun part _ s as => as.symm]
  constructor
  · exact fun all s member => all s (List.mem_filter.mp member).1
  · intro inner s member
    cases top : s.topLevel with
    | true => exact tops s member top
    | false => exact inner s (List.mem_filter.mpr ⟨member, by simp [top]⟩)

/-- A queue with a part under a key of two words, and a part inside that. -/
def wordsText : String :=
  "\x7b\"Resources\":\x7b\"self\":\x7b\"Type\":\"AWS::SQS::Queue\",\"Properties\":\x7b\"Name\":\"a\",\"dead-letter_2\":\x7b\"Max\":\"b\",\"Target\":\x7b\"Arn\":\"c\",\"Id\":\"d\"\x7d\x7d\x7d\x7d\x7d\x7d"

def wordsTemplate : Template :=
  { Template.empty with
    resources := [
      ("self", { type := "AWS::SQS::Queue"
                 properties := .obj [("Name", .str "a"),
                   ("dead-letter_2", .obj [("Max", .str "b"), ("Target", .obj [("Arn", .str "c"), ("Id", .str "d")])])] })] }

theorem generated_idents_legal_words :
    Template.parse wordsText = .ok (wordsTemplate, .json) ∧
      ∃ g statics progress, generate .inferred defaultPackage wordsTemplate = .ok g ∧
        lowerTemplate .inferred wordsTemplate = .ok (statics, progress) ∧
        g.files = renderFiles defaultPackage (breakCycles statics).1 ∧
        idents statics = ["Self_", "Self_DeadLetter2", "Self_DeadLetter2Target"] ∧
        ∀ s ∈ (breakCycles statics).1, IsIdentifier s.ident := by
  have parsed : Template.parse wordsText = .ok (wordsTemplate, .json) := by decide +kernel
  have computed : ((lowerTemplate .inferred wordsTemplate).toOption.map fun r => idents r.1) =
      some ["Self_", "Self_DeadLetter2", "Self_DeadLetter2Target"] := by decide +kernel
  obtain ⟨g, statics, progress, generated, lowered, files, -, -, legal⟩ := generated_idents_legal_iff parsed defaultPackage
  rw [lowered] at computed
  exact ⟨parsed, g, statics, progress, generated, lowered, files, Option.some.inj computed, legal.mpr (by decide +kernel)⟩

/-- A queue with a part under a key that has a dollar sign in it. -/
def dollarText : String :=
  "\x7b\"Resources\":\x7b\"Queue\":\x7b\"Type\":\"AWS::SQS::Queue\",\"Properties\":\x7b\"Name\":\"a\",\"Dead$Letter\":\x7b\"Arn\":\"b\",\"Max\":\"c\"\x7d\x7d\x7d\x7d\x7d"

def dollarTemplate : Template :=
  { Template.empty with
    resources := [
      ("Queue", { type := "AWS::SQS::Queue"
                  properties := .obj [("Name", .str "a"), ("Dead$Letter", .obj [("Arn", .str "b"), ("Max", .str "c")])] })] }

/-- The dollar sign stays in the identifier of the part. -/
theorem part_keeps_dollar :
    Template.parse dollarText = .ok (dollarTemplate, .json) ∧
      ∃ g statics progress, generate .inferred defaultPackage dollarTemplate = .ok g ∧
        lowerTemplate .inferred dollarTemplate = .ok (statics, progress) ∧
        g.files = renderFiles defaultPackage (breakCycles statics).1 ∧
        idents (breakCycles statics).1 = ["Queue", "QueueDead$Letter"] ∧ ¬ IsIdentifier "QueueDead$Letter" := by
  have computed : ((lowerTemplate .inferred dollarTemplate).toOption.map fun r => idents r.1) =
      some ["Queue", "QueueDead$Letter"] := by decide +kernel
  cases lowered : lowerTemplate .inferred dollarTemplate with
  | error _ => rw [lowered] at computed; cases computed
  | ok r =>
    obtain ⟨statics, progress⟩ := r
    rw [lowered] at computed
    exact ⟨by decide +kernel, _, statics, progress, (generate_eq_ok _ _ _ _).mpr ⟨statics, progress, lowered, rfl⟩, rfl, rfl,
      (idents_breakCycles statics).trans (Option.some.inj computed), by decide⟩

end StackCompiler.Import
