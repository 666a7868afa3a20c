import StackCompiler.Proofs.Declaration.Names
import StackCompiler.Proofs.Import.Heading
import StackCompiler.Proofs.Import.References
import StackCompiler.Proofs.Rust.Identifier

/-!
Generation without a specification. It never fails for a template that was read: every logical
name has an identifier, and a shape is guessed for every value. Every resource comes to a final
stage, which its type decides.
-/
namespace StackCompiler.Import

open Rust (NameTable)

/-! ### Success -/

theorem declarationName?_ne_none {logical : String} (valid : IsLogicalName logical) : Rust.declarationName? logical ≠ none := by
  obtain ⟨notEmpty, alphanumeric⟩ := valid
  intro none
  rw [Rust.declarationName?_eq_none_iff] at none
  obtain ⟨c, member⟩ := List.exists_mem_of_ne_nil logical.toList (by simpa using notEmpty)
  have both := (alphanumeric c member).symm.trans (none c member)
  cases both

theorem claimIdent_ends {kind : EntryKind} {logical : String} (named : Rust.declarationName? logical ≠ none)
    (before : NameTable) : Ends False before (fun _ _ => True) (claimIdent kind logical) := by
  unfold claimIdent
  split
  case h_1 none => exact absurd none named
  case h_2 base _ => exact .inl ⟨_, _, rfl, trivial⟩

theorem assignIdents_ends {t : Template} (named : ∀ key ∈ entriesOf t, Rust.declarationName? key.2 ≠ none)
    (before : NameTable) : Ends False before (fun _ _ => True) (assignIdents t) := by
  have each (keys : List (EntryKind × String)) (named : ∀ key ∈ keys, Rust.declarationName? key.2 ≠ none) (before : NameTable) :
      Ends False before (fun _ _ => True) (keys.mapM fun key => do return (key, ← claimIdent key.1 key.2) :
        Lowering (List ((EntryKind × String) × String))) := by
    induction keys generalizing before with
    | nil => exact .pure trivial
    | cons key rest ih =>
      rw [List.forall_mem_cons] at named
      rw [List.mapM_cons]
      refine .bind (P := fun _ _ => True) (.bind (claimIdent_ends named.1 before) fun _ _ _ => .pure trivial) fun _ _ _ => ?_
      exact .bind (ih named.2 _) fun _ _ _ => .pure trivial
  exact .bind (each (entriesOf t) named before) fun _ _ _ => .pure trivial

theorem Ends.succeeds {α : Type} {failing : Prop} {before : NameTable} {P : α → NameTable → Prop} {x : Lowering α}
    (ends : Ends failing before P x) (never : ¬ failing) : ∃ a after, x.run before = .ok (a, after) := by
  rcases ends with ⟨a, after, done, -⟩ | ⟨reason, -⟩
  · exact ⟨a, after, done⟩
  · exact absurd reason never

theorem lowerTemplate_succeeds {t : Template} (named : ∀ key ∈ entriesOf t, Rust.declarationName? key.2 ≠ none) :
    ∃ statics progress, lowerTemplate .inferred t = .ok (statics, progress) := by
  obtain ⟨ids, table, assigned⟩ := (assignIdents_ends named reservedTable).succeeds not_false
  obtain ⟨⟨resources, progress⟩, after, run⟩ :=
    (lowerResources_ends ids .inferred t.resources (.start (memberNames t.resources)) table).succeeds (fun differs => differs rfl)
  refine ⟨resources ++ otherStatics ids t, progress, (map_eq_ok _ _ _).mpr ⟨(_, after), ?_, rfl⟩⟩
  exact (run_bind_eq_ok _ _ _).mpr ⟨ids, table, assigned, (run_bind_eq_ok _ _ _).mpr ⟨_, after, run, rfl⟩⟩

/-! ### Final stages -/

/-- The moves that are made for a template. -/
def generationMoves (schema : Schema) (t : Template) : List Move :=
  loweringMoves schema t.resources ++ [.all .valueFlattened .cyclesBroken, .all .cyclesBroken .emitted]

theorem foldl_generationMoves (schema : Schema) (t : Template) (start : Progress) :
    (generationMoves schema t).foldl Progress.apply start =
      (((loweringMoves schema t.resources).foldl Progress.apply start).advanceAll .valueFlattened .cyclesBroken).advanceAll
        .cyclesBroken .emitted := by
  rw [generationMoves, List.foldl_append]
  rfl

/-- Where a resource ends. -/
def finalStage (schema : Schema) (r : Resource) : Stage :=
  if (resourceType? schema r).isSome then .emitted else .skipped (unsupported r)

theorem resourceType?_inferred (r : Resource) : resourceType? .inferred r = DeclaredType.ofCanonical? r.type := by
  cases typed : DeclaredType.ofCanonical? r.type <;> simp [resourceType?, Schema.supports, typed]

variable {schema : Schema} {resources : List (String × Resource)} {logical : String} {r : Resource}

theorem on_one_of_ne {name other : String} (differ : name ≠ other) (stages : List Stage) (current : Stage) :
    (stages.map (Move.one other)).foldl (Move.on name) current = current := by
  induction stages with
  | nil => rfl
  | cons next rest ih => simpa [Move.on, differ] using ih

theorem on_one_self (name : String) (stages : List Stage) (current : Stage) :
    (stages.map (Move.one name)).foldl (Move.on name) current = stages.foldl Stage.moved current := by
  rw [List.foldl_map]
  congr 1
  funext current next
  exact if_pos rfl

theorem on_loweringMoves_of_not_mem (absent : logical ∉ memberNames resources) (current : Stage) :
    (loweringMoves schema resources).foldl (Move.on logical) current = current := by
  induction resources with
  | nil => rfl
  | cons entry rest ih =>
    rw [memberNames, List.map_cons, List.mem_cons, not_or] at absent
    rw [loweringMoves, List.flatMap_cons, List.foldl_append, on_one_of_ne absent.1]
    exact ih absent.2

/-- Only its own stages move a resource whose name no other has. -/
theorem on_loweringMoves (distinct : (memberNames resources).Nodup) (member : (logical, r) ∈ resources) (current : Stage) :
    (loweringMoves schema resources).foldl (Move.on logical) current = (stagesOf schema r).foldl Stage.moved current := by
  induction resources generalizing current with
  | nil => cases member
  | cons entry rest ih =>
    rw [memberNames, List.map_cons, List.nodup_cons] at distinct
    rw [loweringMoves, List.flatMap_cons, List.foldl_append]
    rcases List.mem_cons.mp member with rfl | later
    · rw [on_one_self]
      exact on_loweringMoves_of_not_mem distinct.1 _
    · have differ : logical ≠ entry.1 := fun same => distinct.1 (same ▸ List.mem_map_of_mem later)
      rw [on_one_of_ne differ]
      exact ih distinct.2 later current

theorem on_generationMoves {t : Template} (distinct : (memberNames t.resources).Nodup) (member : (logical, r) ∈ t.resources) :
    (generationMoves schema t).foldl (Move.on logical) .unseen = finalStage schema r := by
  rw [generationMoves, List.foldl_append, on_loweringMoves distinct member, stagesOf, finalStage]
  cases resourceType? schema r <;> rfl

theorem generationMoves_stages {t : Template} (distinct : (memberNames t.resources).Nodup) :
    ((generationMoves schema t).foldl Progress.apply (.start (memberNames t.resources))).stages =
      t.resources.map fun e => (e.1, finalStage schema e.2) := by
  rw [Progress.foldl_apply_stages, Progress.start, List.map_map, memberNames, List.map_map]
  refine List.map_congr_left fun e member => ?_
  exact congrArg (e.1, ·) (on_generationMoves distinct member)

/-! ### Templates -/

/-- Every entry that was read has a logical name. -/
theorem entriesOf_valid_of_parse {text : String} {format : Format} {t : Template}
    (parsed : Template.parse text = .ok (t, format)) : ∀ key ∈ entriesOf t, IsLogicalName key.2 := by
  have names := Template.entryNames_of_parse parsed
  simp only [Template.entryNames, nameProblem?_eq_none_iff, List.forall_mem_append] at names
  obtain ⟨⟨⟨⟨parameters, mappings⟩, conditions⟩, resources⟩, outputs⟩ := names
  simp only [entriesOf, List.forall_mem_append, List.forall_mem_map]
  exact ⟨⟨⟨⟨resources, parameters⟩, mappings⟩, conditions⟩, outputs⟩

theorem lowerTemplate_succeeds_of_parse {text : String} {format : Format} {t : Template}
    (parsed : Template.parse text = .ok (t, format)) :
    ∃ statics progress, lowerTemplate .inferred t = .ok (statics, progress) :=
  lowerTemplate_succeeds fun key entry => declarationName?_ne_none (entriesOf_valid_of_parse parsed key entry)

/-- An entry is found under an identifier for it. -/
theorem isIdentFor_of {t : Template} {ids : Identifiers} {before after : NameTable} (distinct : (entriesOf t).Nodup)
    (assigned : (assignIdents t).run before = .ok (ids, after)) :
    ∀ key ∈ entriesOf t, IsIdentFor key.1 key.2 (ids.of key.1 key.2) := by
  obtain ⟨keys, named, -⟩ := assignIdents_takes assigned
  rw [← keys] at distinct ⊢
  refine List.forall_mem_map.mpr fun entry member => ?_
  have found : ids.find? entry.1.1 entry.1.2 = some entry.2 := lookup_of_mem distinct member
  have own : ids.of entry.1.1 entry.1.2 = entry.2 := by rw [Identifiers.of, found, Option.getD_some]
  rw [own]
  exact named entry member

/-- `s` is the declaration of an entry: its name is that of the entry as far as it is free. -/
def IsDeclarationOf (entry : (EntryKind × String) × Heading) (s : Static) : Prop :=
  IsIdentFor entry.1.1 entry.1.2 s.ident ∧ s.heading = entry.2

theorem headed_declarations {schema : Schema} {t : Template} {ids : Identifiers} {before after : NameTable}
    {statics : List Static} (distinct : (entriesOf t).Nodup) (assigned : (assignIdents t).run before = .ok (ids, after))
    (headed : Headed ids (headings schema t) statics) :
    List.Forall₂ IsDeclarationOf (headings schema t) (statics.filter (·.topLevel)) := by
  have same : List.Forall₂ (fun e s => (ids.of e.1.1 e.1.2, e.2) = (s.ident, s.heading)) (headings schema t)
      (statics.filter (·.topLevel)) := by
    refine List.forall₂_map_left_iff.mp (List.forall₂_map_right_iff.mp ?_)
    rw [List.forall₂_eq_eq_eq]
    exact headed.tops.symm
  have named : ∀ e ∈ headings schema t, IsIdentFor e.1.1 e.1.2 (ids.of e.1.1 e.1.2) := by
    intro e member
    refine isIdentFor_of distinct assigned e.1 ?_
    rw [← headings_keys schema t]
    exact List.mem_map_of_mem member
  refine ((List.forall₂_and_left _ _).mpr ⟨named, same⟩).imp fun e s ⟨identFor, both⟩ => ?_
  obtain ⟨ident, heading⟩ := Prod.mk.inj both
  exact ⟨ident ▸ identFor, heading.symm⟩

/-- Without a specification, source is generated from every template that was read. The entries have
    one declaration each, in their order, and nothing else has one at the top. A resource is emitted
    if its type is known and skipped if not; from the start to that end, no move led one back or out
    of a final stage. -/
theorem generate_inferred_complete {text : String} {format : Format} {t : Template}
    (parsed : Template.parse text = .ok (t, format)) (package : String) :
    ∃ statics progress g, lowerTemplate .inferred t = .ok (statics, progress) ∧ generate .inferred package t = .ok g ∧
      g.files = renderFiles package (breakCycles statics).1 ∧
      List.Forall₂ IsDeclarationOf (headings .inferred t) ((breakCycles statics).1.filter (·.topLevel)) ∧
      g.progress.stages = t.resources.map (fun e =>
        (e.1, if (DeclaredType.ofCanonical? e.2.type).isSome then .emitted else .skipped (unsupported e.2))) ∧
      let history := (Progress.start (memberNames t.resources)).history (generationMoves .inferred t)
      history.getLast? = some g.progress ∧ history.IsChain Progress.Forward := by
  have distinct := entriesOf_nodup_of_parse parsed
  have named : ∀ key ∈ entriesOf t, Rust.declarationName? key.2 ≠ none :=
    fun key member => declarationName?_ne_none (entriesOf_valid_of_parse parsed key member)
  obtain ⟨statics, progress, lowered⟩ := lowerTemplate_succeeds named
  obtain ⟨ids, table, assigned, headed, rfl⟩ := lowerTemplate_headed lowered
  refine ⟨statics, _, _, lowered, (generate_eq_ok _ _ _ _).mpr ⟨statics, _, lowered, rfl⟩, rfl, ?declared, ?stages, ?last,
    Progress.history_forward _ _⟩
  case declared => exact headed_declarations distinct assigned (headed_breakCycles headed)
  case stages =>
    have resources : (memberNames t.resources).Nodup := by
      simp only [entriesOf, List.nodup_append] at distinct
      exact distinct.1.1.1.1.of_map
    simp only [← foldl_generationMoves, generationMoves_stages resources, finalStage, resourceType?_inferred]
  case last => rw [Progress.getLast?_history, foldl_generationMoves]

/-- A queue with a part, and a resource of an unknown type. -/
def mixedText : String :=
  "\x7b\"Resources\":\x7b\"Q\":\x7b\"Type\":\"AWS::SQS::Queue\",\"Properties\":\x7b\"P\":\x7b\"M\":\"3\"\x7d\x7d\x7d,\"A\":\x7b\"Type\":\"Custom::A\"\x7d\x7d\x7d"

def mixedTemplate : Template :=
  { Template.empty with
    resources := [
      ("Q", { type := "AWS::SQS::Queue", properties := .obj [("P", .obj [("M", .str "3")])] }),
      ("A", { type := "Custom::A", properties := .null })] }

theorem generate_inferred_mixed :
    Template.parse mixedText = .ok (mixedTemplate, .json) ∧
      ∃ statics progress g, lowerTemplate .inferred mixedTemplate = .ok (statics, progress) ∧
        generate .inferred defaultPackage mixedTemplate = .ok g ∧ idents statics = ["Q", "QP", "A"] ∧
        List.Forall₂ IsDeclarationOf (headings .inferred mixedTemplate) ((breakCycles statics).1.filter (·.topLevel)) ∧
        g.progress.stages = [("Q", .emitted), ("A", .skipped "unsupported resource type Custom::A")] := by
  have parsed : Template.parse mixedText = .ok (mixedTemplate, .json) := by decide +kernel
  have computed : ((lowerTemplate .inferred mixedTemplate).toOption.map fun r => idents r.1) =
      some ["Q", "QP", "A"] := by decide +kernel
  obtain ⟨statics, progress, g, lowered, generated, -, declared, stages, -, -⟩ :=
    generate_inferred_complete parsed defaultPackage
  rw [lowered] at computed
  refine ⟨parsed, statics, progress, g, lowered, generated, Option.some.inj computed, declared, stages.trans ?_⟩
  decide +kernel

end StackCompiler.Import
