import Mathlib.Data.List.Forall2
import StackCompiler.Proofs.Import.Cycle
import StackCompiler.Proofs.Import.Identifiers

/-!
The declarations of a template form a forest. Every entry has an identifier of its own,
and its declaration stands before those of its parts (`Declared`). So all cycles of
references between declarations can be broken.
-/
namespace StackCompiler.Import

open Rust (Expr NameTable)
open Rust.NameTable (Takes)

/-! ### Declarations of entries -/

/-- The declarations of entries with the identifiers `roots`, for whose parts names are taken. -/
structure Declared (ids : Identifiers) (before : NameTable) (roots : List String) (statics : List Static)
    (after : NameTable) : Prop where
  takes : Takes before (idents (statics.filter (! ·.topLevel))) after
  unfolds : Unfolds true roots statics
  named : ∀ s ∈ statics, ∀ ident, (ident, true) ∈ s.body.directReferences → ident ∈ ids.idents

variable {ids : Identifiers} {before mid after : NameTable}

namespace Declared

variable {roots more : List String} {statics others : List Static}

theorem append (first : Declared ids before roots statics mid) (second : Declared ids mid more others after) :
    Declared ids before (roots ++ more) (statics ++ others) after where
  takes := by
    rw [List.filter_append, idents_append]
    exact first.takes.append second.takes
  unfolds := first.unfolds.append second.unfolds
  named := List.forall_mem_append.mpr ⟨first.named, second.named⟩

theorem none (ids : Identifiers) (table : NameTable) : Declared ids table [] [] table :=
  ⟨.none table, .nil, List.forall_mem_nil _⟩

/-- The declaration of an entry before those of its parts. -/
theorem entry {s : Static} {ident : String} (own : s.ident = ident) (top : s.topLevel = true)
    (inner : Lowered ids s.group before s.body.directReferences statics after) :
    Declared ids before [ident] (s :: statics) after where
  takes := by
    have parts : (s :: statics).filter (! ·.topLevel) = statics := by
      rw [List.filter_cons_of_neg (by simp [top]), List.filter_eq_self]
      intro part member
      simp [inner.unfolds.level rfl part member]
    rw [parts]
    exact inner.takes
  unfolds := by
    have one : Unfolds true [s.ident] (s :: (statics ++ [])) := .cons top inner.grouped inner.unfolds .nil
    rwa [List.append_nil, own] at one
  named := List.forall_mem_cons.mpr ⟨inner.named, inner.namedInside⟩

theorem plain {s : Static} {ident : String} (own : s.ident = ident) (top : s.topLevel = true) (plain : Plain ids s.body)
    (table : NameTable) : Declared ids table [ident] [s] table :=
  .entry own top (.plain plain table)

/-- Entries of one kind whose declarations have no parts. -/
theorem each {α : Type} {kind : EntryKind} {declare : String → α → Static} {entries : List (String × α)}
    (ident : ∀ name a, (declare name a).ident = ids.of kind name) (top : ∀ name a, (declare name a).topLevel = true)
    (plain : ∀ name a, Plain ids (declare name a).body) (table : NameTable) :
    Declared ids table ((memberNames entries).map (ids.of kind)) (entries.map fun e => declare e.1 e.2) table := by
  induction entries with
  | nil => exact .none ids table
  | cons entry rest ih =>
    obtain ⟨name, a⟩ := entry
    exact (Declared.plain (ident name a) (top name a) (plain name a) table).append ih

end Declared

theorem plain_metaField (r : Resource) : ∀ e ∈ (metaField r).map (·.2), Plain ids e :=
  forall_metaField ids (fun _ of => (plain_iff_of_fields rfl).mpr fun e member => (of.initial e member).plain) r

theorem plain_placeholder (ident reason : String) (r : Resource) : Plain ids (placeholder ident reason r).body := by
  obtain ⟨fields, body, of⟩ := placeholder_body ids ident reason r
  rw [body, plain_iff_of_fields rfl, List.map_append, List.forall_mem_append]
  exact ⟨fun e member => (of.initial e member).plain, plain_metaField r⟩

theorem EntryBody.plain {type : String} {e : Expr} (body : EntryBody ids type e) : Plain ids e := by
  cases body with
  | constructed _ initial => exact (plain_iff_of_items rfl).mpr (List.forall_mem_singleton.mpr initial.plain)
  | struct _ of => exact (plain_iff_of_fields rfl).mpr fun e member => (of.initial e member).plain

/-! ### Resources -/

theorem fieldReferences_append (fields others : List (String × Expr)) :
    Expr.fieldReferences (fields ++ others) = Expr.fieldReferences fields ++ Expr.fieldReferences others := by
  simp [Expr.fieldReferences_eq_flatMap]

theorem lowerProperties_lowered (scope : Scope) (type ident : String) (v : Value) (before : NameTable) :
    Ends (scope.schema ≠ .inferred) before
      (fun result after => Lowered scope.ids scope.group before (Expr.fieldReferences result.1) result.2 after)
      (lowerProperties scope type ident v) := by
  cases v with
  | obj members => exact (lowered_steps scope).fields_ends _ _ members before
  | _ => exact .pure (.plain (List.forall_mem_nil _) before)

/-- A resource has a declaration of its own, before those of its parts. -/
theorem lowerResource_declared {schema : Schema} {logical : String} {r : Resource} {statics : List Static}
    {stages : List Stage} (done : (lowerResource ids schema logical r).run before = .ok ((statics, stages), after)) :
    Declared ids before [ids.of .resource logical] statics after := by
  unfold lowerResource at done
  split at done
  · simp only [run_pure_eq_ok, Prod.mk.injEq] at done
    obtain ⟨⟨rfl, rfl⟩, rfl⟩ := done
    exact .plain rfl rfl (plain_placeholder _ _ r) before
  · simp only [run_bind_eq_ok, run_pure_eq_ok, Prod.exists, Prod.mk.injEq] at done
    obtain ⟨fields, parts, _, inner, ⟨rfl, rfl⟩, rfl⟩ := done
    have rest : Plain ids (.struct "ResourceMeta" (metaField r)) := (plain_iff_of_fields rfl).mpr (plain_metaField r)
    have all := ((lowerProperties_lowered _ _ _ _ _).of_run inner).append (.plain rest _)
    rw [List.append_nil] at all
    refine .entry rfl rfl ?_
    rwa [Static.ofStruct, Expr.directReferences, fieldReferences_append]

theorem lowerResources_declared {schema : Schema} {resources : List (String × Resource)} {statics : List Static}
    {start progress : Progress}
    (done : (lowerResources ids schema resources start).run before = .ok ((statics, progress), after)) :
    Declared ids before ((memberNames resources).map (ids.of .resource)) statics after := by
  induction resources generalizing before statics start with
  | nil =>
    simp only [lowerResources, run_pure_eq_ok, Prod.mk.injEq] at done
    obtain ⟨⟨rfl, rfl⟩, rfl⟩ := done
    exact .none ids before
  | cons entry rest ih =>
    obtain ⟨logical, r⟩ := entry
    simp only [lowerResources, run_bind_eq_ok, run_pure_eq_ok, Prod.exists, Prod.mk.injEq] at done
    obtain ⟨own, stages, mid, first, others, _, _, later, ⟨rfl, rfl⟩, rfl⟩ := done
    exact (lowerResource_declared first).append (ih later)

/-! ### Templates -/

theorem entriesOf_map (t : Template) (f : EntryKind → String → String) :
    (entriesOf t).map (fun key => f key.1 key.2) = (memberNames t.resources).map (f .resource)
      ++ ((memberNames t.parameters).map (f .parameter) ++ (memberNames t.mappings).map (f .mapping)
        ++ (memberNames t.conditions).map (f .condition) ++ (memberNames t.outputs).map (f .output)) := by
  simp [entriesOf, Function.comp_def]

/-- Every entry of a template has an identifier, under which it is declared. -/
theorem lowerTemplate_declared {schema : Schema} {t : Template} {statics : List Static} {progress : Progress}
    (lowered : lowerTemplate schema t = .ok (statics, progress)) :
    ∃ ids mid after, (assignIdents t).run reservedTable = .ok (ids, mid) ∧
      Declared ids mid ((entriesOf t).map fun key => ids.of key.1 key.2) statics after := by
  obtain ⟨ids, mid, resources, after, assigned, run, rfl⟩ := lowerTemplate_eq_ok lowered
  refine ⟨ids, mid, after, assigned, ?_⟩
  have parameters : Declared ids after _ (t.parameters.map fun e => parameterStatic ids e.1 e.2) after :=
    .each (fun _ _ => rfl) (fun _ _ => rfl) (fun name a => (parameterStatic_body name a).plain) after
  have mappings : Declared ids after _ (t.mappings.map fun e => mappingStatic ids e.1 e.2) after :=
    .each (fun _ _ => rfl) (fun _ _ => rfl) (fun name a => (mappingStatic_body name a).plain) after
  have conditions : Declared ids after _ (t.conditions.map fun e => conditionStatic ids e.1 e.2) after :=
    .each (fun _ _ => rfl) (fun _ _ => rfl) (fun name a => (conditionStatic_body name a).plain) after
  have outputs : Declared ids after _ (t.outputs.map fun e => outputStatic ids e.1 e.2) after :=
    .each (fun _ _ => rfl) (fun _ _ => rfl) (fun name a => (outputStatic_body name a).plain) after
  rw [entriesOf_map t ids.of]
  exact (lowerResources_declared run).append (((parameters.append mappings).append conditions).append outputs)

section Distinct

variable {schema : Schema} {t : Template} {statics : List Static} {progress : Progress}

/-- The declarations of entries have the identifiers that were assigned, in the order of the entries. -/
theorem topIdents_eq_idents (distinct : (entriesOf t).Nodup) (assigned : (assignIdents t).run before = .ok (ids, mid))
    (declared : Declared ids mid ((entriesOf t).map fun key => ids.of key.1 key.2) statics after) :
    topIdents statics = ids.idents := by
  obtain ⟨keys, -, -⟩ := assignIdents_takes assigned
  rw [topIdents, declared.unfolds.roots_eq rfl, ← keys, ids.map_of (keys ▸ distinct)]

/-- The identifiers of all declarations differ, from each other and from the reserved names: each was
    free when it was taken. -/
theorem lowerTemplate_nodup (distinct : (entriesOf t).Nodup)
    (lowered : lowerTemplate schema t = .ok (statics, progress)) : (idents statics ++ reservedNames).Nodup := by
  obtain ⟨ids, mid, after, assigned, declared⟩ := lowerTemplate_declared lowered
  obtain ⟨-, -, takes⟩ := assignIdents_takes assigned
  let parts := idents (statics.filter (! ·.topLevel))
  have split : (idents statics).Perm (ids.idents ++ parts) := by
    rw [← topIdents_eq_idents distinct assigned declared, topIdents, ← idents_append]
    exact (List.filter_append_perm (·.topLevel) statics).symm.map _
  have reserved : reservedTable.taken = reservedNames.reverse := by decide
  have listed : after.taken = (ids.idents ++ parts).reverse ++ reservedNames.reverse := by
    rw [declared.takes.taken, takes.taken, List.reverse_append, List.append_assoc, reserved]
  have taken : after.taken.Nodup := declared.takes.distinct (takes.distinct (by decide))
  refine List.Perm.nodup ?_ taken
  rw [listed]
  exact ((List.reverse_perm _).trans split.symm).append (List.reverse_perm _)

/-- The declarations of a template form a forest. -/
theorem lowerTemplate_forest (distinct : (entriesOf t).Nodup)
    (lowered : lowerTemplate schema t = .ok (statics, progress)) : IsForest statics := by
  obtain ⟨ids, mid, after, assigned, declared⟩ := lowerTemplate_declared lowered
  refine ⟨?distinct, ?unfolds, ?named⟩
  case distinct => exact (lowerTemplate_nodup distinct lowered).of_append_left
  case unfolds =>
    rw [topIdents, declared.unfolds.roots_eq rfl]
    exact declared.unfolds
  case named =>
    rw [topIdents_eq_idents distinct assigned declared]
    exact declared.named

end Distinct

/-- Once the cycles of a template's declarations are broken, no declaration goes through itself, and
    no reference was found that leads back and cannot be made by name. All other references are kept,
    and those that are broken were on a cycle. The entries differ, since sections are maps. -/
theorem breakCycles_acyclic {schema : Schema} {t : Template} {statics : List Static} {progress : Progress}
    (distinct : (entriesOf t).Nodup) (lowered : lowerTemplate schema t = .ok (statics, progress)) :
    (∀ ident, ¬ Relation.TransGen (GoesThrough (breakCycles statics).1) ident ident) ∧ (walk statics).stuck = [] ∧
      (∀ source target, GoesThrough (breakCycles statics).1 source target ↔
        GoesThrough statics source target ∧ ⟨source, target⟩ ∉ (breakCycles statics).2) ∧
      ∀ edge ∈ (breakCycles statics).2, GoesThrough statics edge.source edge.target ∧
        Relation.ReflTransGen (GoesThrough statics) edge.target edge.source := by
  have forest := lowerTemplate_forest distinct lowered
  exact ⟨forest.acyclic, (walk_settled forest).1.stuck, goesThrough_breakCycles_iff forest,
    fun _ => goesThrough_of_broken forest⟩

/-- A queue, part of which refers to a topic that refers to the queue. -/
def loopTemplate : Template :=
  { Template.empty with
    resources := [
      ("Queue", { type := "AWS::SQS::Queue",
                  properties := .obj [("Redrive", .obj [("Arn", .fn (.getAtt ⟨"Topic", "Arn"⟩))])] }),
      ("Topic", { type := "AWS::SNS::Topic", properties := .obj [("Name", .fn (.ref "Queue"))] })] }

theorem breakCycles_acyclic_loop :
    (entriesOf loopTemplate).Nodup ∧ ∃ statics progress, lowerTemplate .inferred loopTemplate = .ok (statics, progress) ∧
      idents statics = ["Queue", "QueueRedrive", "Topic"] ∧ (breakCycles statics).2 = [⟨"Topic", "Queue"⟩] ∧
      (∀ ident, ¬ Relation.TransGen (GoesThrough (breakCycles statics).1) ident ident) ∧ (walk statics).stuck = [] := by
  have distinct : (entriesOf loopTemplate).Nodup := by decide
  have computed : ((lowerTemplate .inferred loopTemplate).toOption.map fun r => (idents r.1, (breakCycles r.1).2)) =
      some (["Queue", "QueueRedrive", "Topic"], [⟨"Topic", "Queue"⟩]) := by decide +kernel
  cases lowered : lowerTemplate .inferred loopTemplate with
  | error _ => rw [lowered] at computed; cases computed
  | ok r =>
    obtain ⟨statics, progress⟩ := r
    rw [lowered] at computed
    obtain ⟨names, broken⟩ := Prod.mk.inj (Option.some.inj computed)
    obtain ⟨acyclic, stuck, -, -⟩ := breakCycles_acyclic distinct lowered
    exact ⟨distinct, statics, progress, rfl, names, broken, acyclic, stuck⟩

/-- All declarations, of entries and of their parts, have identifiers of their own, which no generated
    file imports. The entries are declared in order, each under its own name as far as that is free. -/
theorem lowerTemplate_idents_distinct {schema : Schema} {t : Template} {statics : List Static} {progress : Progress}
    (distinct : (entriesOf t).Nodup) (lowered : lowerTemplate schema t = .ok (statics, progress)) :
    (idents statics).Nodup ∧ (∀ s ∈ statics, s.ident ∉ reservedNames) ∧
      List.Forall₂ (fun key s => IsIdentFor key.1 key.2 s.ident) (entriesOf t) (statics.filter (·.topLevel)) := by
  have nodup := lowerTemplate_nodup distinct lowered
  refine ⟨nodup.of_append_left, ?apart, ?named⟩
  case apart =>
    intro s member reserved
    exact List.disjoint_of_nodup_append nodup (List.mem_map_of_mem member) reserved
  case named =>
    obtain ⟨ids, mid, after, assigned, declared⟩ := lowerTemplate_declared lowered
    obtain ⟨keys, named, -⟩ := assignIdents_takes assigned
    have each : List.Forall₂ (fun key ident => IsIdentFor key.1 key.2 ident) (entriesOf t) (topIdents statics) := by
      rw [topIdents_eq_idents distinct assigned declared, ← keys]
      exact List.forall₂_map_left_iff.mpr (List.forall₂_map_right_iff.mpr (List.forall₂_same.mpr named))
    exact List.forall₂_map_right_iff.mp each

/-- A queue with the name of a type that is imported. Both forms of its property take a name that
    another queue has, and a condition has the name of the queue. -/
def clashTemplate : Template :=
  { Template.empty with
    resources := [
      ("Tag", { type := "AWS::SQS::Queue",
                properties := .obj [("Dlq", .fn (.cond "Tag" (.obj [("A", .null)]) (.obj [("A", .null)])))] }),
      ("Tag2Dlq", { type := "AWS::SQS::Queue", properties := .null })]
    conditions := [("Tag", .fn (.equals (.str "a") (.str "b")))] }

theorem lowerTemplate_idents_distinct_clash :
    (entriesOf clashTemplate).Nodup ∧ ∃ statics progress, lowerTemplate .inferred clashTemplate = .ok (statics, progress) ∧
      idents statics = ["Tag2", "Tag2Dlq2", "Tag2Dlq3", "Tag2Dlq", "TagCondition"] ∧
      (idents statics).Nodup ∧ (∀ s ∈ statics, s.ident ∉ reservedNames) ∧
      List.Forall₂ (fun key s => IsIdentFor key.1 key.2 s.ident) (entriesOf clashTemplate)
        (statics.filter (·.topLevel)) := by
  have distinct : (entriesOf clashTemplate).Nodup := by decide
  have computed : ((lowerTemplate .inferred clashTemplate).toOption.map fun r => idents r.1) =
      some ["Tag2", "Tag2Dlq2", "Tag2Dlq3", "Tag2Dlq", "TagCondition"] := by decide +kernel
  cases lowered : lowerTemplate .inferred clashTemplate with
  | error _ => rw [lowered] at computed; cases computed
  | ok r =>
    obtain ⟨statics, progress⟩ := r
    rw [lowered] at computed
    exact ⟨distinct, statics, progress, rfl, Option.some.inj computed, lowerTemplate_idents_distinct distinct lowered⟩

end StackCompiler.Import
