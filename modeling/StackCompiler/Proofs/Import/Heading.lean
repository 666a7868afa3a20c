import StackCompiler.Import.SourceTree
import StackCompiler.Proofs.Import.Lowering
import StackCompiler.Proofs.Import.Progress

/-!
What stands above the declarations of a template, and how lowering ends. Only entries have
documentation or a comment: every entry has one declaration, whose heading says what it is
(`headings`), and the declarations of parts have none (`isPart_steps`).
-/
namespace StackCompiler.Import

open Rust (Expr NameTable)

/-! ### Parts -/

/-- The declaration of a part: it has neither documentation nor a comment. -/
structure IsPart (s : Static) : Prop where
  inner : s.topLevel = false
  docs : s.docs = []
  comment : s.comment = none

theorem isPart_steps (scope : Scope) : Steps scope (fun _ _ _ _ _ statics _ => ∀ s ∈ statics, IsPart s)
    (fun _ _ _ _ _ statics _ => ∀ s ∈ statics, IsPart s) (fun _ _ _ _ _ statics _ => ∀ s ∈ statics, IsPart s) where
  leaf _ _ := List.forall_mem_nil _
  choice _ first second := List.forall_mem_append.mpr ⟨first, second⟩
  list _ each := each
  nested _ _ _ each := List.forall_mem_cons.mpr ⟨⟨rfl, rfl, rfl⟩, each⟩
  noItems _ _ _ := List.forall_mem_nil _
  item first later := List.forall_mem_append.mpr ⟨first, later⟩
  noFields _ _ _ := List.forall_mem_nil _
  field first later := List.forall_mem_append.mpr ⟨first, later⟩

/-- Only declarations of parts are made for properties, and only a specification lets this fail. -/
theorem lowerProperties_ends (scope : Scope) (type ident : String) (v : Value) (before : NameTable) :
    Ends (scope.schema ≠ .inferred) before (fun result _ => ∀ s ∈ result.2, IsPart s) (lowerProperties scope type ident v) := by
  cases v with
  | obj members => exact (isPart_steps scope).fields_ends _ _ members before
  | _ => exact .pure (List.forall_mem_nil _)

/-! ### Entries -/

/-- The type of a declaration and what is written above it. -/
structure Heading where
  type : String
  docs : List String := []
  comment : Option String := none

def Static.heading (s : Static) : Heading := ⟨s.type, s.docs, s.comment⟩

/-- The type of a resource's declaration, unless there is none for it. -/
def resourceType? (schema : Schema) (r : Resource) : Option DeclaredType :=
  (DeclaredType.ofCanonical? r.type).filter fun _ => schema.supports r.type

def unsupported (r : Resource) : String := "unsupported resource type " ++ r.type

def resourceHeading (schema : Schema) (r : Resource) : Heading :=
  match resourceType? schema r with
  | some declared => { type := Rust.fieldName declared.ns.short ++ "::" ++ declared.kind, docs := [r.type] }
  | none => { type := "RawResource", comment := some (unsupported r) }

/-- The stages to which a resource is moved while it is lowered. -/
def stagesOf (schema : Schema) (r : Resource) : List Stage :=
  match resourceType? schema r with
  | some _ => [.typeResolved, .valueFlattened]
  | none => [.skipped (unsupported r)]

def resourceHeadings (schema : Schema) (resources : List (String × Resource)) : List ((EntryKind × String) × Heading) :=
  resources.map fun e => ((.resource, e.1), resourceHeading schema e.2)

def parameterHeading (p : Parameter) : Heading := { type := "Parameter", docs := p.description.toList }

def outputHeading (o : Output) : Heading := { type := "Output", docs := o.description.toList }

def otherHeadings (t : Template) : List ((EntryKind × String) × Heading) :=
  t.parameters.map (fun e => ((.parameter, e.1), parameterHeading e.2))
    ++ t.mappings.map (fun e => ((.mapping, e.1), { type := "Mapping" }))
    ++ t.conditions.map (fun e => ((.condition, e.1), { type := "Condition" }))
    ++ t.outputs.map (fun e => ((.output, e.1), outputHeading e.2))

/-- The entries of a template with the headings of their declarations. -/
def headings (schema : Schema) (t : Template) : List ((EntryKind × String) × Heading) :=
  resourceHeadings schema t.resources ++ otherHeadings t

theorem headings_keys (schema : Schema) (t : Template) : (headings schema t).map (·.1) = entriesOf t := by
  simp [headings, resourceHeadings, otherHeadings, entriesOf, memberNames, Function.comp_def]

/-- Declarations of entries under their headings, each before those of its parts. -/
structure Headed (ids : Identifiers) (entries : List ((EntryKind × String) × Heading)) (statics : List Static) : Prop where
  tops : (statics.filter (·.topLevel)).map (fun s => (s.ident, s.heading)) =
    entries.map fun e => (ids.of e.1.1 e.1.2, e.2)
  parts : ∀ s ∈ statics, s.topLevel = false → IsPart s

namespace Headed

variable {ids : Identifiers} {entries more : List ((EntryKind × String) × Heading)} {statics others : List Static}

theorem nil (ids : Identifiers) : Headed ids [] [] := ⟨rfl, List.forall_mem_nil _⟩

theorem append (first : Headed ids entries statics) (second : Headed ids more others) :
    Headed ids (entries ++ more) (statics ++ others) where
  tops := by rw [List.filter_append, List.map_append, List.map_append, first.tops, second.tops]
  parts := List.forall_mem_append.mpr ⟨first.parts, second.parts⟩

/-- The declaration of an entry before those of its parts. -/
theorem entry {kind : EntryKind} {logical : String} {heading : Heading} {s : Static} (own : s.ident = ids.of kind logical)
    (head : s.heading = heading) (top : s.topLevel = true) (parts : ∀ part ∈ statics, IsPart part) :
    Headed ids [((kind, logical), heading)] (s :: statics) where
  tops := by
    have none : statics.filter (·.topLevel) = [] := by
      rw [List.filter_eq_nil_iff]
      exact fun part member => by simp [(parts part member).inner]
    simp [top, none, own, head]
  parts := by
    refine List.forall_mem_cons.mpr ⟨fun part => ?_, fun part member _ => parts part member⟩
    rw [top] at part
    cases part

/-- Entries of one kind whose declarations have no parts. -/
theorem each {α : Type} {kind : EntryKind} (declare : String → α → Static) (heading : α → Heading)
    (own : ∀ name a, (declare name a).ident = ids.of kind name) (head : ∀ name a, (declare name a).heading = heading a)
    (top : ∀ name a, (declare name a).topLevel = true) (entries : List (String × α)) :
    Headed ids (entries.map fun e => ((kind, e.1), heading e.2)) (entries.map fun e => declare e.1 e.2) := by
  induction entries with
  | nil => exact .nil ids
  | cons first rest ih =>
    obtain ⟨name, a⟩ := first
    exact (Headed.entry (own name a) (head name a) (top name a) (List.forall_mem_nil _)).append ih

end Headed

theorem otherStatics_headed (ids : Identifiers) (t : Template) : Headed ids (otherHeadings t) (otherStatics ids t) := by
  have parameters := Headed.each (parameterStatic ids) parameterHeading (fun _ _ => rfl) (fun _ _ => rfl) (fun _ _ => rfl)
  have mappings := Headed.each (mappingStatic ids) (fun _ => { type := "Mapping" }) (fun _ _ => rfl) (fun _ _ => rfl)
    (fun _ _ => rfl)
  have conditions := Headed.each (conditionStatic ids) (fun _ => { type := "Condition" }) (fun _ _ => rfl) (fun _ _ => rfl)
    (fun _ _ => rfl)
  have outputs := Headed.each (outputStatic ids) outputHeading (fun _ _ => rfl) (fun _ _ => rfl) (fun _ _ => rfl)
  exact (((parameters t.parameters).append (mappings t.mappings)).append (conditions t.conditions)).append
    (outputs t.outputs)

/-- A resource has one declaration with its heading, and others for parts. -/
theorem lowerResource_ends (ids : Identifiers) (schema : Schema) (logical : String) (r : Resource) (before : NameTable) :
    Ends (schema ≠ .inferred) before (fun result _ =>
      Headed ids [((.resource, logical), resourceHeading schema r)] result.1 ∧ result.2 = stagesOf schema r)
      (lowerResource ids schema logical r) := by
  have typed : (DeclaredType.ofCanonical? r.type).filter (fun _ => schema.supports r.type) = resourceType? schema r := rfl
  rw [lowerResource, typed, resourceHeading, stagesOf]
  cases resourceType? schema r with
  | none => exact Ends.pure ⟨.entry rfl rfl rfl (List.forall_mem_nil _), rfl⟩
  | some declared =>
    refine Ends.bind (lowerProperties_ends _ _ _ r.properties before) fun result _ parts => ?_
    exact Ends.pure ⟨.entry rfl rfl rfl parts, rfl⟩

/-- The moves that are made while resources are lowered. -/
def loweringMoves (schema : Schema) (resources : List (String × Resource)) : List Move :=
  resources.flatMap fun e => (stagesOf schema e.2).map (.one e.1)

theorem lowerResources_ends (ids : Identifiers) (schema : Schema) (resources : List (String × Resource)) (start : Progress)
    (before : NameTable) : Ends (schema ≠ .inferred) before (fun result _ => Headed ids (resourceHeadings schema resources) result.1 ∧
      result.2 = (loweringMoves schema resources).foldl .apply start) (lowerResources ids schema resources start) := by
  induction resources generalizing start before with
  | nil => exact .pure ⟨.nil ids, rfl⟩
  | cons entry rest ih =>
    obtain ⟨logical, r⟩ := entry
    rw [lowerResources]
    refine .bind (lowerResource_ends ids schema logical r before) fun first _ ⟨own, stages⟩ => ?_
    refine .bind (ih _ _) fun later _ ⟨others, moves⟩ => .pure ⟨own.append others, ?_⟩
    have all : loweringMoves schema ((logical, r) :: rest) =
        (stagesOf schema r).map (.one logical) ++ loweringMoves schema rest := List.flatMap_cons
    rw [moves, stages, all, List.foldl_append, List.foldl_map]
    rfl

/-- What is lowered from a template has the headings of its entries. -/
theorem lowerTemplate_headed {schema : Schema} {t : Template} {statics : List Static} {progress : Progress}
    (lowered : lowerTemplate schema t = .ok (statics, progress)) :
    ∃ ids table, (assignIdents t).run reservedTable = .ok (ids, table) ∧ Headed ids (headings schema t) statics ∧
      progress = (loweringMoves schema t.resources).foldl .apply (.start (memberNames t.resources)) := by
  obtain ⟨ids, table, resources, after, assigned, run, rfl⟩ := lowerTemplate_eq_ok lowered
  obtain ⟨headed, moves⟩ := (lowerResources_ends ids schema t.resources _ table).of_run run
  exact ⟨ids, table, assigned, headed.append (otherStatics_headed ids t), moves⟩

theorem headed_breakCycles {ids : Identifiers} {entries : List ((EntryKind × String) × Heading)} {statics : List Static}
    (headed : Headed ids entries statics) : Headed ids entries (breakCycles statics).1 where
  tops := by
    rw [← headed.tops, breakCycles, List.filter_map, List.map_map]
    rfl
  parts := by
    refine List.forall_mem_map.mpr fun s member part => ?_
    obtain ⟨inner, docs, comment⟩ := headed.parts s member part
    exact ⟨inner, docs, comment⟩

theorem generate_eq_ok (schema : Schema) (package : String) (t : Template) (g : Generated) :
    generate schema package t = .ok g ↔ ∃ statics progress, lowerTemplate schema t = .ok (statics, progress) ∧
      ⟨renderFiles package (breakCycles statics).1,
        (progress.advanceAll .valueFlattened .cyclesBroken).advanceAll .cyclesBroken .emitted, (breakCycles statics).2⟩ = g := by
  simp only [generate, bind_eq_ok, pure_eq_ok, Prod.exists]

end StackCompiler.Import
