import StackCompiler.Proofs.Import.Forest
import StackCompiler.Proofs.Import.Steps
import StackCompiler.Proofs.Rust.NameTable

/-!
What lowering makes of a value. Its initialiser goes through entries by references that
can be made by name, and otherwise through declarations that are made for its parts, each
under a name of its own (`Lowered`). Every step of lowering keeps to this (`lowered_steps`).
-/
namespace StackCompiler.Import

open Rust (Expr NameTable)
open Rust.NameTable (Takes)

/-! ### References -/

def Identifiers.idents (ids : Identifiers) : List String := ids.entries.map (·.2)

variable {ids : Identifiers}

theorem Identifiers.mem_idents_of_find? {kind : EntryKind} {logical ident : String}
    (found : ids.find? kind logical = some ident) : ident ∈ ids.idents :=
  List.mem_map_of_mem (mem_of_lookup found)

theorem Identifiers.mem_idents_of_ofReference? {logical ident : String} (found : ids.ofReference? logical = some ident) :
    ident ∈ ids.idents := by
  unfold ofReference? at found
  cases parameter : ids.find? .parameter logical with
  | some other =>
    obtain rfl : other = ident := by simpa [parameter] using found
    exact mem_idents_of_find? parameter
  | none =>
    have resource : ids.find? .resource logical = some ident := by simpa [parameter] using found
    exact mem_idents_of_find? resource

theorem Identifiers.mem_idents_of_ofAttribute? {logical ident : String} (found : ids.ofAttribute? logical = some ident) :
    ident ∈ ids.idents := by
  unfold ofAttribute? at found
  split at found
  · exact mem_idents_of_ofReference? found
  · cases found

/-- Every reference goes through an entry and can be made by name. -/
def Plain (ids : Identifiers) (e : Expr) : Prop :=
  ∀ r ∈ e.directReferences, r.2 = true ∧ r.1 ∈ ids.idents

theorem plain_iff_of_items {e : Expr} {items : List Expr} (refs : e.directReferences = Expr.itemReferences items) :
    Plain ids e ↔ ∀ w ∈ items, Plain ids w := by
  rw [Plain, refs, Expr.itemReferences_eq_flatMap, List.forall_mem_flatMap]
  rfl

theorem plain_iff_of_fields {e : Expr} {fields : List (String × Expr)}
    (refs : e.directReferences = Expr.fieldReferences fields) : Plain ids e ↔ ∀ w ∈ fields.map (·.2), Plain ids w := by
  rw [Plain, refs, Expr.fieldReferences_eq_flatMap, List.forall_mem_flatMap]
  rfl

theorem Initial.plain {e : Expr} (initial : Initial ids e) : Plain ids e := by
  induction e using Expr.node_induction with
  | step e ih =>
    obtain ⟨own, each⟩ := (Expr.everywhere_iff _ e).mp initial
    have inside (w : Expr) (child : Expr.Child w e) : Plain ids w := ih w child (each w child)
    cases e with
    | str _ | literal _ | json _ => exact List.forall_mem_nil _
    | static _ | struct _ _ => exact own.elim
    | ref target slot =>
      subst own
      rw [Plain, Expr.directReferences_ref]
      simpa using fun ident found => Identifiers.mem_idents_of_ofReference? found
    | attr target name slot =>
      subst own
      rw [Plain, Expr.directReferences_attr]
      simpa using fun ident found => Identifiers.mem_idents_of_ofAttribute? found
    | list _ | call _ _ => exact (plain_iff_of_items rfl).mpr inside
    | pairs fields => exact (plain_iff_of_fields rfl).mpr inside
    | some inner => exact inside inner rfl

/-! ### Lowered values -/

/-- What lowering makes of a value or of several: initialisers with the references `refs`, and
    the declarations that these need, which are of one group and for which names are taken. -/
structure Lowered (ids : Identifiers) (group : FileGroup) (before : NameTable) (refs : List (String × Bool))
    (statics : List Static) (after : NameTable) : Prop where
  takes : Takes before (idents statics) after
  unfolds : Unfolds false (heldOf refs) statics
  grouped : ∀ s ∈ statics, s.group = group
  named : ∀ ident, (ident, true) ∈ refs → ident ∈ ids.idents
  namedInside : ∀ s ∈ statics, ∀ ident, (ident, true) ∈ s.body.directReferences → ident ∈ ids.idents

namespace Lowered

variable {group : FileGroup} {before mid after : NameTable} {refs more : List (String × Bool)}
  {statics others : List Static}

theorem append (first : Lowered ids group before refs statics mid) (second : Lowered ids group mid more others after) :
    Lowered ids group before (refs ++ more) (statics ++ others) after where
  takes := idents_append statics others ▸ first.takes.append second.takes
  unfolds := heldOf_append refs more ▸ first.unfolds.append second.unfolds
  grouped := List.forall_mem_append.mpr ⟨first.grouped, second.grouped⟩
  named := fun ident direct => (List.mem_append.mp direct).elim (first.named ident) (second.named ident)
  namedInside := List.forall_mem_append.mpr ⟨first.namedInside, second.namedInside⟩

theorem plain (plain : ∀ r ∈ refs, r.2 = true ∧ r.1 ∈ ids.idents) (table : NameTable) :
    Lowered ids group table refs [] table where
  takes := .none table
  unfolds := (heldOf_eq_nil fun r direct => (plain r direct).1) ▸ .nil
  grouped := List.forall_mem_nil _
  named := fun _ direct => (plain _ direct).2
  namedInside := List.forall_mem_nil _

/-- A declaration that is made for a part, before those of its own parts. -/
theorem nested {base : String} {s : Static} (derived : before.derive base = (s.ident, mid)) (part : s.topLevel = false)
    (inner : Lowered ids s.group mid s.body.directReferences statics after) :
    Lowered ids s.group before [(s.ident, false)] (s :: statics) after where
  takes := (Takes.derive derived).append inner.takes
  unfolds := by
    have one : Unfolds false [s.ident] (s :: (statics ++ [])) := .cons part inner.grouped inner.unfolds .nil
    rwa [List.append_nil] at one
  grouped := List.forall_mem_cons.mpr ⟨rfl, inner.grouped⟩
  named := fun _ direct => by simp at direct
  namedInside := List.forall_mem_cons.mpr ⟨inner.named, inner.namedInside⟩

end Lowered

theorem inLists_references (depth : Nat) (e : Expr) : (inLists depth e).directReferences = e.directReferences := by
  induction depth with
  | zero => rfl
  | succ depth ih => rw [inLists, Expr.directReferences, Expr.itemReferences, ih, Expr.itemReferences, List.append_nil]

theorem lowered_steps (scope : Scope) : Steps scope
    (fun _ _ _ before e statics after => Lowered scope.ids scope.group before e.directReferences statics after)
    (fun _ _ _ before entries statics after => Lowered scope.ids scope.group before (Expr.itemReferences entries) statics after)
    (fun _ _ _ before fields statics after => Lowered scope.ids scope.group before (Expr.fieldReferences fields) statics after) where
  leaf leaf table := .plain leaf.initial.plain table
  choice _ first second := by simpa [Expr.directReferences, Expr.itemReferences] using first.append second
  list _ each := each
  nested {spot _ _ _ type _ ident _ fs _ _} _ _ derived each := by
    rw [inLists_references]
    exact Lowered.nested (s := nestedStatic scope spot.context ident type fs) derived rfl each
  noItems _ _ table := .plain (List.forall_mem_nil _) table
  item first later := first.append later
  noFields _ _ table := .plain (List.forall_mem_nil _) table
  field first later := first.append later

/-! ### Templates -/

/-- Identifiers are assigned first, then resources are lowered, and then all else is declared. -/
theorem lowerTemplate_eq_ok {schema : Schema} {t : Template} {statics : List Static} {progress : Progress}
    (lowered : lowerTemplate schema t = .ok (statics, progress)) :
    ∃ ids table resources after, (assignIdents t).run reservedTable = .ok (ids, table) ∧
      (lowerResources ids schema t.resources (.start (memberNames t.resources))).run table =
        .ok ((resources, progress), after) ∧
      statics = resources ++ otherStatics ids t := by
  obtain ⟨⟨_, _⟩, run, rfl⟩ := (map_eq_ok _ _ _).mp lowered
  simp only [run_bind_eq_ok, run_pure_eq_ok, Prod.exists, Prod.mk.injEq] at run
  obtain ⟨ids, table, assigned, resources, _, after, run, ⟨rfl, rfl⟩, rfl⟩ := run
  exact ⟨ids, table, resources, after, assigned, run, rfl⟩

end StackCompiler.Import
