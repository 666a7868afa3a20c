import Mathlib.Data.List.Nodup
import Mathlib.Data.List.Pairwise
import Mathlib.Data.List.Perm.Basic
import StackCompiler.Import.Static
import StackCompiler.Proofs.Rust.References

/-!
Declarations as a forest. A declaration that holds parts is followed by the declarations
of these parts (`Unfolds`). Then each part is held once (`Unfolds.perm`), and whatever
holds of the roots and is handed on to parts holds of all (`Unfolds.all`).
-/
namespace StackCompiler.Import

/-- The declarations that are held: those that are gone through and cannot be named. -/
def heldOf (refs : List (String × Bool)) : List String :=
  (refs.filter (! ·.2)).map (·.1)

@[simp] theorem heldOf_append (refs others : List (String × Bool)) :
    heldOf (refs ++ others) = heldOf refs ++ heldOf others := by
  simp [heldOf]

theorem mem_heldOf {refs : List (String × Bool)} {ident : String} : ident ∈ heldOf refs ↔ (ident, false) ∈ refs := by
  simp [heldOf]

theorem heldOf_eq_nil {refs : List (String × Bool)} (named : ∀ r ∈ refs, r.2 = true) : heldOf refs = [] := by
  simpa [heldOf] using named

def Static.held (s : Static) : List String := heldOf s.body.directReferences

def idents (statics : List Static) : List String := statics.map (·.ident)

@[simp] theorem idents_append (statics others : List Static) : idents (statics ++ others) = idents statics ++ idents others :=
  List.map_append

/-- Declarations with the roots `roots`, each followed by those that it holds, which are of its group. -/
inductive Unfolds : (topLevel : Bool) → (roots : List String) → List Static → Prop
  | nil {topLevel : Bool} : Unfolds topLevel [] []
  | cons {topLevel : Bool} {s : Static} {roots : List String} {parts others : List Static}
      (level : s.topLevel = topLevel) (together : ∀ part ∈ parts, part.group = s.group)
      (inner : Unfolds false s.held parts) (rest : Unfolds topLevel roots others) :
      Unfolds topLevel (s.ident :: roots) (s :: (parts ++ others))

namespace Unfolds

variable {topLevel : Bool} {roots more : List String} {statics others : List Static}

theorem append (first : Unfolds topLevel roots statics) (second : Unfolds topLevel more others) :
    Unfolds topLevel (roots ++ more) (statics ++ others) := by
  induction first with
  | nil => exact second
  | @cons _ s roots parts rest level together inner _ _ ih =>
    rw [List.cons_append, List.cons_append, List.append_assoc]
    exact .cons level together inner (ih second)

/-- The declarations are the roots and whatever is held. -/
theorem perm (unfolds : Unfolds topLevel roots statics) :
    (idents statics).Perm (roots ++ statics.flatMap (·.held)) := by
  induction unfolds with
  | nil => exact .refl _
  | @cons _ s roots parts rest _ _ _ _ inner later =>
    have parted : idents (s :: (parts ++ rest)) = s.ident :: (idents parts ++ idents rest) := by simp [idents]
    rw [parted, List.cons_append, List.flatMap_cons, List.flatMap_append, ← List.append_assoc s.held]
    refine List.Perm.cons _ ?_
    exact (inner.append later).trans (List.perm_append_comm_assoc _ _ _)

/-- What holds of the roots, and of what is held by those of which it holds, holds of all. -/
theorem all {P : String → Prop} (unfolds : Unfolds topLevel roots statics) (start : ∀ ident ∈ roots, P ident)
    (step : ∀ s ∈ statics, P s.ident → ∀ ident ∈ s.held, P ident) : ∀ s ∈ statics, P s.ident := by
  induction unfolds with
  | nil => simp
  | @cons _ s roots parts rest _ _ _ _ inner later =>
    rw [List.forall_mem_cons] at start
    rw [List.forall_mem_cons, List.forall_mem_append] at step ⊢
    exact ⟨start.1, inner (step.1 start.1) step.2.1, later start.2 step.2.2⟩

theorem level (unfolds : Unfolds topLevel roots statics) (part : topLevel = false) :
    ∀ s ∈ statics, s.topLevel = false := by
  induction unfolds with
  | nil => exact List.forall_mem_nil _
  | @cons _ s roots parts rest level _ _ _ inner later =>
    rw [List.forall_mem_cons, List.forall_mem_append]
    exact ⟨level.trans part, inner rfl, later part⟩

/-- The roots are the declarations of entries. -/
theorem roots_eq (unfolds : Unfolds topLevel roots statics) (isTop : topLevel = true) :
    idents (statics.filter (·.topLevel)) = roots := by
  induction unfolds with
  | nil => rfl
  | @cons _ s roots parts rest level _ inner _ _ later =>
    have top : s.topLevel = true := level.trans isTop
    have noneInside : parts.filter (·.topLevel) = [] := by
      rw [List.filter_eq_nil_iff]
      intro part member
      simp [inner.level rfl part member]
    rw [List.filter_cons_of_pos top, List.filter_append, noneInside, List.nil_append]
    exact congrArg (s.ident :: ·) (later isTop)

end Unfolds

/-! ### Declarations of a template -/

/-- The identifiers of the declarations for entries. -/
def topIdents (statics : List Static) : List String := idents (statics.filter (·.topLevel))

/-- The entries are the roots, and only they are gone through by references that can be made by
    name. -/
structure IsForest (statics : List Static) : Prop where
  distinct : (idents statics).Nodup
  unfolds : Unfolds true (topIdents statics) statics
  named : ∀ s ∈ statics, ∀ ident, (ident, true) ∈ s.body.directReferences → ident ∈ topIdents statics

namespace IsForest

variable {statics : List Static} {s other : Static} {ident : String}

theorem eq_of_ident (forest : IsForest statics) (member : s ∈ statics) (too : other ∈ statics)
    (same : s.ident = other.ident) : s = other :=
  List.inj_on_of_nodup_map forest.distinct member too same

theorem roots_and_held (forest : IsForest statics) : (topIdents statics ++ statics.flatMap (·.held)).Nodup :=
  forest.unfolds.perm.nodup_iff.mp forest.distinct

theorem held_declared (forest : IsForest statics) (member : s ∈ statics) (held : ident ∈ s.held) :
    ident ∈ idents statics :=
  forest.unfolds.perm.mem_iff.mpr (List.mem_append_right _ (List.mem_flatMap.mpr ⟨s, member, held⟩))

theorem held_not_top (forest : IsForest statics) (member : s ∈ statics) (held : ident ∈ s.held) :
    ident ∉ topIdents statics := by
  intro top
  have apart := (List.nodup_append.mp forest.roots_and_held).2.2
  exact apart ident top ident (List.mem_flatMap.mpr ⟨s, member, held⟩) rfl

/-- Whether a reference can be made by name depends on where it leads to only. -/
theorem byName_unique (forest : IsForest statics) (member : s ∈ statics) (too : other ∈ statics) {byName byNameToo : Bool}
    (direct : (ident, byName) ∈ s.body.directReferences) (directToo : (ident, byNameToo) ∈ other.body.directReferences) :
    byName = byNameToo := by
  cases byName with
  | true =>
    cases byNameToo with
    | true => rfl
    | false => exact absurd (forest.named s member ident direct) (forest.held_not_top too (mem_heldOf.mpr directToo))
  | false =>
    cases byNameToo with
    | true => exact absurd (forest.named other too ident directToo) (forest.held_not_top member (mem_heldOf.mpr direct))
    | false => rfl

/-- No declaration is held by two. -/
theorem holder_unique (forest : IsForest statics) (member : s ∈ statics) (too : other ∈ statics) (held : ident ∈ s.held)
    (heldToo : ident ∈ other.held) : s = other := by
  by_contra different
  have apart := (List.nodup_flatMap.mp (List.nodup_append.mp forest.roots_and_held).2.1).2
  have symmetric : Std.Symm (Function.onFun List.Disjoint Static.held) :=
    ⟨fun _ _ disjoint _ first second => disjoint second first⟩
  exact apart.forall member too different held heldToo

end IsForest

end StackCompiler.Import
