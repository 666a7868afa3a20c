import StackCompiler.Proofs.Import.Entry

/-!
Where the declarations of parts stand. Each comes after the declaration that holds it, with nothing
between the two but what the same declaration holds, directly or through other parts
(`FollowsHolder`). In declarations that unfold from roots, this is so for all but the roots
(`Unfolds.followsHolder`).
-/
namespace StackCompiler.Import

/-- The initialiser of the declaration `holder` holds the part `part`. -/
def Holds (statics : List Static) (holder part : String) : Prop :=
  ∃ s ∈ statics, s.ident = holder ∧ part ∈ s.held

/-- `s` comes after a declaration of its group that holds it, and only parts of that one are between them. -/
def FollowsHolder (statics : List Static) (s : Static) : Prop :=
  ∃ before holder between after, statics = before ++ holder :: (between ++ s :: after) ∧ s.ident ∈ holder.held ∧
    s.group = holder.group ∧ ∀ part ∈ between, Relation.TransGen (Holds statics) holder.ident part.ident

variable {statics parts others : List Static} {s : Static} {topLevel : Bool} {roots : List String} {holder part : String}

theorem Holds.mono (subset : parts ⊆ statics) (holds : Holds parts holder part) : Holds statics holder part := by
  obtain ⟨s, member, same, held⟩ := holds
  exact ⟨s, subset member, same, held⟩

theorem FollowsHolder.append_left (follows : FollowsHolder statics s) (others : List Static) :
    FollowsHolder (others ++ statics) s := by
  obtain ⟨before, holder, between, after, rfl, held, group, inner⟩ := follows
  refine ⟨others ++ before, holder, between, after, by rw [List.append_assoc], held, group, fun part member => ?_⟩
  exact Relation.TransGen.mono (fun _ _ => Holds.mono (List.subset_append_right _ _)) _ _ (inner part member)

theorem FollowsHolder.append_right (follows : FollowsHolder statics s) (others : List Static) :
    FollowsHolder (statics ++ others) s := by
  obtain ⟨before, holder, between, after, rfl, held, group, inner⟩ := follows
  refine ⟨before, holder, between, after ++ others, by simp, held, group, fun part member => ?_⟩
  exact Relation.TransGen.mono (fun _ _ => Holds.mono (List.subset_append_left _ _)) _ _ (inner part member)

namespace Unfolds

/-- Every declaration is a root or held by one, directly or through others. -/
theorem descends (unfolds : Unfolds topLevel roots statics) :
    ∀ s ∈ statics, ∃ root ∈ roots, Relation.ReflTransGen (Holds statics) root s.ident := by
  refine unfolds.all (P := fun ident => ∃ root ∈ roots, Relation.ReflTransGen (Holds statics) root ident)
    (fun root member => ⟨root, member, .refl⟩) ?_
  rintro s member ⟨root, isRoot, path⟩ ident held
  exact ⟨root, isRoot, path.tail ⟨s, member, rfl, held⟩⟩

/-- What a declaration holds follows it, and all that comes between is held by it as well. -/
theorem root_followsHolder (inner : Unfolds false s.held parts) (together : ∀ part ∈ parts, part.group = s.group)
    {part : Static} (member : part ∈ parts) (held : part.ident ∈ s.held) : FollowsHolder (s :: parts) part := by
  obtain ⟨between, after, split⟩ := List.append_of_mem member
  refine ⟨[], s, between, after, by rw [split, List.nil_append], held, together part member, fun other inside => ?_⟩
  have insideParts : other ∈ parts := split ▸ List.mem_append_left _ inside
  obtain ⟨root, isRoot, path⟩ := inner.descends other insideParts
  have first : Holds (s :: parts) s.ident root := ⟨s, List.mem_cons_self, rfl, isRoot⟩
  have rest : Relation.ReflTransGen (Holds (s :: parts)) root other.ident :=
    Relation.ReflTransGen.mono (fun _ _ => Holds.mono (List.subset_cons_self _ _)) _ _ path
  exact .head' first rest

/-- Every declaration but the roots follows the one that holds it. -/
theorem followsHolder (unfolds : Unfolds topLevel roots statics) :
    ∀ s ∈ statics, s.ident ∈ roots ∨ FollowsHolder statics s := by
  induction unfolds with
  | nil => exact List.forall_mem_nil _
  | @cons _ s roots parts rest _ together inner _ ihInner ihRest =>
    rw [List.forall_mem_cons, List.forall_mem_append]
    refine ⟨.inl List.mem_cons_self, fun part member => .inr ?_, fun other member => ?_⟩
    · have inside : FollowsHolder (s :: parts) part := by
        -- A root inside is held by `s` itself, and the others stay where they are.
        rcases ihInner part member with held | follows
        · exact inner.root_followsHolder together member held
        · exact follows.append_left [s]
      exact inside.append_right rest
    · rcases ihRest other member with isRoot | follows
      · exact .inl (List.mem_cons_of_mem _ isRoot)
      · exact .inr (follows.append_left (s :: parts))

end Unfolds

namespace IsForest

theorem not_mem_topIdents (forest : IsForest statics) (member : s ∈ statics) (part : s.topLevel = false) :
    s.ident ∉ topIdents statics := by
  intro top
  obtain ⟨other, listed, same⟩ := List.mem_map.mp top
  obtain ⟨member', isTop⟩ := List.mem_filter.mp listed
  obtain rfl := forest.eq_of_ident member' member same
  rw [part] at isTop
  cases isTop

/-- Of all nodes that go through parts, one goes through a given part. -/
theorem count_held (forest : IsForest statics) (member : s ∈ statics) (part : s.topLevel = false) :
    (statics.flatMap (·.held)).count s.ident = 1 := by
  have once : (idents statics).count s.ident = 1 :=
    List.count_eq_one_of_mem forest.distinct (List.mem_map_of_mem member)
  rw [forest.unfolds.perm.count_eq, List.count_append, List.count_eq_zero_of_not_mem (forest.not_mem_topIdents member part),
    Nat.zero_add] at once
  exact once

/-- What is held is the declaration of a part. -/
theorem exists_part (forest : IsForest statics) (member : s ∈ statics) {ident : String} (held : ident ∈ s.held) :
    ∃ part ∈ statics, part.ident = ident ∧ part.topLevel = false := by
  obtain ⟨part, listed, rfl⟩ := List.mem_map.mp (forest.held_declared member held)
  refine ⟨part, listed, rfl, ?_⟩
  by_contra top
  rw [Bool.not_eq_false] at top
  exact forest.held_not_top member held (List.mem_map_of_mem (List.mem_filter.mpr ⟨listed, top⟩))

end IsForest

/-- The declarations of a template's parts form a forest in the order in which they are written. One node
    in all initialisers goes through each of them, in a declaration of the same file that stands before it
    with only its own parts between; and every such node goes through the declaration of a part. -/
theorem lowerTemplate_parts_follow {schema : Schema} {t : Template} {statics : List Static} {progress : Progress}
    (distinct : (entriesOf t).Nodup) (lowered : lowerTemplate schema t = .ok (statics, progress)) :
    (∀ s ∈ statics, s.topLevel = false → (statics.flatMap (·.held)).count s.ident = 1 ∧ FollowsHolder statics s) ∧
      ∀ s ∈ statics, ∀ ident ∈ s.held, ∃ part ∈ statics, part.ident = ident ∧ part.topLevel = false := by
  have forest := lowerTemplate_forest distinct lowered
  refine ⟨fun s member part => ⟨forest.count_held member part, ?_⟩, fun s member ident => forest.exists_part member⟩
  exact (forest.unfolds.followsHolder s member).resolve_left (forest.not_mem_topIdents member part)

/-- A queue with a part inside a part, and another in each branch of a choice. -/
def partsTemplate : Template :=
  { Template.empty with
    resources := [
      ("Queue", { type := "AWS::SQS::Queue",
                  properties := .obj [
                    ("Redrive", .obj [("Target", .obj [("Arn", .str "a")])]),
                    ("Rule", .arr [.fn (.cond "C" (.obj [("A", .null)]) (.obj [("A", .null)])), .obj [("A", .null)]])] })] }

theorem lowerTemplate_parts_follow_rules :
    (entriesOf partsTemplate).Nodup ∧ ∃ statics progress, lowerTemplate .inferred partsTemplate = .ok (statics, progress) ∧
      idents statics = ["Queue", "QueueRedrive", "QueueRedriveTarget", "QueueRule", "QueueRule2", "QueueRule3"] ∧
      ∀ s ∈ statics, s.topLevel = false → (statics.flatMap (·.held)).count s.ident = 1 ∧ FollowsHolder statics s := by
  have distinct : (entriesOf partsTemplate).Nodup := by decide
  have computed : ((lowerTemplate .inferred partsTemplate).toOption.map fun r => idents r.1) =
      some ["Queue", "QueueRedrive", "QueueRedriveTarget", "QueueRule", "QueueRule2", "QueueRule3"] := by decide +kernel
  cases lowered : lowerTemplate .inferred partsTemplate with
  | error _ => rw [lowered] at computed; cases computed
  | ok r =>
    obtain ⟨statics, progress⟩ := r
    rw [lowered] at computed
    exact ⟨distinct, statics, progress, rfl, Option.some.inj computed, (lowerTemplate_parts_follow distinct lowered).1⟩

end StackCompiler.Import
