import Mathlib.Data.List.Chain
import Mathlib.Logic.Relation
import StackCompiler.Proofs.Declaration.GraphOrder

/-!
Graphs without an order. The names that are left when nothing is ready each depend on
another of them. A search that goes from name to name among these keeps the names that it
is done with grounded (`Searched`), and such names cannot be all that are left, so that
the search ends where it comes back to a name of its own trail.
-/
namespace StackCompiler.DependencyGraph

/-- Names of which each depends on the next one, and the last on the first. -/
structure IsCycle (isNode : String → Prop) (dependsOn : String → String → Prop) (names : List String) : Prop where
  nonempty : names ≠ []
  once : names.Nodup
  nodes : ∀ name ∈ names, isNode name
  chain : names.IsChain dependsOn
  closes : ∀ first ∈ names.head?, ∀ last ∈ names.getLast?, dependsOn last first

variable {isNode isNode' : String → Prop} {dependsOn dependsOn' : String → String → Prop} {names : List String}

theorem IsCycle.imp (cycle : IsCycle isNode dependsOn names) (nodes : ∀ name, isNode name → isNode' name)
    (edges : ∀ name other, dependsOn name other → dependsOn' name other) : IsCycle isNode' dependsOn' names :=
  ⟨cycle.nonempty, cycle.once, fun name member => nodes name (cycle.nodes name member), cycle.chain.imp edges,
    fun first isFirst last isLast => edges _ _ (cycle.closes first isFirst last isLast)⟩

/-- A cycle leads from its first name back to it. -/
theorem IsCycle.transGen (cycle : IsCycle isNode dependsOn names) :
    ∃ name, Relation.TransGen dependsOn name name := by
  obtain ⟨nonempty, -, -, chain, closes⟩ := cycle
  cases names with
  | nil => exact absurd rfl nonempty
  | cons first rest =>
    have along : Relation.ReflTransGen dependsOn first ((first :: rest).getLast (by simp)) :=
      List.relationReflTransGen_of_exists_isChain_cons rest chain rfl
    exact ⟨first, Relation.TransGen.tail' along (closes first rfl _ (List.getLast?_eq_some_getLast _))⟩

/-- In an order, all that a name leads to comes before it. -/
theorem IsOrder.mem_before (isOrder : IsOrder isNode dependsOn names) {before rest : List String} {name other : String}
    (split : names = before ++ name :: rest) (path : Relation.TransGen dependsOn name other) : other ∈ before := by
  induction path with
  | single edge => exact isOrder.after before name rest split _ edge
  | tail _ edge ih =>
    obtain ⟨earlier, later, rfl⟩ := List.append_of_mem ih
    have member := isOrder.after earlier _ (later ++ name :: rest) (by simp [split]) _ edge
    exact List.mem_append_left _ member

/-- Where there is an order, no node leads back to itself. -/
theorem IsOrder.acyclic (isOrder : IsOrder isNode dependsOn names) {name : String} (node : isNode name) :
    ¬ Relation.TransGen dependsOn name name := by
  intro path
  obtain ⟨before, rest, split⟩ := List.append_of_mem ((isOrder.members name).mpr node)
  have once := isOrder.once
  rw [split] at once
  have apart := (List.nodup_append.mp once).2.2
  exact apart name (isOrder.mem_before split path) name List.mem_cons_self rfl

/-- No grounded name leads back to itself. -/
theorem Grounded.acyclic {needs : String → List String} (grounded : Grounded needs names)
    (edges : ∀ name other, dependsOn name other → other ∈ needs name) {name : String} (member : name ∈ names) :
    ¬ Relation.TransGen dependsOn name name := by
  induction names generalizing name with
  | nil => cases member
  | cons first rest ih =>
    rcases List.mem_cons.mp member with rfl | member
    · intro cycle
      obtain ⟨next, edge, back⟩ := Relation.TransGen.head'_iff.mp cycle
      have around : Relation.TransGen dependsOn next next := .tail' back edge
      exact ih grounded.2 (grounded.1 next (edges _ _ edge)) around
    · exact ih grounded.2 member

/-! ### The trail of a search -/

/-- The names of a search, innermost first: each is needed by the one after it. -/
structure Trail (needs : String → List String) (among stack : List String) : Prop where
  once : stack.Nodup
  within : ∀ name ∈ stack, name ∈ among
  chain : stack.IsChain fun inner outer => inner ∈ needs outer

variable {needs : String → List String} {among stack : List String} {name next : String}

theorem Trail.length_le (trail : Trail needs among stack) : stack.length ≤ among.length :=
  (List.subperm_of_subset trail.once trail.within).length_le

theorem Trail.push (trail : Trail needs among (name :: stack)) (needed : next ∈ needs name)
    (within : next ∈ among) (new : next ∉ name :: stack) : Trail needs among (next :: name :: stack) :=
  ⟨List.nodup_cons.mpr ⟨new, trail.once⟩, List.forall_mem_cons.mpr ⟨within, trail.within⟩,
    List.isChain_cons_cons.mpr ⟨needed, trail.chain⟩⟩

/-- Every name of the trail leads to the innermost one. -/
theorem Trail.reaches (trail : Trail needs among (name :: stack)) (again : next ∈ name :: stack) :
    Relation.ReflTransGen (fun x y => y ∈ needs x) next name := by
  induction stack generalizing name with
  | nil =>
    obtain rfl := List.mem_singleton.mp again
    exact .refl
  | cons outer rest ih =>
    rcases List.mem_cons.mp again with rfl | again
    · exact .refl
    · obtain ⟨-, once⟩ := List.nodup_cons.mp trail.once
      obtain ⟨needed, chain⟩ := List.isChain_cons_cons.mp trail.chain
      have shorter : Trail needs among (outer :: rest) := ⟨once, (List.forall_mem_cons.mp trail.within).2, chain⟩
      exact (ih shorter again).tail needed

/-- Where a name of the trail is needed again, the trail from that name on is a cycle. -/
theorem Trail.cycle (trail : Trail needs among (name :: stack)) (needed : next ∈ needs name)
    (again : next ∈ name :: stack) :
    IsCycle (· ∈ among) (fun x y => y ∈ needs x) ((name :: stack).reverse.dropWhile (· != next)) := by
  obtain ⟨inner, outer, split⟩ := List.append_of_mem again
  have once := trail.once
  have chain := trail.chain
  rw [split] at once chain ⊢
  have apart : next ∉ outer := (List.nodup_cons.mp (List.nodup_append.mp once).2.1).1
  have found : (inner ++ next :: outer).reverse.dropWhile (· != next) = (inner ++ [next]).reverse := by
    rw [List.reverse_append, List.reverse_cons, List.append_assoc, List.dropWhile_append_of_pos]
    · simp
    · intro x member
      have different : x ≠ next := fun same => apart (same ▸ List.mem_reverse.mp member)
      simp [different]
  have part : inner ++ [next] <+: inner ++ next :: outer := ⟨outer, by simp⟩
  rw [found]
  refine ⟨by simp, List.nodup_reverse.mpr (once.sublist part.sublist), ?_, ?_, ?_⟩
  · intro x member
    exact trail.within x (split ▸ part.subset (List.mem_reverse.mp member))
  · rw [List.isChain_reverse]
    exact chain.prefix part
  · intro first isFirst last isLast
    have firstNext : first = next := by simpa [eq_comm] using isFirst
    have lastName : last = name := by
      rw [List.getLast?_reverse] at isLast
      cases inner <;> simpa [eq_comm, (List.cons.inj split).1] using isLast
    rw [firstNext, lastName]
    exact needed

/-! ### What a search gives -/

/-- A search ends with a cycle, or it adds `names` to those that it is done with. -/
def Searched (needs : String → List String) (among clear names : List String) :
    Except (List String) (List String) → Prop
  | .error cycle => IsCycle (· ∈ among) (fun x y => y ∈ needs x) cycle
  | .ok found => Grounded needs found ∧ clear ⊆ found ∧ names ⊆ found

/-- One search after another, which may build on what the first is done with. -/
theorem Searched.bind {x : Except (List String) (List String)} {f : List String → Except (List String) (List String)}
    {clear more wanted : List String} (first : Searched needs among clear names x)
    (later : ∀ found, Grounded needs found → names ⊆ found → Searched needs among found more (f found))
    (covered : wanted ⊆ names ++ more) : Searched needs among clear wanted (x >>= f) := by
  cases x with
  | error cycle => exact first
  | ok found =>
    obtain ⟨grounded, kept, added⟩ := first
    have second := later found grounded added
    change Searched needs among clear wanted (f found)
    cases result : f found with
    | error cycle =>
      rw [result] at second
      exact second
    | ok found' =>
      rw [result] at second
      obtain ⟨grounded', kept', added'⟩ := second
      have both : names ++ more ⊆ found' := List.append_subset.mpr ⟨List.Subset.trans added kept', added'⟩
      exact ⟨grounded', List.Subset.trans kept kept', List.Subset.trans covered both⟩

/-- A search from each of several names in turn. -/
theorem searched_each {visit : List String → String → Except (List String) (List String)} {clear : List String}
    (one : ∀ clear, Grounded needs clear → ∀ name ∈ names, Searched needs among clear [name] (visit clear name))
    (grounded : Grounded needs clear) : Searched needs among clear names (names.foldlM visit clear) := by
  induction names generalizing clear with
  | nil => exact ⟨grounded, fun _ => id, List.nil_subset _⟩
  | cons name rest ih =>
    rw [List.foldlM_cons]
    refine (one clear grounded name List.mem_cons_self).bind (fun found grounded _ => ?_) (List.Subset.refl _)
    exact ih (fun clear grounded next member => one clear grounded next (List.mem_cons_of_mem _ member)) grounded

/-- What a name needs among the names that a search stays in. -/
def needsAmong (g : DependencyGraph) (among : List String) (name : String) : List String :=
  (g.needsOf name).filter among.contains

theorem mem_needsAmong_iff (g : DependencyGraph) (among : List String) (name next : String) :
    next ∈ g.needsAmong among name ↔ next ∈ g.needsOf name ∧ next ∈ among := by
  simp [needsAmong]

/-- A search from one name. Its depth suffices, since the names of the trail differ. -/
theorem search_searched (g : DependencyGraph) {depth : Nat} {clear : List String}
    (trail : Trail (g.needsAmong among) among (name :: stack)) (grounded : Grounded (g.needsAmong among) clear)
    (enough : among.length ≤ stack.length + depth) :
    Searched (g.needsAmong among) among clear [name] (g.search among depth stack clear name) := by
  induction depth generalizing stack clear name with
  | zero =>
    have bound := trail.length_le
    rw [List.length_cons] at bound
    omega
  | succ depth ih =>
    rw [search]
    refine Searched.bind (searched_each (fun clear grounded next needed => ?_) grounded)
      (fun found grounded added => ?_) (List.subset_append_right (g.needsAmong among name) [name])
    · split
      · rename_i again
        exact trail.cycle needed (List.contains_iff_mem.mp again)
      · rename_i new
        split
        · rename_i done
          exact ⟨grounded, fun _ => id, by simpa using done⟩
        · have within := ((mem_needsAmong_iff g among name next).mp needed).2
          apply ih (trail.push needed within (by simpa using new)) grounded
          rw [List.length_cons]
          omega
    · exact ⟨⟨added, grounded⟩, List.subset_cons_self _ _, by simp⟩

/-- Names that are all grounded cannot each need another of them. -/
theorem Grounded.not_mem (grounded : Grounded needs names)
    (hungry : ∀ name ∈ among, ∃ other ∈ needs name, other ∈ among) : ∀ name ∈ names, name ∉ among := by
  induction names with
  | nil => simp
  | cons first rest ih =>
    rw [List.forall_mem_cons]
    refine ⟨fun member => ?_, ih grounded.2⟩
    obtain ⟨other, needed, otherMember⟩ := hungry first member
    exact ih grounded.2 other (grounded.1 other needed) otherMember

/-- Among names of which each depends on another of them, a cycle is found. -/
theorem findCycle_isCycle (g : DependencyGraph) (nonempty : among ≠ [])
    (hungry : ∀ name ∈ among, ∃ other ∈ g.needsOf name, other ∈ among) :
    IsCycle (· ∈ among) (fun name other => other ∈ g.needsOf name) (g.findCycle among) := by
  have searched : Searched (g.needsAmong among) among [] among (among.foldlM (fun clear name =>
      if clear.contains name then pure clear else g.search among (among.length + 1) [] clear name) []) := by
    refine searched_each (fun clear grounded name member => ?_) (by trivial)
    split
    · rename_i done
      exact ⟨grounded, fun _ => id, by simpa using done⟩
    · apply g.search_searched _ grounded (by simp)
      exact ⟨List.nodup_singleton name, by simpa using member, List.isChain_singleton name⟩
  unfold findCycle
  cases found : among.foldlM (fun clear name =>
    if clear.contains name then pure clear else g.search among (among.length + 1) [] clear name) [] with
  | error cycle =>
    rw [found] at searched
    exact IsCycle.imp searched (fun _ => id) fun x y needed => ((mem_needsAmong_iff g among x y).mp needed).1
  | ok clear =>
    rw [found] at searched
    obtain ⟨grounded, -, all⟩ := searched
    obtain ⟨name, member⟩ := List.exists_mem_of_ne_nil among nonempty
    refine absurd member (grounded.not_mem (fun name member => ?_) name (all member))
    obtain ⟨other, needed, otherMember⟩ := hungry name member
    exact ⟨other, (mem_needsAmong_iff g among name other).mpr ⟨needed, otherMember⟩, otherMember⟩

/-! ### Names that are left -/

/-- The names that still wait for something when the loop ends. -/
def stuck (g : DependencyGraph) : List String := (g.final.waiting.filter (0 < ·.2)).map (·.1)

variable {g : DependencyGraph}

theorem mem_stuck_iff (formed : WellFormed g) (name : String) :
    name ∈ g.stuck ↔ name ∈ g.names ∧ name ∉ g.final.placed := by
  have waits : name ∈ g.stuck ↔ name ∈ g.names ∧ ∃ other, other ∈ g.pending g.final.placed name := by
    unfold stuck
    rw [(final_sound formed).table, List.filter_map, List.map_map]
    simp [List.length_pos_iff_exists_mem]
  rw [waits]
  refine and_congr_right fun node => ?_
  constructor
  · rintro ⟨other, pending⟩ placed
    rw [mem_pending_iff] at pending
    exact pending.2 ((final_sound formed).grounded.closed placed pending.1)
  · intro unplaced
    obtain ⟨other, needed, missing⟩ := final_unplaced formed node unplaced
    exact ⟨other, (mem_pending_iff g _ name other).mpr ⟨needed, missing⟩⟩

theorem stuck_hungry (formed : WellFormed g) : ∀ name ∈ g.stuck, ∃ other ∈ g.needsOf name, other ∈ g.stuck := by
  intro name member
  obtain ⟨node, unplaced⟩ := (mem_stuck_iff formed name).mp member
  obtain ⟨other, needed, missing⟩ := final_unplaced formed node unplaced
  exact ⟨other, needed, (mem_stuck_iff formed other).mpr ⟨((formed.mem_needsOf_iff name other).mp needed).2, missing⟩⟩

theorem stuck_ne_nil (formed : WellFormed g) (some : g.final.placed.length ≠ g.size) : g.stuck ≠ [] := by
  intro none
  have sound := final_sound formed
  have all : g.names ⊆ g.final.placed := by
    intro name node
    by_contra unplaced
    have member := (mem_stuck_iff formed name).mpr ⟨node, unplaced⟩
    rw [none] at member
    cases member
  have placed := (List.subperm_of_subset sound.once sound.nodes).length_le
  have listed := (List.subperm_of_subset formed.names.nodup all).length_le
  rw [names_length] at placed listed
  exact some (Nat.le_antisymm placed listed)

theorem order_eq_error (formed : WellFormed g) {c : Cycle} (failed : g.order = .error c) :
    IsCycle (· ∈ g.names) (fun name other => other ∈ g.needsOf name) c.names := by
  rw [order_eq] at failed
  split at failed
  · cases failed
  · rename_i some
    obtain rfl := Except.error.inj failed
    have cycle := g.findCycle_isCycle (stuck_ne_nil formed some) (stuck_hungry formed)
    have listed : Cycle.names ⟨(g.findCycle g.stuck).map fun name => (name, (g.find? name).bind (·.location))⟩ =
        g.findCycle g.stuck := by
      simp [Cycle.names, Function.comp_def]
    change IsCycle _ _ (Cycle.names ⟨(g.findCycle g.stuck).map fun name =>
      (name, (g.find? name).bind (·.location))⟩)
    rw [listed]
    exact cycle.imp (fun name member => ((mem_stuck_iff formed name).mp member).1) fun _ _ => id

/-- There is no order exactly if some name depends, through others or directly, on itself. What is
    given then is a cycle. -/
theorem order_error_iff_cyclic (steps : List Step) :
    ((∃ c, (ofSteps steps).order = .error c) ↔ ∃ name, Relation.TransGen (DependsOn steps) name name) ∧
      ∀ c, (ofSteps steps).order = .error c → IsCycle (IsNode steps) (DependsOn steps) c.names := by
  have formed := ofSteps_wellFormed steps
  have reported (c : Cycle) (failed : (ofSteps steps).order = .error c) :
      IsCycle (IsNode steps) (DependsOn steps) c.names := by
    apply (order_eq_error formed failed).imp
    · exact fun name => (mem_names_ofSteps steps name).mp
    · exact fun name other => (mem_needsOf_ofSteps steps name other).mp
  refine ⟨⟨?_, ?_⟩, reported⟩
  · rintro ⟨c, failed⟩
    exact (reported c failed).transGen
  · rintro ⟨name, path⟩
    cases done : (ofSteps steps).order with
    | error c => exact ⟨c, rfl⟩
    | ok names =>
      obtain ⟨other, edge, -⟩ := Relation.TransGen.head'_iff.mp path
      exact absurd path ((order_isOrder done).acyclic (.inr ⟨other, edge.1⟩))

/-- A name that leads into a cycle is left over with it, and is not reported as a part of it. -/
theorem order_error_without_tail :
    let steps : List Step := [.edge "a" "b", .edge "b" "c", .edge "c" "b"]
    (ofSteps steps).order = .error ⟨[("b", none), ("c", none)]⟩ ∧
      IsCycle (IsNode steps) (DependsOn steps) ["b", "c"] ∧
      ∃ name, Relation.TransGen (DependsOn steps) name name := by
  intro steps
  have failed : (ofSteps steps).order = .error ⟨[("b", none), ("c", none)]⟩ := by rfl
  obtain ⟨cyclic, reported⟩ := order_error_iff_cyclic steps
  exact ⟨failed, reported _ failed, cyclic.mp ⟨_, failed⟩⟩

end StackCompiler.DependencyGraph
