import Mathlib.Data.List.Perm.Subperm
import StackCompiler.Proofs.Declaration.GraphContents
import StackCompiler.Proofs.Outcome
import StackCompiler.Proofs.Text.Bytes

/-!
Ordering the nodes of a graph. What is placed determines all else that the loop keeps
(`Sound`): each node waits for as many names as it has dependencies that are not placed,
and the nodes that are ready are those that wait for nothing. Placing the least ready
node keeps this (`Sound.place_one`), and the loop ends when no node is ready.
-/
namespace StackCompiler.DependencyGraph

/-- Each name of a list comes before all that it needs. -/
def Grounded (needs : String → List String) : List String → Prop
  | [] => True
  | name :: rest => (∀ other ∈ needs name, other ∈ rest) ∧ Grounded needs rest

theorem Grounded.closed {needs : String → List String} {names : List String} (grounded : Grounded needs names)
    {name other : String} (member : name ∈ names) (needed : other ∈ needs name) : other ∈ names := by
  induction names with
  | nil => cases member
  | cons first rest ih =>
    rcases List.mem_cons.mp member with rfl | member
    · exact List.mem_cons_of_mem _ (grounded.1 other needed)
    · exact List.mem_cons_of_mem _ (ih grounded.2 member)

theorem Grounded.suffix {needs : String → List String} {before after : List String}
    (grounded : Grounded needs (before ++ after)) : Grounded needs after := by
  induction before with
  | nil => exact grounded
  | cons first rest ih => exact ih grounded.2

theorem Grounded.mono {needs fewer : String → List String} {names : List String} (grounded : Grounded needs names)
    (less : ∀ name, fewer name ⊆ needs name) : Grounded fewer names := by
  induction names with
  | nil => trivial
  | cons first rest ih => exact ⟨fun other needed => grounded.1 other (less first needed), ih grounded.2⟩

/-! ### Releasing -/

theorem lookup_tabulated {α : Type} (names : List String) (f : String → α) (name : String) :
    (names.map fun x => (x, f x)).lookup name = if name ∈ names then some (f name) else none := by
  induction names with
  | nil => simp
  | cons first rest ih =>
    rw [List.map_cons, List.lookup_cons]
    by_cases same : name = first
    · simp [same]
    · rw [beq_false_of_ne same]
      simp [same, ih]

/-- Releasing a node lowers its count by one, and makes it ready when the count was one. -/
theorem release_tabulated {p : Progress} {names : List String} {count : String → Nat} {name : String}
    (table : p.waiting = names.map fun x => (x, count x)) (member : name ∈ names) :
    p.release name = ⟨names.map fun x => (x, if x = name then count x - 1 else count x),
      if count name = 1 then insertName name p.ready else p.ready, p.placed⟩ := by
  have found : p.waiting.lookup name = some (count name) := by
    rw [table, lookup_tabulated, if_pos member]
  unfold Progress.release
  rw [found]
  simp only [table, List.map_map, Progress.mk.injEq, and_true]
  apply List.map_congr_left
  intro x _
  simp only [Function.comp_apply]
  split <;> rfl

theorem release_all_placed (released : List String) (p : Progress) :
    (released.foldl Progress.release p).placed = p.placed := by
  induction released generalizing p with
  | nil => rfl
  | cons name rest ih =>
    rw [List.foldl_cons, ih]
    unfold Progress.release
    split <;> rfl

/-- Releasing several nodes in turn, each once. -/
theorem release_all {p : Progress} {names released : List String} {count : String → Nat}
    (table : p.waiting = names.map fun x => (x, count x)) (members : ∀ x ∈ released, x ∈ names)
    (once : released.Nodup) (ascending : Ascending p.ready) :
    (released.foldl Progress.release p).waiting =
        names.map (fun x => (x, if x ∈ released then count x - 1 else count x)) ∧
      Ascending (released.foldl Progress.release p).ready ∧
      ∀ x, x ∈ (released.foldl Progress.release p).ready ↔ x ∈ p.ready ∨ (x ∈ released ∧ count x = 1) := by
  induction released generalizing p count with
  | nil => simp [table, ascending]
  | cons name rest ih =>
    obtain ⟨absent, once⟩ := List.nodup_cons.mp once
    rw [List.forall_mem_cons] at members
    rw [List.foldl_cons, release_tabulated table members.1]
    obtain ⟨tableAfter, ascendingAfter, readyAfter⟩ := ih
      (p := ⟨names.map fun x => (x, if x = name then count x - 1 else count x),
        if count name = 1 then insertName name p.ready else p.ready, p.placed⟩) rfl members.2 once
      (by split <;> [exact ascending_insertName ascending name; exact ascending])
    refine ⟨?_, ascendingAfter, fun x => ?_⟩
    · rw [tableAfter]
      apply List.map_congr_left
      intro x _
      by_cases same : x = name
      · simp [same, absent]
      · simp [same]
    · rw [readyAfter, List.mem_cons]
      by_cases same : x = name
      · subst same
        by_cases one : count x = 1
        · simp [one, mem_insertName]
        · simp [one, absent]
      · by_cases one : count name = 1
        · simp [one, same, mem_insertName]
        · simp [one, same]

/-! ### What the loop keeps -/

/-- The dependencies of a node that are not placed yet. -/
def pending (g : DependencyGraph) (placed : List String) (name : String) : List String :=
  (g.needsOf name).filter (! placed.contains ·)

/-- The state of the loop is what the placed names say. -/
structure Sound (g : DependencyGraph) (p : Progress) : Prop where
  table : p.waiting = g.names.map fun x => (x, (g.pending p.placed x).length)
  ascending : Ascending p.ready
  ready : ∀ x, x ∈ p.ready ↔ x ∈ g.names ∧ x ∉ p.placed ∧ ∀ y ∈ g.needsOf x, y ∈ p.placed
  nodes : ∀ x ∈ p.placed, x ∈ g.names
  once : p.placed.Nodup
  grounded : Grounded g.needsOf p.placed

variable {g : DependencyGraph} {p : Progress}

theorem mem_pending_iff (g : DependencyGraph) (placed : List String) (name other : String) :
    other ∈ g.pending placed name ↔ other ∈ g.needsOf name ∧ other ∉ placed := by
  simp [pending]

theorem WellFormed.pending_nodup (formed : WellFormed g) (placed : List String) (name : String) :
    (g.pending placed name).Nodup :=
  (formed.needsOf_nodup name).filter _

theorem WellFormed.pending_cons (formed : WellFormed g) (name : String) (placed : List String) (x : String) :
    g.pending (name :: placed) x = (g.pending placed x).erase name := by
  rw [(formed.pending_nodup placed x).erase_eq_filter, pending, pending, List.filter_filter]
  apply List.filter_congr
  intro y _
  by_cases same : y = name
  · simp [same]
  · simp [same]

/-- A node that depends on a name which is not placed waits for it. -/
theorem WellFormed.mem_pending_of_dependent (formed : WellFormed g) {name x : String} {placed : List String}
    (node : name ∈ g.names) (new : name ∉ placed) (dependent : x ∈ g.dependents name) :
    name ∈ g.pending placed x := by
  rw [mem_pending_iff, formed.mem_needsOf_iff]
  exact ⟨⟨(mem_dependents_iff g name x).mp dependent, node⟩, new⟩

/-- Placing a name lowers the counts of its dependents by one and no other count. -/
theorem WellFormed.pending_length_cons (formed : WellFormed g) {name : String} {placed : List String}
    (node : name ∈ g.names) (new : name ∉ placed) (x : String) :
    (g.pending (name :: placed) x).length = if x ∈ g.dependents name then (g.pending placed x).length - 1
      else (g.pending placed x).length := by
  rw [formed.pending_cons]
  split
  · rename_i dependent
    exact List.length_erase_of_mem (formed.mem_pending_of_dependent node new dependent)
  · rename_i other
    rw [List.erase_of_not_mem]
    rw [mem_pending_iff, formed.mem_needsOf_iff, ← mem_dependents_iff]
    exact fun waits => other waits.1.1

theorem start_sound (formed : WellFormed g) : Sound g g.start := by
  have waiting : g.start.waiting = g.names.map fun x => (x, (g.pending [] x).length) := by
    simp only [start, names, List.map_map]
    apply List.map_congr_left
    intro node member
    have found := (formed.find?_eq_some_iff node.name node).mpr ⟨member, rfl⟩
    simp [pending, needsOf, found]
  have ready : g.start.ready = g.names.filter fun x => (g.pending [] x).length == 0 := by
    have definition : g.start.ready = (g.start.waiting.filter (·.2 == 0)).map (·.1) := rfl
    rw [definition, waiting, List.filter_map, List.map_map]
    exact List.map_id _
  refine ⟨waiting, ?_, fun x => ?_, by simp [start], by simp [start], trivial⟩
  · rw [ready]
    exact formed.names.sublist List.filter_sublist
  · rw [ready, List.mem_filter]
    simp [start, pending, List.eq_nil_iff_forall_not_mem]

/-- The state with the least ready name placed and its dependents not released yet. -/
def Progress.withPlaced (p : Progress) (name : String) (ready : List String) : Progress :=
  { p with ready := ready, placed := name :: p.placed }

/-- After a name is placed, a node is ready if it was, or if the name is the last one that it waited
    for. -/
theorem Sound.ready_after (formed : WellFormed g) (sound : Sound g p) {name : String} {ready : List String}
    (next : p.ready = name :: ready) (x : String) :
    (x ∈ ready ∨ (x ∈ g.dependents name ∧ (g.pending p.placed x).length = 1)) ↔
      x ∈ g.names ∧ x ∉ name :: p.placed ∧ ∀ y ∈ g.needsOf x, y ∈ name :: p.placed := by
  obtain ⟨node, new, free⟩ := (sound.ready name).mp (by simp [next])
  have others : x ∈ p.ready ↔ x = name ∨ x ∈ ready := by rw [next, List.mem_cons]
  have once : name ∉ ready := (List.nodup_cons.mp (next ▸ sound.ascending.nodup)).1
  constructor
  · rintro (member | ⟨dependent, one⟩)
    · obtain ⟨isNode, unplaced, placed⟩ := (sound.ready x).mp (others.mpr (.inr member))
      have different : x ≠ name := fun same => once (same ▸ member)
      exact ⟨isNode, by simp [different, unplaced], fun y needed => List.mem_cons_of_mem _ (placed y needed)⟩
    · have waits := formed.mem_pending_of_dependent node new dependent
      have needed := ((mem_pending_iff g p.placed x name).mp waits).1
      -- What is placed has all its dependencies placed, and `x` has one that is not.
      have unplaced : x ∉ p.placed := fun member => new (sound.grounded.closed member needed)
      have different : x ≠ name := fun same => new (free name (same ▸ needed))
      obtain ⟨only, single⟩ := List.length_eq_one_iff.mp one
      refine ⟨dependents_names g name x dependent, by simp [different, unplaced], fun y needed => ?_⟩
      by_cases placed : y ∈ p.placed
      · exact List.mem_cons_of_mem _ placed
      · have yWaits := (mem_pending_iff g p.placed x y).mpr ⟨needed, placed⟩
        rw [single, List.mem_singleton] at waits yWaits
        rw [yWaits, ← waits]
        exact List.mem_cons_self
  · rintro ⟨isNode, unplaced, placed⟩
    rw [List.mem_cons, not_or] at unplaced
    by_cases needed : name ∈ g.needsOf x
    · have edge := ((formed.mem_needsOf_iff x name).mp needed).1
      refine .inr ⟨(mem_dependents_iff g name x).mpr edge, ?_⟩
      have only (y : String) : y ∈ g.pending p.placed x ↔ y ∈ [name] := by
        rw [mem_pending_iff, List.mem_singleton]
        constructor
        · rintro ⟨yNeeded, yUnplaced⟩
          exact (List.mem_cons.mp (placed y yNeeded)).resolve_right yUnplaced
        · rintro rfl
          exact ⟨needed, new⟩
      exact ((List.perm_ext_iff_of_nodup (formed.pending_nodup _ x) (List.nodup_singleton name)).mpr only).length_eq
    · have ready := (sound.ready x).mpr ⟨isNode, unplaced.2, fun y yNeeded => ?_⟩
      · exact .inl ((others.mp ready).resolve_left unplaced.1)
      · rcases List.mem_cons.mp (placed y yNeeded) with rfl | member
        · exact absurd yNeeded needed
        · exact member

/-- Placing the least ready name and releasing its dependents keeps the state sound. -/
theorem Sound.place_one (formed : WellFormed g) (sound : Sound g p) {name : String} {ready : List String}
    (next : p.ready = name :: ready) :
    Sound g ((g.dependents name).foldl Progress.release (p.withPlaced name ready)) := by
  obtain ⟨node, new, free⟩ := (sound.ready name).mp (by simp [next])
  have ascending : Ascending (name :: ready) := next ▸ sound.ascending
  obtain ⟨least, ascending⟩ := List.pairwise_cons.mp ascending
  obtain ⟨table, ascending, released⟩ := release_all (p := p.withPlaced name ready) sound.table
    (dependents_names g name) (formed.dependents_nodup name) ascending
  have placed := release_all_placed (g.dependents name) (p.withPlaced name ready)
  change _ = name :: p.placed at placed
  refine ⟨?_, ascending, ?_, ?_, ?_, ?_⟩
  · rw [table, placed]
    apply List.map_congr_left
    intro x _
    rw [formed.pending_length_cons node new]
  · intro x
    rw [released, placed]
    exact sound.ready_after formed next x
  · rw [placed, List.forall_mem_cons]
    exact ⟨node, sound.nodes⟩
  · rw [placed]
    exact List.nodup_cons.mpr ⟨new, sound.once⟩
  · rw [placed]
    exact ⟨free, sound.grounded⟩

theorem place_stuck (stuck : p.ready = []) (steps : Nat) : g.place steps p = p := by
  cases steps with
  | zero => rfl
  | succ steps => simp only [place, stuck]

theorem place_next {name : String} {ready : List String} (next : p.ready = name :: ready) (steps : Nat) :
    g.place (steps + 1) p = g.place steps ((g.dependents name).foldl Progress.release (p.withPlaced name ready)) := by
  simp only [place, next]
  rfl

/-- Every state of the loop is sound. -/
theorem Sound.place (formed : WellFormed g) (sound : Sound g p) (steps : Nat) : Sound g (g.place steps p) := by
  induction steps generalizing p with
  | zero => exact sound
  | succ steps ih =>
    cases next : p.ready with
    | nil =>
      rw [place_stuck next]
      exact sound
    | cons name ready =>
      rw [place_next next]
      exact ih (sound.place_one formed next)

/-- The counter of a dependent is positive when it is lowered, also in the middle of a round. -/
theorem Sound.counter_positive (formed : WellFormed g) (sound : Sound g p) {name : String}
    {ready before after : List String} {x : String} (next : p.ready = name :: ready)
    (round : g.dependents name = before ++ x :: after) :
    ∃ n, (before.foldl Progress.release (p.withPlaced name ready)).waiting.lookup x = some (n + 1) := by
  obtain ⟨node, new, -⟩ := (sound.ready name).mp (by simp [next])
  have ascending : Ascending (name :: ready) := next ▸ sound.ascending
  have once := formed.dependents_nodup name
  have members := dependents_names g name
  rw [round] at once members
  have apart := (List.nodup_append.mp once).2.2
  obtain ⟨table, -, -⟩ := release_all (p := p.withPlaced name ready) sound.table
    (fun y member => members y (List.mem_append_left _ member)) (List.nodup_append.mp once).1
    (List.pairwise_cons.mp ascending).2
  have waits := formed.mem_pending_of_dependent node new (x := x) (by simp [round])
  have positive := List.length_pos_of_mem waits
  have fresh : x ∉ before := fun member => apart x member x (by simp) rfl
  rw [table, lookup_tabulated, if_pos (members x (by simp)), if_neg fresh]
  exact ⟨_, congrArg some (Nat.succ_pred_eq_of_pos positive).symm⟩

/-! ### The end of the loop -/

theorem names_length (g : DependencyGraph) : g.names.length = g.size := List.length_map ..

/-- With a step for each name that is not placed, the loop ends because no name is ready. -/
theorem Sound.place_ready (formed : WellFormed g) (sound : Sound g p) {steps : Nat}
    (enough : g.size ≤ p.placed.length + steps) : (g.place steps p).ready = [] := by
  induction steps generalizing p with
  | zero =>
    rw [List.eq_nil_iff_forall_not_mem]
    intro x member
    obtain ⟨node, unplaced, -⟩ := (sound.ready x).mp member
    have fits : (x :: p.placed).Subperm g.names :=
      List.subperm_of_subset (List.nodup_cons.mpr ⟨unplaced, sound.once⟩)
        (List.forall_mem_cons.mpr ⟨node, sound.nodes⟩)
    have bound := fits.length_le
    rw [List.length_cons, names_length] at bound
    omega
  | succ steps ih =>
    cases next : p.ready with
    | nil => rw [place_stuck next, next]
    | cons name ready =>
      rw [place_next next]
      apply ih (sound.place_one formed next)
      rw [release_all_placed]
      change g.size ≤ (name :: p.placed).length + steps
      rw [List.length_cons]
      omega

/-- The state in which the loop ends. -/
def final (g : DependencyGraph) : Progress := g.place g.size g.start

theorem final_sound (formed : WellFormed g) : Sound g g.final := (start_sound formed).place formed g.size

theorem final_ready (formed : WellFormed g) : g.final.ready = [] :=
  (start_sound formed).place_ready formed (by simp)

/-- Where a name is not placed in the end, one that it depends on is not placed either. -/
theorem final_unplaced (formed : WellFormed g) {x : String} (node : x ∈ g.names) (unplaced : x ∉ g.final.placed) :
    ∃ y ∈ g.needsOf x, y ∉ g.final.placed := by
  by_contra all
  have placed : ∀ y ∈ g.needsOf x, y ∈ g.final.placed := fun y needed =>
    by_contra fun missing => all ⟨y, needed, missing⟩
  have ready := ((final_sound formed).ready x).mpr ⟨node, unplaced, placed⟩
  rw [final_ready formed] at ready
  cases ready

/-! ### Orders -/

/-- An order lists every node once, each after all that it depends on. -/
structure IsOrder (isNode : String → Prop) (dependsOn : String → String → Prop) (names : List String) : Prop where
  once : names.Nodup
  members : ∀ name, name ∈ names ↔ isNode name
  after : ∀ before name rest, names = before ++ name :: rest → ∀ other, dependsOn name other → other ∈ before

/-- The orders of a graph. -/
def IsOrderOf (g : DependencyGraph) : List String → Prop :=
  IsOrder (· ∈ g.names) (fun name other => other ∈ g.needsOf name)

theorem isOrderOf_ofSteps (steps : List Step) : (ofSteps steps).IsOrderOf = IsOrder (IsNode steps) (DependsOn steps) := by
  unfold IsOrderOf
  simp only [mem_names_ofSteps, mem_needsOf_ofSteps]

/-- What is placed when all nodes are is an order. -/
theorem Sound.isOrderOf (sound : Sound g p) (all : p.placed.length = g.size) : g.IsOrderOf p.placed.reverse := by
  have perm : p.placed.Perm g.names := by
    apply (List.subperm_of_subset sound.once sound.nodes).perm_of_length_le
    rw [names_length, all]
  refine ⟨List.nodup_reverse.mpr sound.once, fun name => ?_, fun before name rest split other needed => ?_⟩
  · rw [List.mem_reverse]
    exact perm.mem_iff
  · have placed : p.placed = rest.reverse ++ name :: before.reverse := by
      rw [← List.reverse_reverse p.placed, split]
      simp
    have grounded := sound.grounded
    rw [placed] at grounded
    exact List.mem_reverse.mp (grounded.suffix.1 other needed)

theorem place_suffix (steps : Nat) (p : Progress) : p.placed <:+ (g.place steps p).placed := by
  induction steps generalizing p with
  | zero => exact List.suffix_rfl
  | succ steps ih =>
    cases next : p.ready with
    | nil => exact ⟨[], by rw [place_stuck next, List.nil_append]⟩
    | cons name ready =>
      rw [place_next next]
      have later := ih ((g.dependents name).foldl Progress.release (p.withPlaced name ready))
      rw [release_all_placed] at later
      exact (List.suffix_cons name p.placed).trans later

/-- In any order that starts with what is placed, the next name is ready. -/
theorem Sound.next_ready (sound : Sound g p) {order rest : List String} {name : String}
    (isOrder : g.IsOrderOf order) (starts : order = p.placed.reverse ++ name :: rest) : name ∈ p.ready := by
  have once := isOrder.once
  rw [starts] at once
  have apart := (List.nodup_append.mp once).2.2
  rw [sound.ready]
  refine ⟨(isOrder.members name).mp (by simp [starts]), fun placed => ?_, fun other needed => ?_⟩
  · exact apart name (List.mem_reverse.mpr placed) name (by simp) rfl
  · exact List.mem_reverse.mp (isOrder.after _ name rest starts other needed)

/-- Of the orders that start with what was placed before, the loop makes the least. The first name in
    which another order differs is ready too, and the loop has taken the least. -/
theorem Sound.place_least (formed : WellFormed g) (sound : Sound g p) {steps : Nat} {order : List String}
    (all : (g.place steps p).placed.length = g.size) (isOrder : g.IsOrderOf order)
    (starts : p.placed.reverse <+: order) :
    (g.place steps p).placed.reverse = order ∨ (g.place steps p).placed.reverse < order := by
  have size : order.length = g.size := by
    rw [← names_length]
    exact ((List.perm_ext_iff_of_nodup isOrder.once formed.names.nodup).mpr isOrder.members).length_eq
  have complete {p : Progress} (starts : p.placed.reverse <+: order) (all : p.placed.length = g.size) :
      p.placed.reverse = order :=
    starts.eq_of_length (by rw [List.length_reverse, size, all])
  induction steps generalizing p with
  | zero => exact .inl (complete starts all)
  | succ steps ih =>
    cases next : p.ready with
    | nil =>
      rw [place_stuck next] at all ⊢
      exact .inl (complete starts all)
    | cons name ready =>
      rw [place_next next] at all ⊢
      obtain ⟨node, new, -⟩ := (sound.ready name).mp (by simp [next])
      obtain ⟨tail, split⟩ := starts
      cases tail with
      | nil =>
        rw [List.append_nil] at split
        exact absurd (List.mem_reverse.mp (split ▸ (isOrder.members name).mpr node)) new
      | cons other rest =>
        have candidate := sound.next_ready isOrder split.symm
        rw [next, List.mem_cons] at candidate
        rcases candidate with rfl | candidate
        · apply ih (sound.place_one formed next) all
          rw [release_all_placed, ← split]
          exact ⟨rest, by simp [Progress.withPlaced]⟩
        · have ascending : Ascending (name :: ready) := next ▸ sound.ascending
          have less : name < other := (List.pairwise_cons.mp ascending).1 other candidate
          obtain ⟨more, placed⟩ := place_suffix (g := g) steps
            ((g.dependents name).foldl Progress.release (p.withPlaced name ready))
          rw [release_all_placed] at placed
          change more ++ name :: p.placed = _ at placed
          right
          rw [← placed, ← split, List.reverse_append, List.reverse_cons, List.append_assoc]
          exact List.append_left_lt (List.cons_lt_cons_iff.mpr (.inl less))

/-! ### The order that is given -/

theorem order_eq (g : DependencyGraph) :
    g.order = if g.final.placed.length = g.size then .ok g.final.placed.reverse
      else .error ⟨(g.findCycle ((g.final.waiting.filter (0 < ·.2)).map (·.1))).map fun name =>
        (name, (g.find? name).bind (·.location))⟩ := rfl

theorem order_eq_ok_iff (g : DependencyGraph) (names : List String) :
    g.order = .ok names ↔ g.final.placed.length = g.size ∧ g.final.placed.reverse = names := by
  rw [order_eq]
  split
  · rename_i all
    simp [all]
  · rename_i some
    simp [some]

theorem order_isOrder {steps : List Step} {names : List String} (done : (ofSteps steps).order = .ok names) :
    IsOrder (IsNode steps) (DependsOn steps) names := by
  obtain ⟨all, rfl⟩ := (order_eq_ok_iff _ names).mp done
  rw [← isOrderOf_ofSteps]
  exact (final_sound (ofSteps_wellFormed steps)).isOrderOf all

/-- An order that is given is the least of all orders of the graph, its names compared byte by byte.
    While it is made, a counter is positive whenever it is lowered. -/
theorem order_least (steps : List Step) :
    (∀ names, (ofSteps steps).order = .ok names →
      IsOrder (IsNode steps) (DependsOn steps) names ∧
      ∀ others, IsOrder (IsNode steps) (DependsOn steps) others →
        names = others ∨ names.map Text.bytes < others.map Text.bytes) ∧
    ∀ rounds name ready before x after,
      ((ofSteps steps).place rounds (ofSteps steps).start).ready = name :: ready →
      (ofSteps steps).dependents name = before ++ x :: after →
      ∃ n, (before.foldl Progress.release
        (((ofSteps steps).place rounds (ofSteps steps).start).withPlaced name ready)).waiting.lookup x = some (n + 1) := by
  have formed := ofSteps_wellFormed steps
  constructor
  · intro names done
    refine ⟨order_isOrder done, fun others isOrder => ?_⟩
    obtain ⟨all, rfl⟩ := (order_eq_ok_iff _ names).mp done
    rw [← isOrderOf_ofSteps] at isOrder
    have least := (start_sound formed).place_least formed all isOrder List.nil_prefix
    exact least.imp_right Text.map_bytes_lt
  · intro rounds name ready before x after next round
    exact ((start_sound formed).place formed rounds).counter_positive formed next round

/-- Two services that need one database, and a name outside the graph. Once the database is placed,
    both counters are lowered, the second after the first. -/
theorem order_least_services :
    let steps : List Step := [.edge "web" "db", .edge "api" "db", .edge "web" "bucket", .node "db" none]
    (ofSteps steps).order = .ok ["db", "api", "web"] ∧
      (∀ others, IsOrder (IsNode steps) (DependsOn steps) others →
        ["db", "api", "web"] = others ∨ ["db", "api", "web"].map Text.bytes < others.map Text.bytes) ∧
      ∃ n, (["api"].foldl Progress.release ((ofSteps steps).start.withPlaced "db" [])).waiting.lookup "web" =
        some (n + 1) := by
  intro steps
  have done : (ofSteps steps).order = .ok ["db", "api", "web"] := by rfl
  have next : (ofSteps steps).start.ready = ["db"] := by rfl
  have round : (ofSteps steps).dependents "db" = ["api"] ++ "web" :: [] := by rfl
  obtain ⟨least, counted⟩ := order_least steps
  exact ⟨done, (least _ done).2, counted 0 "db" [] ["api"] "web" [] next round⟩

end StackCompiler.DependencyGraph
