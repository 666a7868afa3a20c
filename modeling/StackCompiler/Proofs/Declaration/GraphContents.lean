import Mathlib.Data.List.Induction
import Mathlib.Data.List.Nodup
import StackCompiler.Declaration.Graph
import StackCompiler.Proofs.Distinct

/-!
What a dependency graph holds. Graphs are made step by step, and the steps alone say which
names are nodes and which of them depend on which (`IsNode`, `DependsOn`). The nodes stay
in ascending order without repetitions (`WellFormed`), so every question about a graph
has the answer that its steps give.
-/
namespace StackCompiler.DependencyGraph

/-- One change of a graph. -/
inductive Step where
  | node (name : String) (location : Option Location)
  | edge (source target : String)

def Step.apply (g : DependencyGraph) : Step → DependencyGraph
  | .node name location => g.addNode name location
  | .edge source target => g.addEdge source target

/-- The graph after a sequence of changes. -/
def ofSteps (steps : List Step) : DependencyGraph := steps.foldl Step.apply empty

/-- Names become nodes when they are added and when a dependency of theirs is. -/
def IsNode (steps : List Step) (name : String) : Prop :=
  (∃ location, .node name location ∈ steps) ∨ ∃ target, .edge name target ∈ steps

/-- `name` depends directly on `other`, and both are nodes. -/
def DependsOn (steps : List Step) (name other : String) : Prop :=
  .edge name other ∈ steps ∧ IsNode steps other

/-! ### Nodes in order -/

def names (g : DependencyGraph) : List String := g.nodes.map (·.name)

/-- Nodes and their dependencies are in ascending order. -/
structure WellFormed (g : DependencyGraph) : Prop where
  names : Ascending g.names
  needs : ∀ node ∈ g.nodes, Ascending node.needs

theorem names_changeNode (name : String) {change : Node → Node}
    (keeps : ∀ node, (change node).name = node.name) (nodes : List Node) :
    (changeNode name change nodes).map (·.name) = insertName name (nodes.map (·.name)) := by
  induction nodes with
  | nil => simp [changeNode, insertName, keeps]
  | cons node rest ih =>
    rw [changeNode, List.map_cons, insertName]
    split
    · simp [keeps]
    · split
      · simp [keeps]
      · rw [List.map_cons, ih]

/-- A change touches the node of its name and no other. -/
theorem mem_changeNode (name : String) (change : Node → Node) {nodes : List Node}
    (ascending : Ascending (nodes.map (·.name))) (node : Node) :
    node ∈ changeNode name change nodes ↔ (node ∈ nodes ∧ node.name ≠ name) ∨
      node = change ((nodes.find? (·.name == name)).getD ⟨name, none, []⟩) := by
  induction nodes with
  | nil => simp [changeNode]
  | cons first rest ih =>
    obtain ⟨least, later⟩ := List.pairwise_cons.mp ascending
    have above (other : Node) (member : other ∈ rest) : first.name < other.name :=
      least _ (List.mem_map_of_mem member)
    rw [changeNode]
    split
    · -- The name comes before all nodes, so that it is no node yet.
      rename_i less
      have absent : ∀ other ∈ first :: rest, other.name ≠ name := by
        intro other member
        rcases List.mem_cons.mp member with rfl | member
        · exact ne_of_gt less
        · exact ne_of_gt (lt_trans less (above other member))
      have none : (first :: rest).find? (·.name == name) = none := by
        rw [List.find?_eq_none]
        exact fun other member same => absent other member (eq_of_beq same)
      rw [none, Option.getD_none, List.mem_cons, or_comm]
      exact or_congr_left ⟨fun member => ⟨member, absent node member⟩, fun both => both.1⟩
    · split
      · rename_i same
        have found : (first :: rest).find? (·.name == name) = some first := by
          simp [same]
        rw [found, Option.getD_some, List.mem_cons, List.mem_cons, or_comm]
        apply or_congr_left
        constructor
        · exact fun member => ⟨.inr member, same ▸ ne_of_gt (above node member)⟩
        · rintro ⟨rfl | member, different⟩
          · exact absurd same.symm different
          · exact member
      · rename_i different
        have skipped : (first :: rest).find? (·.name == name) = rest.find? (·.name == name) := by
          simp [Ne.symm different]
        rw [skipped, List.mem_cons, ih later, List.mem_cons]
        constructor
        · rintro (rfl | ⟨member, other⟩ | changed)
          · exact .inl ⟨.inl rfl, Ne.symm different⟩
          · exact .inl ⟨.inr member, other⟩
          · exact .inr changed
        · rintro (⟨rfl | member, other⟩ | changed)
          · exact .inl rfl
          · exact .inr (.inl ⟨member, other⟩)
          · exact .inr (.inr changed)

/-! ### Questions about a graph -/

/-- `name` has a dependency on `other`, which need not be a node. -/
def HasEdge (g : DependencyGraph) (name other : String) : Prop :=
  ∃ node ∈ g.nodes, node.name = name ∧ other ∈ node.needs

theorem mem_names_iff (g : DependencyGraph) (name : String) :
    name ∈ g.names ↔ ∃ node ∈ g.nodes, node.name = name :=
  List.mem_map

theorem contains_iff (g : DependencyGraph) (name : String) : g.contains name = true ↔ name ∈ g.names := by
  simp [contains, mem_names_iff]

variable {g : DependencyGraph}

theorem WellFormed.unique (formed : WellFormed g) {node other : Node} (member : node ∈ g.nodes)
    (otherMember : other ∈ g.nodes) (same : node.name = other.name) : node = other :=
  List.inj_on_of_nodup_map formed.names.nodup member otherMember same

theorem WellFormed.find?_eq_some_iff (formed : WellFormed g) (name : String) (node : Node) :
    g.find? name = some node ↔ node ∈ g.nodes ∧ node.name = name := by
  unfold find?
  constructor
  · intro found
    exact ⟨List.mem_of_find?_eq_some found, by simpa using List.find?_some found⟩
  · rintro ⟨member, same⟩
    cases found : g.nodes.find? (·.name == name) with
    | none =>
      have absent := List.find?_eq_none.mp found node member
      simp [same] at absent
    | some other =>
      have otherSame : other.name = name := by simpa using List.find?_some found
      rw [formed.unique (List.mem_of_find?_eq_some found) member (otherSame.trans same.symm)]

theorem WellFormed.name_getD (formed : WellFormed g) (name : String) :
    ((g.find? name).getD ⟨name, none, []⟩).name = name := by
  cases found : g.find? name with
  | some node => exact ((formed.find?_eq_some_iff name node).mp found).2
  | none => rfl

/-- A node, or the one that would be made, holds what the graph knows under its name. -/
theorem WellFormed.mem_needs_getD (formed : WellFormed g) (name other : String) :
    other ∈ ((g.find? name).getD ⟨name, none, []⟩).needs ↔ g.HasEdge name other := by
  cases found : g.find? name with
  | some node =>
    obtain ⟨member, same⟩ := (formed.find?_eq_some_iff name node).mp found
    constructor
    · exact fun needed => ⟨node, member, same, needed⟩
    · rintro ⟨node', member', same', needed⟩
      rw [Option.getD_some, formed.unique member member' (same.trans same'.symm)]
      exact needed
  | none =>
    simp only [Option.getD_none, List.not_mem_nil, false_iff]
    rintro ⟨node, member, same, -⟩
    rw [(formed.find?_eq_some_iff name node).mpr ⟨member, same⟩] at found
    cases found

/-- The dependencies of a node that are nodes themselves. -/
theorem WellFormed.mem_needsOf_iff (formed : WellFormed g) (name other : String) :
    other ∈ g.needsOf name ↔ g.HasEdge name other ∧ other ∈ g.names := by
  have filtered : g.needsOf name = ((g.find? name).getD ⟨name, none, []⟩).needs.filter g.contains := by
    unfold needsOf
    cases g.find? name <;> rfl
  rw [filtered, List.mem_filter, formed.mem_needs_getD, contains_iff]

theorem WellFormed.needsOf_nodup (formed : WellFormed g) (name : String) : (g.needsOf name).Nodup := by
  unfold needsOf
  cases found : g.find? name with
  | some node =>
    have member := ((formed.find?_eq_some_iff name node).mp found).1
    exact ((formed.needs node member).nodup).filter _
  | none => exact List.nodup_nil

theorem mem_dependents_iff (g : DependencyGraph) (name other : String) :
    other ∈ g.dependents name ↔ g.HasEdge other name := by
  simp only [dependents, List.mem_map, List.mem_filter, List.contains_iff_mem, HasEdge]
  constructor
  · rintro ⟨node, ⟨member, needed⟩, same⟩
    exact ⟨node, member, same, needed⟩
  · rintro ⟨node, member, same, needed⟩
    exact ⟨node, ⟨member, needed⟩, same⟩

theorem dependents_names (g : DependencyGraph) (name : String) : ∀ x ∈ g.dependents name, x ∈ g.names := by
  intro x dependent
  obtain ⟨node, member, same, -⟩ := (mem_dependents_iff g name x).mp dependent
  exact (mem_names_iff g x).mpr ⟨node, member, same⟩

theorem WellFormed.dependents_nodup (formed : WellFormed g) (name : String) : (g.dependents name).Nodup :=
  formed.names.nodup.sublist ((List.filter_sublist).map _)

/-! ### Steps -/

theorem mem_names_changeNode (name : String) {change : Node → Node}
    (keeps : ∀ node, (change node).name = node.name) (x : String) :
    x ∈ names ⟨changeNode name change g.nodes⟩ ↔ x = name ∨ x ∈ g.names := by
  rw [names, names_changeNode name keeps, mem_insertName]
  rfl

theorem WellFormed.changeNode (formed : WellFormed g) (name : String) {change : Node → Node}
    (keeps : ∀ node, (change node).name = node.name)
    (sorted : ∀ node, Ascending node.needs → Ascending (change node).needs) :
    WellFormed ⟨changeNode name change g.nodes⟩ := by
  constructor
  · rw [DependencyGraph.names, names_changeNode name keeps]
    exact ascending_insertName formed.names name
  · intro node member
    rcases (mem_changeNode name change formed.names node).mp member with ⟨member, -⟩ | rfl
    · exact formed.needs node member
    · apply sorted
      cases found : g.nodes.find? (·.name == name) with
      | some old => exact formed.needs old (List.mem_of_find?_eq_some found)
      | none => exact List.Pairwise.nil

/-- After a change, the dependencies of its name are those of the changed node, and all others are
    as they were. -/
theorem WellFormed.hasEdge_changeNode (formed : WellFormed g) (name : String) {change : Node → Node}
    (keeps : ∀ node, (change node).name = node.name) (a b : String) :
    HasEdge ⟨DependencyGraph.changeNode name change g.nodes⟩ a b ↔ (a ≠ name ∧ g.HasEdge a b) ∨
      (a = name ∧ b ∈ (change ((g.find? name).getD ⟨name, none, []⟩)).needs) := by
  have oldName := formed.name_getD name
  unfold HasEdge
  simp only [mem_changeNode name change formed.names]
  constructor
  · rintro ⟨node, ⟨member, different⟩ | rfl, rfl, needed⟩
    · exact .inl ⟨different, node, member, rfl, needed⟩
    · exact .inr ⟨(keeps _).trans oldName, needed⟩
  · rintro (⟨different, node, member, rfl, needed⟩ | ⟨rfl, needed⟩)
    · exact ⟨node, .inl ⟨member, different⟩, rfl, needed⟩
    · exact ⟨_, .inr rfl, (keeps _).trans oldName, needed⟩

theorem mem_names_addNode (name : String) (location : Option Location) (x : String) :
    x ∈ (g.addNode name location).names ↔ x = name ∨ x ∈ g.names := by
  rw [addNode, mem_names_changeNode name]
  exact fun _ => rfl

theorem mem_names_addEdge (source target x : String) :
    x ∈ (g.addEdge source target).names ↔ x = source ∨ x ∈ g.names := by
  rw [addEdge, mem_names_changeNode source]
  exact fun _ => rfl

theorem WellFormed.addNode (formed : WellFormed g) (name : String) (location : Option Location) :
    WellFormed (g.addNode name location) :=
  formed.changeNode name (fun _ => rfl) fun _ sorted => sorted

theorem WellFormed.addEdge (formed : WellFormed g) (source target : String) :
    WellFormed (g.addEdge source target) :=
  formed.changeNode source (fun _ => rfl) fun _ sorted => ascending_insertName sorted target

theorem WellFormed.hasEdge_addNode (formed : WellFormed g) (name : String) (location : Option Location)
    (a b : String) : (g.addNode name location).HasEdge a b ↔ g.HasEdge a b := by
  rw [DependencyGraph.addNode, formed.hasEdge_changeNode name]
  · by_cases same : a = name
    · subst same
      simpa using formed.mem_needs_getD a b
    · simp [same]
  · exact fun _ => rfl

theorem WellFormed.hasEdge_addEdge (formed : WellFormed g) (source target a b : String) :
    (g.addEdge source target).HasEdge a b ↔ g.HasEdge a b ∨ (a = source ∧ b = target) := by
  rw [DependencyGraph.addEdge, formed.hasEdge_changeNode source]
  · by_cases same : a = source
    · subst same
      simp [mem_insertName, formed.mem_needs_getD, or_comm]
    · simp [same]
  · exact fun _ => rfl

/-- A graph holds what its steps say and nothing else. -/
theorem ofSteps_contents (steps : List Step) : WellFormed (ofSteps steps) ∧
    (∀ name, name ∈ (ofSteps steps).names ↔ IsNode steps name) ∧
      ∀ a b, (ofSteps steps).HasEdge a b ↔ .edge a b ∈ steps := by
  induction steps using List.reverseRecOn with
  | nil =>
    refine ⟨⟨List.Pairwise.nil, by simp [ofSteps, empty]⟩, ?_, ?_⟩
    · simp [ofSteps, empty, DependencyGraph.names, IsNode]
    · simp [ofSteps, empty, HasEdge]
  | append_singleton steps step ih =>
    obtain ⟨formed, nodes, edges⟩ := ih
    have last : ofSteps (steps ++ [step]) = step.apply (ofSteps steps) := by
      simp [ofSteps]
    rw [last]
    cases step with
    | node name location =>
      rw [Step.apply]
      refine ⟨formed.addNode name location, fun x => ?_, fun a b => ?_⟩
      · rw [mem_names_addNode, nodes]
        simp only [IsNode, List.mem_append, List.mem_singleton, Step.node.injEq, reduceCtorEq, or_false]
        grind
      · rw [formed.hasEdge_addNode, edges]
        simp
    | edge source target =>
      rw [Step.apply]
      refine ⟨formed.addEdge source target, fun x => ?_, fun a b => ?_⟩
      · rw [mem_names_addEdge, nodes]
        simp only [IsNode, List.mem_append, List.mem_singleton, Step.edge.injEq, reduceCtorEq, or_false]
        grind
      · rw [formed.hasEdge_addEdge, edges]
        simp

theorem ofSteps_wellFormed (steps : List Step) : WellFormed (ofSteps steps) := (ofSteps_contents steps).1

theorem mem_names_ofSteps (steps : List Step) (name : String) : name ∈ (ofSteps steps).names ↔ IsNode steps name :=
  (ofSteps_contents steps).2.1 name

theorem mem_needsOf_ofSteps (steps : List Step) (name other : String) :
    other ∈ (ofSteps steps).needsOf name ↔ DependsOn steps name other := by
  rw [(ofSteps_wellFormed steps).mem_needsOf_iff, (ofSteps_contents steps).2.2, mem_names_ofSteps]
  rfl

end StackCompiler.DependencyGraph
