import StackCompiler.Proofs.Declaration.Build

/-!
The order in which resources are declared does not matter. A graph is given by its nodes,
their locations and their dependencies (`DependencyGraph.ext_contents`), and declarations say
the same of these in any order. Where names differ, at most one resource is found under a
name, so that usages and values are the same too, and so is what is built.
-/
namespace StackCompiler

/-! ### What a graph is given by -/

namespace DependencyGraph

variable {g h : DependencyGraph} {node : Node}

/-- Where a node was declared. -/
def location? (g : DependencyGraph) (name : String) : Option Location :=
  (g.find? name).bind (·.location)

theorem WellFormed.location?_of_mem (formed : WellFormed g) (member : node ∈ g.nodes) :
    g.location? node.name = node.location := by
  rw [location?, (formed.find?_eq_some_iff node.name node).mpr ⟨member, rfl⟩, Option.bind_some]

theorem WellFormed.hasEdge_of_mem (formed : WellFormed g) (member : node ∈ g.nodes) (other : String) :
    g.HasEdge node.name other ↔ other ∈ node.needs := by
  constructor
  · rintro ⟨same, memberToo, name, needed⟩
    exact formed.unique memberToo member name ▸ needed
  · exact fun needed => ⟨node, member, rfl, needed⟩

/-- Graphs hold the same of a node if they say the same of its name. -/
theorem mem_nodes_of_same (formed : WellFormed g) (formedToo : WellFormed h) (nodes : ∀ x, x ∈ g.names ↔ x ∈ h.names)
    (edges : ∀ a b, g.HasEdge a b ↔ h.HasEdge a b) (locations : ∀ x, g.location? x = h.location? x)
    (member : node ∈ g.nodes) : node ∈ h.nodes := by
  obtain ⟨other, memberToo, name⟩ := (mem_names_iff h node.name).mp ((nodes _).mp (List.mem_map_of_mem member))
  have location : node.location = other.location := by
    rw [← formed.location?_of_mem member, ← formedToo.location?_of_mem memberToo, name, locations]
  have needs : node.needs = other.needs := by
    refine Ascending.ext (formed.needs node member) (formedToo.needs other memberToo) fun x => ?_
    rw [← formed.hasEdge_of_mem member, ← formedToo.hasEdge_of_mem memberToo, name, edges]
  have same : node = other := congr (congr (congrArg Node.mk name.symm) location) needs
  exact same ▸ memberToo

theorem ext_contents (formed : WellFormed g) (formedToo : WellFormed h) (nodes : ∀ x, x ∈ g.names ↔ x ∈ h.names)
    (edges : ∀ a b, g.HasEdge a b ↔ h.HasEdge a b) (locations : ∀ x, g.location? x = h.location? x) : g = h := by
  have perm : g.nodes.Perm h.nodes := by
    refine (List.perm_ext_iff_of_nodup formed.names.nodup.of_map formedToo.names.nodup.of_map).mpr fun node => ?_
    constructor
    · exact mem_nodes_of_same formed formedToo nodes edges locations
    · exact mem_nodes_of_same formedToo formed (fun x => (nodes x).symm) (fun a b => (edges a b).symm)
        fun x => (locations x).symm
  have sorted := List.pairwise_map.mp formed.names
  have sortedToo := List.pairwise_map.mp formedToo.names
  have same : g.nodes = h.nodes :=
    perm.eq_of_pairwise (fun _ _ _ _ less more => absurd more (lt_asymm less)) sorted sortedToo
  obtain ⟨_⟩ := g
  obtain ⟨_⟩ := h
  exact congrArg mk same

/-! ### Locations -/

theorem WellFormed.find?_changeNode (formed : WellFormed g) (name : String) {change : Node → Node}
    (keeps : ∀ node, (change node).name = node.name)
    (sorted : ∀ node, Ascending node.needs → Ascending (change node).needs) (x : String) :
    find? ⟨DependencyGraph.changeNode name change g.nodes⟩ x =
      if x = name then some (change ((g.find? name).getD ⟨name, none, []⟩)) else g.find? x := by
  have changed := formed.changeNode name keeps sorted
  have own : (change ((g.find? name).getD ⟨name, none, []⟩)).name = name := (keeps _).trans (formed.name_getD name)
  refine Option.ext fun node => ?_
  rw [changed.find?_eq_some_iff, mem_changeNode name change formed.names]
  change ((node ∈ g.nodes ∧ node.name ≠ name) ∨ node = change ((g.find? name).getD ⟨name, none, []⟩)) ∧ node.name = x ↔ _
  by_cases same : x = name
  · rw [if_pos same, same, Option.some.injEq]
    constructor
    · rintro ⟨⟨-, different⟩ | rfl, named⟩
      · exact absurd named different
      · rfl
    · rintro rfl
      exact ⟨.inr rfl, own⟩
  · rw [if_neg same, formed.find?_eq_some_iff]
    constructor
    · rintro ⟨⟨member, -⟩ | rfl, named⟩
      · exact ⟨member, named⟩
      · exact absurd (named.symm.trans own) same
    · rintro ⟨member, rfl⟩
      exact ⟨.inl ⟨member, same⟩, rfl⟩

theorem WellFormed.location?_addNode (formed : WellFormed g) (name : String) (location : Option Location) (x : String) :
    (g.addNode name location).location? x = if x = name then location <|> g.location? x else g.location? x := by
  rw [location?, DependencyGraph.addNode, formed.find?_changeNode name]
  · split
    · rename_i same
      subst same
      cases found : g.find? x <;> simp [location?, found]
    · rfl
  · exact fun _ => rfl
  · exact fun _ sorted => sorted

theorem WellFormed.location?_addEdge (formed : WellFormed g) (source target x : String) :
    (g.addEdge source target).location? x = g.location? x := by
  rw [location?, DependencyGraph.addEdge, formed.find?_changeNode source]
  · split
    · rename_i same
      subst same
      cases found : g.find? x <;> simp [location?, found]
    · rfl
  · exact fun _ => rfl
  · exact fun _ sorted => ascending_insertName sorted target

/-- The location that a step gives to `name`. -/
def Step.locates (name : String) : Step → Option Location
  | .node other location => if name = other then location else none
  | .edge _ _ => none

/-- A node has the location that was given to it last. -/
theorem location?_ofSteps (steps : List Step) (name : String) :
    (ofSteps steps).location? name = steps.reverse.findSome? (Step.locates name) := by
  induction steps using List.reverseRecOn with
  | nil => rfl
  | append_singleton steps step ih =>
    have formed := ofSteps_wellFormed steps
    have last : ofSteps (steps ++ [step]) = step.apply (ofSteps steps) := by simp [ofSteps]
    rw [last, List.reverse_append, List.reverse_singleton, List.singleton_append, List.findSome?_cons, ← ih]
    cases step with
    | node other location =>
      rw [Step.apply, formed.location?_addNode, Step.locates]
      split
      · cases location <;> rfl
      · rfl
    | edge source target => rw [Step.apply, formed.location?_addEdge, Step.locates]

end DependencyGraph

namespace Declarations

variable {d : Declarations} {resources : List ResourceDecl}

/-- A location in the graph is that of a resource of the name. -/
theorem exists_of_location? {name : String} {l : Location} (found : d.graph.location? name = some l) :
    ∃ r ∈ d.resources, r.name = name ∧ r.location = some l := by
  rw [graph_eq_ofSteps, DependencyGraph.location?_ofSteps] at found
  obtain ⟨step, member, given⟩ := List.exists_of_findSome?_eq_some found
  rw [List.mem_reverse, graphSteps, List.mem_append, List.mem_map, List.mem_flatMap] at member
  rcases member with ⟨r, member, rfl⟩ | ⟨r, -, edge⟩
  · rw [DependencyGraph.Step.locates] at given
    split at given
    · rename_i same
      exact ⟨r, member, same.symm, given⟩
    · cases given
  · obtain ⟨target, -, rfl⟩ := List.mem_map.mp edge
    cases given

/-- Where names differ, the location of a node is that of the one resource of its name. -/
theorem location?_graph_eq_some_iff (distinct : (d.resources.map (·.name)).Nodup) (name : String) (l : Location) :
    d.graph.location? name = some l ↔ ∃ r ∈ d.resources, r.name = name ∧ r.location = some l := by
  refine ⟨exists_of_location?, ?_⟩
  rintro ⟨r, member, rfl, located⟩
  have given : (d.graph.location? r.name).isSome := by
    rw [graph_eq_ofSteps, DependencyGraph.location?_ofSteps, List.findSome?_isSome_iff]
    refine ⟨.node r.name r.location, ?_, by simp [DependencyGraph.Step.locates, located]⟩
    rw [List.mem_reverse, graphSteps]
    exact List.mem_append_left _ (List.mem_map_of_mem member)
  obtain ⟨other, found⟩ := Option.isSome_iff_exists.mp given
  obtain ⟨r', memberToo, same, locatedToo⟩ := exists_of_location? found
  rw [List.inj_on_of_nodup_map distinct memberToo member same, located] at locatedToo
  rw [found, locatedToo]

/-! ### Declarations in another order -/

/-- The same declarations, with the resources in another order. -/
def withResources (d : Declarations) (resources : List ResourceDecl) : Declarations :=
  { d with resources := resources }

theorem withResources_wellNamed (perm : resources.Perm d.resources) (named : d.WellNamed) :
    (d.withResources resources).WellNamed := by
  have same : (d.withResources resources).logicalNames.Perm d.logicalNames := by
    unfold logicalNames
    simp only [List.append_assoc]
    exact (perm.map _).append_right _
  exact ⟨fun name member => named.valid name (same.mem_iff.mp member), same.nodup_iff.mpr named.once⟩

theorem graph_withResources (perm : resources.Perm d.resources) (named : d.WellNamed) :
    (d.withResources resources).graph = d.graph := by
  have namedToo := withResources_wellNamed perm named
  have steps : (d.withResources resources).graphSteps.Perm d.graphSteps :=
    (perm.map _).append (perm.flatMap_right _)
  have wellFormed (d : Declarations) : d.graph.WellFormed := by
    rw [graph_eq_ofSteps]
    exact DependencyGraph.ofSteps_wellFormed _
  refine DependencyGraph.ext_contents (wellFormed _) (wellFormed _) ?nodes ?edges ?locations
  case nodes =>
    intro x
    simp only [graph_eq_ofSteps, DependencyGraph.mem_names_ofSteps, DependencyGraph.IsNode, steps.mem_iff]
  case edges =>
    intro a b
    simp only [graph_eq_ofSteps, (DependencyGraph.ofSteps_contents _).2.2, steps.mem_iff]
  case locations =>
    intro x
    refine Option.ext fun l => ?_
    rw [location?_graph_eq_some_iff namedToo.resources_nodup, location?_graph_eq_some_iff named.resources_nodup]
    simp only [withResources, perm.mem_iff]

theorem order_withResources (perm : resources.Perm d.resources) (named : d.WellNamed) :
    (d.withResources resources).order = d.order := by
  unfold order
  rw [(checkNames_eq_ok_iff _).mpr (withResources_wellNamed perm named), (checkNames_eq_ok_iff _).mpr named,
    graph_withResources perm named]

/-- At most one resource has a name, so that those of a name are in the same order. -/
theorem filter_withResources (perm : resources.Perm d.resources) (named : d.WellNamed) (name : String) :
    resources.filter (·.name == name) = d.resources.filter (·.name == name) := by
  have unordered (rs : List ResourceDecl) : rs.Pairwise fun _ _ => True := List.pairwise_of_forall fun _ _ => trivial
  refine (perm.filter _).eq_of_pairwise (fun r s inside insideToo _ _ => ?_) (unordered _) (unordered _)
  obtain ⟨member, called⟩ := List.mem_filter.mp inside
  obtain ⟨memberToo, calledToo⟩ := List.mem_filter.mp insideToo
  refine List.inj_on_of_nodup_map named.resources_nodup (perm.mem_iff.mp member) memberToo ?_
  exact (eq_of_beq called).trans (eq_of_beq calledToo).symm

theorem resource?_withResources (perm : resources.Perm d.resources) (named : d.WellNamed) (name : String) :
    (d.withResources resources).resource? name = d.resource? name := by
  rw [resource?, resource?, ← List.head?_filter, ← List.head?_filter]
  exact congrArg List.head? (filter_withResources perm named name)

/-! ### Usages -/

/-- The usages that are collected depend on what is recorded under each name only. -/
theorem collect_congr {d e : Declarations} (usages : ∀ name, d.usagesOf name = e.usagesOf name)
    (fields : ∀ name, d.fieldsOf name = e.fieldsOf name)
    (dependencies : ∀ name, d.dependenciesOf name = e.dependenciesOf name) (depth : Nat) :
    d.collect depth = e.collect depth := by
  induction depth with
  | zero => rfl
  | succ depth ih =>
    funext lead origin name found
    rw [collect, collect, usages, fields, dependencies, ih]

theorem resolve_withResources (perm : resources.Perm d.resources) (named : d.WellNamed) (name : String) :
    (d.withResources resources).resolve name = d.resolve name := by
  have usages (name : String) : (d.withResources resources).usagesOf name = d.usagesOf name := by
    simp only [usagesOf, withResources, filter_withResources perm named]
  have dependencies (name : String) : (d.withResources resources).dependenciesOf name = d.dependenciesOf name := by
    simp only [dependenciesOf, withResources, filter_withResources perm named]
  have links : (d.withResources resources).linkCount = d.linkCount := by
    simp only [linkCount, withResources, (perm.flatMap_right fun r => r.dependencies).length_eq]
  unfold resolve
  rw [links, collect_congr usages (fun _ => rfl) dependencies]

/-! ### Builds -/

/-- Declarations with valid and distinct names give the same order and the same template, or fail with the
    same error, in whatever order their resources are declared. -/
theorem order_and_build_of_perm (perm : resources.Perm d.resources) (named : d.WellNamed) :
    (d.withResources resources).order = d.order ∧ (d.withResources resources).build = d.build := by
  refine ⟨order_withResources perm named, ?_⟩
  have entries : (d.withResources resources).buildResource = d.buildResource := by
    funext r
    unfold buildResource
    rw [resolve_withResources perm named]
    rfl
  have outputs : (d.withResources resources).buildOutput = d.buildOutput := by
    funext o
    unfold buildOutput
    rw [resolve_withResources perm named]
  have found : (d.withResources resources).resource? = d.resource? := funext (resource?_withResources perm named)
  unfold build
  rw [order_withResources perm named, entries, outputs, found]
  rfl

/-- A queue and a topic that need each other. -/
def mutualDeclarations : Declarations :=
  { resources := [
      { name := "Queue", type := "sqs.Queue", location := some ⟨"stack.rs", 9⟩, dependencies := ["Topic"] },
      { name := "Topic", type := "sns.Topic", location := some ⟨"stack.rs", 4⟩, dependsOn := ["Queue"] }] }

/-- The cycle starts at the queue, whichever of the two is declared first. -/
theorem order_and_build_of_perm_queue :
    let reversed := mutualDeclarations.resources.reverse
    reversed.Perm mutualDeclarations.resources ∧ mutualDeclarations.WellNamed ∧
      mutualDeclarations.order = .error (.cycle
        ⟨[("Queue", some ⟨"stack.rs", 9⟩), ("Topic", some ⟨"stack.rs", 4⟩)]⟩) ∧
      (mutualDeclarations.withResources reversed).order = mutualDeclarations.order ∧
      (mutualDeclarations.withResources reversed).build = mutualDeclarations.build := by
  intro reversed
  have perm : reversed.Perm mutualDeclarations.resources := List.reverse_perm _
  have named : mutualDeclarations.WellNamed := (checkNames_eq_ok_iff _).mp (by rfl)
  exact ⟨perm, named, by rfl, order_and_build_of_perm perm named⟩

end Declarations

end StackCompiler
