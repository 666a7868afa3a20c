import StackCompiler.Proofs.Declaration.Build
import StackCompiler.Proofs.Declaration.GraphCycle
import StackCompiler.Proofs.Registry.Type

/-!
What a build says of the declarations. Its names are valid and differ, its resources are the
declared ones in an order of their dependencies, each entry says what was declared of it, and
the transform is there for serverless types alone (`Assembled`). Declarations of which this
cannot hold are not built.
-/
namespace StackCompiler.Declarations

open DependencyGraph (IsOrder)

/-- The resource `name` is declared to depend on the resource `other`. -/
def Needs (d : Declarations) (name other : String) : Prop :=
  (∃ r ∈ d.resources, r.name = name ∧ (other ∈ r.dependencies ∨ other ∈ r.dependsOn)) ∧
    ∃ r ∈ d.resources, r.name = other

/-- An entry with the type that was declared, resolved, and with all else as it was declared. -/
structure IsEntryOf (r : ResourceDecl) (entry : Resource) : Prop where
  type : DeclaredType.canonical? r.type = some entry.type
  dependsOn : entry.dependsOn = r.dependsOn
  condition : entry.condition = r.condition
  deletionPolicy : entry.deletionPolicy = r.deletionPolicy
  updateReplacePolicy : entry.updateReplacePolicy = r.updateReplacePolicy
  metadata : entry.metadata = r.metadata

structure Assembled (d : Declarations) (t : Template) : Prop where
  named : d.WellNamed
  order : IsOrder (fun name => ∃ r ∈ d.resources, r.name = name) d.Needs (memberNames t.resources)
  entries : ∀ name entry, (name, entry) ∈ t.resources → ∃ r ∈ d.resources, r.name = name ∧ IsEntryOf r entry
  marked : (∃ r ∈ d.resources, DeclaredIn "serverless" r.type) →
    t.transform = some (.str Template.serverlessTransform)
  unmarked : (¬ ∃ r ∈ d.resources, DeclaredIn "serverless" r.type) → t.transform = none

variable {d : Declarations} {t : Template} {names : List String}

/-! ### The order of the entries -/

theorem dependsOn_graphSteps_iff (d : Declarations) (name other : String) :
    DependencyGraph.DependsOn d.graphSteps name other ↔ d.Needs name other := by
  unfold DependencyGraph.DependsOn Needs
  rw [isNode_graphSteps_iff]
  refine and_congr_left fun _ => ?_
  simp only [graphSteps, List.mem_append, List.mem_map, List.mem_flatMap, reduceCtorEq, and_false, exists_false,
    false_or, DependencyGraph.Step.edge.injEq]
  constructor
  · rintro ⟨r, member, target, declared, rfl, rfl⟩
    exact ⟨r, member, rfl, declared⟩
  · rintro ⟨r, member, rfl, declared⟩
    exact ⟨r, member, other, declared, rfl, rfl⟩

/-- The order that is given lists the declared resources, each after all that it needs. -/
theorem order_isOrder (done : d.order = .ok names) :
    IsOrder (fun name => ∃ r ∈ d.resources, r.name = name) d.Needs names := by
  have isOrder := DependencyGraph.order_isOrder (order_eq_ok done).2
  exact ⟨isOrder.once, fun name => (isOrder.members name).trans (isNode_graphSteps_iff d name),
    fun before name rest split other needs =>
      isOrder.after before name rest split other ((dependsOn_graphSteps_iff d name other).mpr needs)⟩

/-- The resources of an order have the names of the order. -/
theorem ordered_names (named : d.WellNamed) (declared : ∀ name ∈ names, ∃ r ∈ d.resources, r.name = name) :
    (names.filterMap d.resource?).map (·.name) = names := by
  induction names with
  | nil => rfl
  | cons name rest ih =>
    obtain ⟨⟨r, member, rfl⟩, later⟩ := List.forall_mem_cons.mp declared
    rw [List.filterMap_cons_some (resource?_eq_some named.resources_nodup member), List.map_cons, ih later]

theorem BuiltFrom.named (built : BuiltFrom d names t) : d.WellNamed :=
  (checkNames_eq_ok_iff d).mp (order_eq_ok built.order).1

theorem BuiltFrom.memberNames (built : BuiltFrom d names t) : memberNames t.resources = names := by
  have isOrder := order_isOrder built.order
  have same : (names.filterMap d.resource?).map (·.name) = t.resources.map (·.1) := by
    rw [← List.forall₂_eq_eq_eq, List.forall₂_map_left_iff, List.forall₂_map_right_iff]
    exact built.resources.imp fun _ _ step => step.1
  exact same.symm.trans (ordered_names built.named fun name => (isOrder.members name).mp)

/-! ### What the entries say -/

theorem buildResource_isEntryOf {r : ResourceDecl} {entry : Resource} (done : d.buildResource r = .ok entry) :
    IsEntryOf r entry := by
  unfold buildResource at done
  split at done
  · cases done
  · rename_i type resolved
    simp only [bind_eq_ok, pure_eq_ok] at done
    obtain ⟨properties, -, rfl⟩ := done
    exact ⟨resolved, rfl, rfl, rfl, rfl, rfl⟩

/-- Every entry stands for a declared resource. -/
theorem BuiltFrom.exists_declared (built : BuiltFrom d names t) {entry : String × Resource} (member : entry ∈ t.resources) :
    ∃ r ∈ d.resources, r.name = entry.1 ∧ IsEntryOf r entry.2 := by
  obtain ⟨r, ordered, name, done⟩ := exists_mem_of_forall₂ built.resources member
  exact ⟨r, (mem_ordered_iff built.order r).mp ordered, name, buildResource_isEntryOf done⟩

/-- Every declared resource has an entry. -/
theorem BuiltFrom.exists_entry (built : BuiltFrom d names t) {r : ResourceDecl} (member : r ∈ d.resources) :
    ∃ entry ∈ t.resources, r.name = entry.1 ∧ IsEntryOf r entry.2 := by
  obtain ⟨entry, listed, name, done⟩ :=
    exists_mem_of_forall₂ built.resources.flip ((mem_ordered_iff built.order r).mpr member)
  exact ⟨entry, listed, name, buildResource_isEntryOf done⟩

theorem BuiltFrom.any_serverless_iff (built : BuiltFrom d names t) :
    t.resources.any (fun entry => isServerless entry.2.type) = true ↔
      ∃ r ∈ d.resources, DeclaredIn "serverless" r.type := by
  rw [List.any_eq_true]
  constructor
  · rintro ⟨entry, member, serverless⟩
    obtain ⟨r, declared, -, isEntry⟩ := built.exists_declared member
    exact ⟨r, declared, (isServerless_canonical_iff isEntry.type).mp serverless⟩
  · rintro ⟨r, declared, serverless⟩
    obtain ⟨entry, member, -, isEntry⟩ := built.exists_entry declared
    exact ⟨entry, member, (isServerless_canonical_iff isEntry.type).mpr serverless⟩

theorem BuiltFrom.assembled (built : BuiltFrom d names t) : d.Assembled t where
  named := built.named
  order := built.memberNames ▸ order_isOrder built.order
  entries := fun _ _ member => built.exists_declared member
  marked := fun serverless => by rw [built.transform, if_pos (built.any_serverless_iff.mpr serverless)]
  unmarked := fun none => by rw [built.transform, if_neg fun found => none (built.any_serverless_iff.mp found)]

/-! ### Declarations that are not built -/

/-- Names are wrong, resources depend on each other in a circle, or a type does not resolve. -/
inductive Flawed (d : Declarations) : Prop
  | names (wrong : ¬ d.WellNamed)
  | cyclic (name : String) (path : Relation.TransGen d.Needs name name)
  | unresolved (r : ResourceDecl) (member : r ∈ d.resources) (unknown : DeclaredType.canonical? r.type = none)

theorem BuiltFrom.not_flawed (built : BuiltFrom d names t) : ¬ d.Flawed := by
  intro flawed
  cases flawed with
  | names wrong => exact wrong built.named
  | cyclic name path =>
    obtain ⟨next, needs, -⟩ := Relation.TransGen.head'_iff.mp path
    obtain ⟨r, member, same, -⟩ := needs.1
    exact (order_isOrder built.order).acyclic ⟨r, member, same⟩ path
  | unresolved r member unknown =>
    obtain ⟨entry, -, -, isEntry⟩ := built.exists_entry member
    rw [isEntry.type] at unknown
    cases unknown

/-- A template that is built has its names checked, its resources in order, each entry as it was
    declared, and the transform for serverless types alone. Flawed declarations are not built. -/
theorem build_assembled (d : Declarations) :
    (∀ t, d.build = .ok t → d.Assembled t) ∧ (d.Flawed → ∃ e, d.build = .error e) := by
  constructor
  · intro t done
    obtain ⟨names, built⟩ := build_eq_ok done
    exact built.assembled
  · intro flawed
    cases done : d.build with
    | error e => exact ⟨e, rfl⟩
    | ok t =>
      obtain ⟨names, built⟩ := build_eq_ok done
      exact absurd flawed built.not_flawed

/-- A function that needs a database, a parameter and, through the database, a bucket. -/
def handlerDeclarations : Declarations :=
  { resources := [
      { name := "Handler", type := "Serverless.Function", dependencies := ["Table", "Stage"], condition := some "Live" },
      { name := "Audit", type := "s3.Bucket", deletionPolicy := some "Retain" },
      { name := "Table", type := "rds.DBInstance", dependsOn := ["Audit"] }]
    parameters := [{ name := "Stage" }]
    conditions := [{ name := "Live" }]
    values := [("Stage", .obj [("Type", .str "String")]), ("Live", .fn (.equals (.fn (.ref "Stage")) (.str "live")))] }

/-- The database is built after the bucket and before the function. A queue and a topic that need each
    other are not built. -/
theorem build_assembled_handler :
    let circular : Declarations := {
      resources := [
        { name := "Queue", type := "sqs.Queue", dependencies := ["Topic"] },
        { name := "Topic", type := "sns.Topic", dependsOn := ["Queue"] }] }
    (∃ t, handlerDeclarations.build = .ok t ∧ memberNames t.resources = ["Audit", "Table", "Handler"] ∧
      handlerDeclarations.Assembled t ∧ t.transform = some (.str "AWS::Serverless-2016-10-31")) ∧
    circular.Flawed ∧ ∃ e, circular.build = .error e := by
  intro circular
  have computed : (handlerDeclarations.build.toOption.map fun t => memberNames t.resources) =
      some ["Audit", "Table", "Handler"] := by decide +kernel
  have serverless : DeclaredIn "serverless" "Serverless.Function" :=
    ⟨"Serverless", "Function", rfl, by decide, by decide +kernel⟩
  have there : circular.Needs "Queue" "Topic" := by simp [circular, Needs]
  have back : circular.Needs "Topic" "Queue" := by simp [circular, Needs]
  have flawed : circular.Flawed := .cyclic "Queue" (.tail (.single there) back)
  refine ⟨?_, flawed, (build_assembled circular).2 flawed⟩
  cases done : handlerDeclarations.build with
  | error _ => rw [done] at computed; cases computed
  | ok t =>
    rw [done] at computed
    have assembled := (build_assembled handlerDeclarations).1 t done
    exact ⟨t, rfl, Option.some.inj computed, assembled, assembled.marked ⟨_, List.mem_cons_self, serverless⟩⟩

end StackCompiler.Declarations
