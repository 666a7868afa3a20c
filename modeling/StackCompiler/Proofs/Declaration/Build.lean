import StackCompiler.Proofs.Declaration.GraphOrder
import StackCompiler.Proofs.Declaration.Names
import StackCompiler.Proofs.Declaration.Repair
import StackCompiler.Proofs.Template.Values

/-!
Where the entries of a built template come from. Every resource has an entry, since the
order holds exactly the declared names and these differ (`mem_ordered_iff`). Properties and
outputs are repaired and all else is copied, so whether references of the template lack
their resource is up to the declarations alone (`Complete`).
-/
namespace StackCompiler

namespace Declarations

/-! ### The order of resources -/

/-- The changes that make the graph of the resources. -/
def graphSteps (d : Declarations) : List DependencyGraph.Step :=
  d.resources.map (fun r => .node r.name r.location)
    ++ d.resources.flatMap fun r => (r.dependencies ++ r.dependsOn).map (.edge r.name)

theorem graph_eq_ofSteps (d : Declarations) : d.graph = .ofSteps d.graphSteps := by
  simp only [graph, graphSteps, DependencyGraph.ofSteps, List.foldl_append, List.foldl_map, List.foldl_flatMap,
    DependencyGraph.Step.apply]

theorem isNode_graphSteps_iff (d : Declarations) (name : String) :
    DependencyGraph.IsNode d.graphSteps name ↔ ∃ r ∈ d.resources, r.name = name := by
  simp only [DependencyGraph.IsNode, graphSteps, List.mem_append, List.mem_map, List.mem_flatMap]
  constructor
  · rintro (⟨location, ⟨r, member, same⟩ | ⟨r, member, other, -, same⟩⟩ |
      ⟨target, ⟨r, member, same⟩ | ⟨r, member, other, -, same⟩⟩)
    · exact ⟨r, member, (DependencyGraph.Step.node.inj same).1⟩
    · cases same
    · cases same
    · exact ⟨r, member, (DependencyGraph.Step.edge.inj same).1⟩
  · rintro ⟨r, member, rfl⟩
    exact .inl ⟨r.location, .inl ⟨r, member, rfl⟩⟩

theorem order_eq_ok {d : Declarations} {names : List String} (done : d.order = .ok names) :
    d.checkNames = .ok () ∧ (DependencyGraph.ofSteps d.graphSteps).order = .ok names := by
  simp only [order, bind_eq_ok] at done
  obtain ⟨_, checked, done⟩ := done
  refine ⟨checked, ?_⟩
  rw [graph_eq_ofSteps] at done
  split at done
  · rename_i found
    rw [pure_eq_ok] at done
    exact done ▸ found
  · cases done

theorem resource?_eq_some {d : Declarations} (distinct : (d.resources.map (·.name)).Nodup) {r : ResourceDecl}
    (member : r ∈ d.resources) : d.resource? r.name = some r := by
  cases found : d.resource? r.name with
  | none =>
    have absent := List.find?_eq_none.mp found r member
    simp at absent
  | some other =>
    have same : other.name = r.name := by simpa using List.find?_some found
    rw [List.inj_on_of_nodup_map distinct (List.mem_of_find?_eq_some found) member same]

/-- The resources in order are the declared ones: none is left out, and none comes from elsewhere. -/
theorem mem_ordered_iff {d : Declarations} {names : List String} (done : d.order = .ok names) (r : ResourceDecl) :
    r ∈ names.filterMap d.resource? ↔ r ∈ d.resources := by
  obtain ⟨checked, ordered⟩ := order_eq_ok done
  rw [List.mem_filterMap]
  constructor
  · rintro ⟨name, -, found⟩
    exact List.mem_of_find?_eq_some found
  · intro member
    have node := (isNode_graphSteps_iff d r.name).mpr ⟨r, member, rfl⟩
    have listed := ((DependencyGraph.order_isOrder ordered).members r.name).mpr node
    exact ⟨r.name, listed, resource?_eq_some ((checkNames_eq_ok_iff d).mp checked).resources_nodup member⟩

/-! ### The entries of a template -/

/-- The entries of a template stand for the declarations, section by section. -/
structure BuiltFrom (d : Declarations) (names : List String) (t : Template) : Prop where
  order : d.order = .ok names
  resources : List.Forall₂ (fun r entry => r.name = entry.1 ∧ d.buildResource r = .ok entry.2)
    (names.filterMap d.resource?) t.resources
  parameters : List.Forall₂ (fun p entry => p.name = entry.1 ∧
    buildParameter p.name (d.valueOf p.name) = .ok entry.2) d.parameters t.parameters
  outputs : List.Forall₂ (fun o entry => o.name = entry.1 ∧ d.buildOutput o = .ok entry.2) d.outputs t.outputs
  mappings : t.mappings = d.mappings.map fun m => (m.name, d.valueOf m.name)
  conditions : t.conditions = d.conditions.map fun c => (c.name, d.valueOf c.name)
  transform : t.transform = if t.resources.any (fun entry => isServerless entry.2.type)
    then some (.str Template.serverlessTransform) else none

theorem buildSection_eq_ok {α β : Type} {name : α → String} {entry : α → Except BuildError β} {decls : List α}
    {entries : List (String × β)} (done : buildSection name entry decls = .ok entries) :
    List.Forall₂ (fun decl built => name decl = built.1 ∧ entry decl = .ok built.2) decls entries := by
  refine List.Forall₂.imp (fun decl built single => ?_) ((mapM_eq_ok_iff _ _ _).mp done)
  simp only [bind_eq_ok, pure_eq_ok] at single
  obtain ⟨result, done, rfl⟩ := single
  exact ⟨rfl, done⟩

theorem build_eq_ok {d : Declarations} {t : Template} (built : d.build = .ok t) : ∃ names, BuiltFrom d names t := by
  simp only [build, bind_eq_ok, pure_eq_ok] at built
  obtain ⟨names, ordered, resources, fromResources, parameters, fromParameters, outputs, fromOutputs, rfl⟩ := built
  exact ⟨names, ordered, buildSection_eq_ok fromResources, buildSection_eq_ok fromParameters,
    buildSection_eq_ok fromOutputs, rfl, rfl, rfl⟩

end Declarations

/-! ### The values of a template -/

/-- No reference of a template lacks its resource. -/
def Template.Resolved (t : Template) : Prop := ∀ v ∈ t.values, v.Resolved

namespace Declarations

/-- Declarations whose references have their resources, or get them where the template is built. Only
    properties and the values of outputs are repaired. -/
structure Complete (d : Declarations) : Prop where
  properties : ∀ r ∈ d.resources, (d.valueOf r.name).Repairable (d.resolve r.name) .root
  metadata : ∀ r ∈ d.resources, ∀ v ∈ r.metadata, v.Resolved
  defaults : ∀ p ∈ d.parameters, ∀ v, (d.valueOf p.name).get? "Default" = some v → v.Resolved
  allowed : ∀ p ∈ d.parameters, ∀ items, (d.valueOf p.name).get? "AllowedValues" = some (.arr items) →
    ∀ v ∈ items, v.Resolved
  mappings : ∀ m ∈ d.mappings, (d.valueOf m.name).Resolved
  conditions : ∀ c ∈ d.conditions, (d.valueOf c.name).Resolved
  outputs : ∀ o ∈ d.outputs, o.value.Repairable (d.resolve o.name) (.parse "Value")
  exports : ∀ o ∈ d.outputs, ∀ v, exportName o = .ok (some v) → v.Resolved

theorem buildResource_resolved_iff {d : Declarations} {r : ResourceDecl} {built : Resource}
    (done : d.buildResource r = .ok built) :
    (∀ v ∈ built.values, v.Resolved) ↔
      (d.valueOf r.name).Repairable (d.resolve r.name) .root ∧ ∀ v ∈ r.metadata, v.Resolved := by
  unfold buildResource at done
  split at done
  · cases done
  · simp only [bind_eq_ok, pure_eq_ok] at done
    obtain ⟨properties, repaired, rfl⟩ := done
    simp [Resource.values, Value.repairAt_resolved_iff repaired]

theorem buildOutput_resolved_iff {d : Declarations} {o : OutputDecl} {built : Output}
    (done : d.buildOutput o = .ok built) :
    (∀ v ∈ built.values, v.Resolved) ↔ o.value.Repairable (d.resolve o.name) (.parse "Value") ∧
      ∀ v, exportName o = .ok (some v) → v.Resolved := by
  simp only [buildOutput, bind_eq_ok, pure_eq_ok] at done
  obtain ⟨value, repaired, exported, found, rfl⟩ := done
  simp [Output.values, Value.repairAt_resolved_iff repaired, found]

theorem buildParameter_resolved_iff {name : String} {value : Value} {built : Parameter}
    (done : buildParameter name value = .ok built) :
    (∀ v ∈ built.values, v.Resolved) ↔ (∀ v, value.get? "Default" = some v → v.Resolved) ∧
      ∀ items, value.get? "AllowedValues" = some (.arr items) → ∀ v ∈ items, v.Resolved := by
  unfold buildParameter at done
  split at done
  · rename_i fields
    simp only [bind_eq_ok, pure_eq_ok] at done
    obtain ⟨_, -, _, -, _, -, _, -, rfl⟩ := done
    simp only [Parameter.values, List.forall_mem_append, Value.get?]
    apply and_congr
    · cases fields.lookup "Default" with
      | none => simp
      | some v => cases v <;> simp [Option.filter, Value.isNull, Value.resolved_null]
    · cases fields.lookup "AllowedValues" with
      | none => simp
      | some v => cases v <;> simp [Value.asArr?]
  · cases done

/-- Whether a reference of a built template lacks its resource is up to the declarations: the template
    is resolved exactly if they are complete. -/
theorem build_resolved_iff_complete {d : Declarations} {t : Template} (built : d.build = .ok t) :
    t.Resolved ↔ d.Complete := by
  obtain ⟨names, order, resources, parameters, outputs, mappings, conditions, transform⟩ := build_eq_ok built
  have inResources := forall_mem_iff_of_forall₂ resources fun r _ entry step => (buildResource_resolved_iff step.2).symm
  have inParameters := forall_mem_iff_of_forall₂ parameters
    fun p _ entry step => (buildParameter_resolved_iff step.2).symm
  have inOutputs := forall_mem_iff_of_forall₂ outputs fun o _ entry step => (buildOutput_resolved_iff step.2).symm
  simp only [mem_ordered_iff order] at inResources
  have inTransform : ∀ v ∈ t.transform.toList, v.Resolved := by
    rw [transform]
    split <;> simp [Value.resolved_str]
  unfold Template.Resolved Template.values
  simp only [List.forall_mem_append, List.forall_mem_flatMap, mappings, conditions, List.map_map, List.forall_mem_map,
    ← inParameters, ← inResources, ← inOutputs]
  constructor
  · rintro ⟨⟨⟨⟨⟨-, parameters⟩, mappings⟩, conditions⟩, resources⟩, outputs⟩
    exact {
      properties := fun r member => (resources r member).1
      metadata := fun r member => (resources r member).2
      defaults := fun p member => (parameters p member).1
      allowed := fun p member => (parameters p member).2
      mappings := mappings
      conditions := conditions
      outputs := fun o member => (outputs o member).1
      exports := fun o member => (outputs o member).2 }
  · intro complete
    exact ⟨⟨⟨⟨⟨inTransform, fun p member => ⟨complete.defaults p member, complete.allowed p member⟩⟩,
      complete.mappings⟩, complete.conditions⟩, fun r member => ⟨complete.properties r member, complete.metadata r member⟩⟩,
      fun o member => ⟨complete.outputs o member, complete.exports o member⟩⟩

/-- A reference inside a call takes its resource from what the output records. -/
theorem build_resolved_joined_output :
    let d : Declarations := {
      conditions := [{ name := "Audited" }]
      outputs := [{ name := "Address", value := .fn (.join "" (.arr [.str "sqs:", .fn (.getAtt ⟨"", "Arn"⟩)])),
                    attrUsages := [⟨"Queue", "Arn", "Value.Values"⟩] }]
      values := [("Audited", .fn (.condition "Live"))] }
    let t : Template := {
      formatVersion := "2010-09-09"
      conditions := [("Audited", .fn (.condition "Live"))]
      outputs := [("Address", { value := .fn (.join "" (.arr [.str "sqs:", .fn (.getAtt ⟨"Queue", "Arn"⟩)])) })] }
    d.build = .ok t ∧ t.Resolved ∧ d.Complete := by
  intro d t
  have built : d.build = .ok t := by rfl
  have resolved : t.Resolved := by
    simp (disch := decide) [t, Template.Resolved, Template.values, Output.values, Value.resolved_iff_parts,
      Value.parts, Intrinsic.args, Value.itemParts, Value.resolved_getAtt_iff, AttrRef.isUnresolved]
  exact ⟨built, resolved, (build_resolved_iff_complete built).mp resolved⟩

/-- A reference inside a substitution is passed by. No usage is recorded for it, and the template is
    built with it all the same. -/
theorem build_unresolved_substitution :
    let d : Declarations := {
      outputs := [{ name := "Address", value := .fn (.sub "$\x7bX\x7d" [("X", .fn (.getAtt ⟨"", "Arn"⟩))]) }] }
    ∃ t, d.build = .ok t ∧ ¬ t.Resolved := by
  intro d
  have built : d.build = .ok {
      formatVersion := "2010-09-09"
      outputs := [("Address", { value := .fn (.sub "$\x7bX\x7d" [("X", .fn (.getAtt ⟨"", "Arn"⟩))]) })] } := by rfl
  refine ⟨_, built, fun resolved => ?_⟩
  simp (disch := decide) [Template.Resolved, Template.values, Output.values, Value.resolved_iff_parts, Value.parts,
    Intrinsic.args, Intrinsic.keyed, Value.resolved_getAtt_iff, AttrRef.isUnresolved] at resolved

end Declarations

end StackCompiler
