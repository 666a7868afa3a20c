import StackCompiler.Proofs.Declaration.Assembly
import StackCompiler.Proofs.Declaration.Reading
import StackCompiler.Proofs.Equality
import StackCompiler.Proofs.Template.RoundTrip

/-!
The documents of built templates. A build keeps all that reading checks of an entry, and a
repair keeps values such that they come back from their wire form (`repairAt_canonical`).
What a build does not check is whether the dependencies and conditions that it copies are
declared. So its document is read again, as the same document, exactly if they are
(`build_accepted_iff_linked`).
-/
namespace StackCompiler

/-! ### Repaired values -/

namespace Value

variable {name : String} {usages : List Usage} {base : FieldPath} {v w : Value}

/-- What stands in a repaired value stood in the value, repaired or as it is. -/
theorem repairAt_child (done : repairAt name usages base v = .ok w) {u : Value} (child : Child u w) :
    ∃ before, Child before v ∧ (before = u ∨ ∃ inner, repairAt name usages inner before = .ok u) := by
  by_cases reference : v.function? = some .getAtt
  · obtain ⟨attr, rfl⟩ := eq_getAtt_of_function? reference
    simp only [repairAt, repairCall, map_eq_ok] at done
    obtain ⟨_, ⟨repaired, -, rfl⟩, rfl⟩ := done
    cases child
  by_cases substitution : v.function? = some .sub
  · obtain ⟨template, bindings, rfl⟩ := eq_sub_of_function? substitution
    simp only [repairAt, repairCall, map_eq_ok, pure_eq_ok] at done
    obtain ⟨_, rfl, rfl⟩ := done
    exact ⟨u, child, .inl rfl⟩
  · rw [repairAt_eq_mapChildrenM name usages base reference substitution] at done
    obtain ⟨steps, part⟩ := (child_iff_parts u w).mp child
    obtain ⟨before, member, -, repaired⟩ := exists_mem_of_forall₂ (mapChildrenM_each done).2 part
    exact ⟨before.2, (child_iff_parts _ v).mpr ⟨before.1, member⟩, .inr ⟨_, repaired⟩⟩

theorem repairAt_asFn? (done : repairAt name usages base v = .ok w) : w.asFn? = none ↔ v.asFn? = none := by
  cases v with
  | fn _ | arr _ | obj _ =>
    simp only [repairAt, map_eq_ok] at done
    obtain ⟨_, -, rfl⟩ := done
    simp [asFn?]
  | null | bool _ | num _ | str _ =>
    simp only [repairAt, pure_eq_ok] at done
    subst done
    rfl

theorem repairAt_eq_str {s : String} (done : repairAt name usages base v = .ok (.str s)) : v = .str s := by
  cases v <;> simp [repairAt] at done
  exact congrArg Value.str done

theorem repairMembers_eq_singleton {members : List (String × Value)} {key : String} {value : Value}
    (done : repairMembers name usages base members = .ok [(key, value)]) :
    ∃ before, members = [(key, before)] ∧ repairAt name usages (base.key key) before = .ok value := by
  cases members with
  | nil => simp [repairMembers] at done
  | cons member rest =>
    simp only [repairMembers, bind_eq_ok, pure_eq_ok, List.cons.injEq, Prod.mk.injEq] at done
    obtain ⟨_, first, _, later, ⟨rfl, rfl⟩, rfl⟩ := done
    cases rest with
    | nil => exact ⟨member.2, rfl, first⟩
    | cons _ _ => simp [repairMembers] at later

theorem repairCall_eq_verbatim {call : Intrinsic Value} {key : String} {args : Json}
    (done : repairCall name usages base call = .ok (.verbatim key args)) : call = .verbatim key args := by
  cases call <;> simp [repairCall] at done
  rw [done.1, done.2]

/-- A repair makes no call of an object, and leaves alone what is kept as written. -/
theorem repairAt_nodeCanonical (done : repairAt name usages base v = .ok w) (node : NodeCanonical v) : NodeCanonical w := by
  unfold NodeCanonical
  split
  case h_1 key value =>
    cases v with
    | obj members =>
      simp only [repairAt, map_eq_ok, Value.obj.injEq] at done
      obtain ⟨_, done, rfl⟩ := done
      obtain ⟨before, rfl, repaired⟩ := repairMembers_eq_singleton done
      have plain : ¬ ReadAsCall key before := node
      rintro (known | start | ⟨same, s, rfl⟩)
      · exact plain (.inl known)
      · exact plain (.inr (.inl start))
      · exact plain (.inr (.inr ⟨same, s, repairAt_eq_str repaired⟩))
    | _ => simp [repairAt] at done
  case h_2 key args =>
    cases v with
    | fn call =>
      simp only [repairAt, map_eq_ok, Value.fn.injEq] at done
      obtain ⟨_, done, rfl⟩ := done
      obtain rfl := repairCall_eq_verbatim done
      exact node
    | _ => simp [repairAt] at done
  case h_3 => trivial

/-- Repaired values come back from their wire form as the values before did, and nest their calls no
    deeper. -/
theorem repairAt_everywhere {n : Nat} (done : repairAt name usages base v = .ok w)
    (nodes : Everywhere NodeCanonical v) (nesting : callDepth v ≤ n) : Everywhere NodeCanonical w ∧ callDepth w ≤ n := by
  induction v using node_induction generalizing base w n with
  | step v ih =>
    obtain ⟨node, inside⟩ := (everywhere_iff _ v).mp nodes
    have here := repairAt_nodeCanonical done node
    -- The bindings of a substitution are not repaired: they are below as they were, with no induction.
    have below (m : Nat) (bounded : ∀ u, Child u v → callDepth u ≤ m) (u : Value) (child : Child u w) :
        Everywhere NodeCanonical u ∧ callDepth u ≤ m := by
      obtain ⟨before, member, rfl | ⟨inner, repaired⟩⟩ := repairAt_child done child
      · exact ⟨inside before member, bounded before member⟩
      · exact ih before member repaired (inside before member) (bounded before member)
    cases kind : v.asFn? with
    | none =>
      rw [callDepth_le_iff_of_plain kind] at nesting
      rw [everywhere_iff, callDepth_le_iff_of_plain ((repairAt_asFn? done).mpr kind)]
      exact ⟨⟨here, fun u child => (below n nesting u child).1⟩, fun u child => (below n nesting u child).2⟩
    | some call =>
      obtain rfl := asFn?_eq_some kind
      rw [callDepth_fn_le_iff] at nesting
      cases changed : w.asFn? with
      | none => cases kind.symm.trans ((repairAt_asFn? done).mp changed)
      | some other =>
        obtain rfl := asFn?_eq_some changed
        rw [everywhere_iff, callDepth_fn_le_iff]
        exact ⟨⟨here, fun u child => (below _ nesting.2 u child).1⟩, nesting.1, fun u child => (below _ nesting.2 u child).2⟩

theorem repairAt_canonical (done : repairAt name usages base v = .ok w) (canonical : Canonical v) : Canonical w := by
  obtain ⟨nodes, nesting⟩ := (canonical_iff v).mp canonical
  exact (canonical_iff w).mpr (repairAt_everywhere done nodes nesting)

theorem canonical_of_ofJson {json : Json} (done : ofJson json = .ok v) : Canonical v :=
  (canonical_iff v).mpr (decoded_canonical v ⟨_, json, done⟩)

theorem Canonical.readsAs (canonical : Canonical v) : Template.ReadsAs toJson id v := by
  obtain ⟨nodes, nesting⟩ := (canonical_iff v).mp canonical
  exact fun path => canonical_comesBack v nodes nesting path

theorem canonical_null : Canonical .null := canonical_of_ofJson (show ofJson .null = .ok .null from rfl)

theorem canonical_str (s : String) : Canonical (.str s) := canonical_of_ofJson (show ofJson (.str s) = .ok (.str s) from rfl)

end Value

/-! ### Built values -/

namespace Declarations

variable {d : Declarations} {t : Template} {names : List String}

theorem valueOf_canonical (given : ∀ v ∈ d.givenValues, v.Canonical) (name : String) : (d.valueOf name).Canonical := by
  unfold valueOf
  cases found : d.values.lookup name with
  | none => exact Value.canonical_null
  | some v =>
    refine given v (List.mem_append_left _ (List.mem_append_left _ ?_))
    exact List.mem_map_of_mem (mem_of_lookup found)

theorem buildResource_canonical {r : ResourceDecl} {built : Resource} (done : d.buildResource r = .ok built)
    (properties : (d.valueOf r.name).Canonical) (metadata : ∀ v ∈ r.metadata, v.Canonical) :
    ∀ v ∈ built.values, v.Canonical := by
  unfold buildResource at done
  split at done
  · exact absurd done (throw_ne_ok _ _)
  · simp only [bind_eq_ok, pure_eq_ok] at done
    obtain ⟨_, repaired, rfl⟩ := done
    refine List.forall_mem_cons.mpr ⟨Value.repairAt_canonical repaired properties, ?_⟩
    simpa using metadata

/-- The parts of a parameter stand in its value: a default right inside, and the items of a list. -/
theorem buildParameter_canonical {name : String} {value : Value} {built : Parameter}
    (done : buildParameter name value = .ok built) (canonical : value.Canonical) : ∀ v ∈ built.values, v.Canonical := by
  unfold buildParameter at done
  split at done
  case h_1 fields =>
    simp only [bind_eq_ok, pure_eq_ok] at done
    obtain ⟨_, -, _, -, _, -, _, -, rfl⟩ := done
    have field {fieldName : String} {v : Value} (found : fields.lookup fieldName = some v) : v.Canonical :=
      canonical.child (List.mem_map_of_mem (mem_of_lookup found))
    refine List.forall_mem_append.mpr ⟨fun v member => ?_, fun v member => ?_⟩
    · exact field (Option.eq_some_of_filter_eq_some (Option.mem_toList.mp member))
    · cases found : fields.lookup "AllowedValues" with
      | none => simp [found] at member
      | some list =>
        cases list with
        | arr items => exact (field found).child (show v ∈ items by simpa [found, Value.asArr?] using member)
        | _ => simp [found, Value.asArr?] at member
  case h_2 => exact absurd done (throw_ne_ok _ _)

theorem exportName_canonical {o : OutputDecl} {exported : Option Value} (done : exportName o = .ok exported)
    (alone : ∀ v ∈ o.exportName, v.Canonical) (block : ∀ v ∈ o.exportBlock, v.Canonical) :
    ∀ v ∈ exported, v.Canonical := by
  unfold exportName at done
  split at done
  case h_1 name given =>
    obtain rfl := (pure_eq_ok _ _).mp done
    simpa using alone name given
  case h_2 members _ given =>
    split at done
    case h_1 name found =>
      obtain rfl := (pure_eq_ok _ _).mp done
      simpa using (block _ given).child (List.mem_map_of_mem (mem_of_lookup found))
    case h_2 => exact absurd done (throw_ne_ok _ _)
  case h_4 other _ _ _ given =>
    obtain rfl := (pure_eq_ok _ _).mp done
    simpa using block other given
  all_goals
    obtain rfl := (pure_eq_ok _ _).mp done
    simp

theorem buildOutput_canonical {o : OutputDecl} {built : Output} (done : d.buildOutput o = .ok built)
    (value : o.value.Canonical) (alone : ∀ v ∈ o.exportName, v.Canonical) (block : ∀ v ∈ o.exportBlock, v.Canonical) :
    ∀ v ∈ built.values, v.Canonical := by
  simp only [buildOutput, bind_eq_ok, pure_eq_ok] at done
  obtain ⟨_, repaired, exported, found, rfl⟩ := done
  refine List.forall_mem_cons.mpr ⟨Value.repairAt_canonical repaired value, ?_⟩
  simpa using exportName_canonical found alone block

/-- The values of a built template come back from their wire form if the given values do. -/
theorem BuiltFrom.canonical (built : BuiltFrom d names t) (given : ∀ v ∈ d.givenValues, v.Canonical) :
    ∀ v ∈ t.values, v.Canonical := by
  have valueOf := valueOf_canonical given
  obtain ⟨⟨-, metadata⟩, outputs⟩ := by
    simpa only [givenValues, List.forall_mem_append, List.forall_mem_flatMap, List.forall_mem_cons] using given
  simp only [Template.values, List.forall_mem_append, List.forall_mem_flatMap, List.forall_mem_map]
  refine ⟨⟨⟨⟨⟨?transform, ?parameters⟩, ?mappings⟩, ?conditions⟩, ?resources⟩, ?outputs⟩
  case transform =>
    rw [built.transform]
    split <;> simp [Value.canonical_str]
  case parameters =>
    intro e member
    obtain ⟨p, -, -, done⟩ := exists_mem_of_forall₂ built.parameters member
    exact buildParameter_canonical done (valueOf p.name)
  case mappings =>
    rw [built.mappings, List.forall_mem_map]
    exact fun m _ => valueOf m.name
  case conditions =>
    rw [built.conditions, List.forall_mem_map]
    exact fun c _ => valueOf c.name
  case resources =>
    intro e member
    obtain ⟨r, ordered, -, done⟩ := exists_mem_of_forall₂ built.resources member
    refine buildResource_canonical done (valueOf r.name) fun v given => ?_
    exact metadata r ((mem_ordered_iff built.order r).mp ordered) v (Option.mem_toList.mpr given)
  case outputs =>
    intro e member
    obtain ⟨o, declared, -, done⟩ := exists_mem_of_forall₂ built.outputs member
    obtain ⟨value, alone, block⟩ := outputs o declared
    exact buildOutput_canonical done value (fun v given => alone v (Option.mem_toList.mpr given))
      fun v given => block v (Option.mem_toList.mpr given)

/-! ### Built entries -/

theorem lengthOf_bounded {name fieldName : String} {fields : List (String × Value)} {length : Option Nat}
    (done : lengthOf name fields fieldName = .ok length) : ∀ n ∈ length, n < twoPow 32 := by
  unfold lengthOf at done
  split at done
  · obtain rfl := (pure_eq_ok _ _).mp done
    simp
  · split at done
    case h_1 n found =>
      obtain rfl := (pure_eq_ok _ _).mp done
      obtain ⟨i, inside, rfl⟩ := Option.map_eq_some_iff.mp found
      obtain ⟨-, range⟩ := Option.filter_eq_some_iff.mp inside
      simp only [Bool.and_eq_true, decide_eq_true_eq] at range
      intro n same
      obtain rfl := Option.some.inj same
      omega
    case h_2 => exact absurd done (throw_ne_ok _ _)

theorem buildParameter_lengths {name : String} {value : Value} {built : Parameter}
    (done : buildParameter name value = .ok built) :
    (∀ n ∈ built.minLength, n < twoPow 32) ∧ ∀ n ∈ built.maxLength, n < twoPow 32 := by
  unfold buildParameter at done
  split at done
  · simp only [bind_eq_ok, pure_eq_ok] at done
    obtain ⟨_, least, _, most, _, -, _, -, rfl⟩ := done
    exact ⟨lengthOf_bounded least, lengthOf_bounded most⟩
  · exact absurd done (throw_ne_ok _ _)

theorem isEmpty_canonical? {declared canonical : String} (found : DeclaredType.canonical? declared = some canonical) :
    canonical.isEmpty = false := by
  obtain ⟨_, _, ns, -, -, -, -, -, rfl⟩ := (DeclaredType.canonical?_eq_some_iff declared canonical).mp found
  simp

/-- What reading checks of an entry holds of those that are built. -/
theorem BuiltFrom.entriesValid (built : BuiltFrom d names t) : t.EntriesValid where
  names := by
    have valid := built.named.valid
    simp only [logicalNames, List.forall_mem_append, List.forall_mem_map, ← nameProblem?_eq_none_iff] at valid
    obtain ⟨⟨⟨⟨resources, parameters⟩, mappings⟩, conditions⟩, outputs⟩ := valid
    simp only [Template.entryNames, StackCompiler.memberNames, List.forall_mem_append, List.forall_mem_map, built.mappings,
      built.conditions]
    refine ⟨⟨⟨⟨fun e member => ?_, mappings⟩, conditions⟩, fun e member => ?_⟩, fun e member => ?_⟩
    · obtain ⟨p, declared, same, -⟩ := exists_mem_of_forall₂ built.parameters member
      exact same ▸ parameters p declared
    · obtain ⟨r, declared, same, -⟩ := built.exists_declared member
      exact same ▸ resources r declared
    · obtain ⟨o, declared, same, -⟩ := exists_mem_of_forall₂ built.outputs member
      exact same ▸ outputs o declared
  types := fun e member => by
    obtain ⟨r, -, -, isEntry⟩ := built.exists_declared member
    exact isEmpty_canonical? isEntry.type
  minLengths := fun e member => by
    obtain ⟨p, -, -, done⟩ := exists_mem_of_forall₂ built.parameters member
    exact (buildParameter_lengths done).1
  maxLengths := fun e member => by
    obtain ⟨p, -, -, done⟩ := exists_mem_of_forall₂ built.parameters member
    exact (buildParameter_lengths done).2

/-! ### Links -/

/-- A dependency or a condition that is named and not declared, as reading reports it. -/
inductive Dangling (d : Declarations) : Defect → Prop
  | dependency {r : ResourceDecl} {target : String} (declared : r ∈ d.resources) (named : target ∈ r.dependsOn)
      (missing : ∀ other ∈ d.resources, other.name ≠ target) : Dangling d (.undeclaredDependency r.name target)
  | resource {r : ResourceDecl} {condition : String} (declared : r ∈ d.resources) (named : r.condition = some condition)
      (missing : ∀ c ∈ d.conditions, c.name ≠ condition) : Dangling d (.undefinedCondition r.name condition)
  | output {o : OutputDecl} {condition : String} (declared : o ∈ d.outputs) (named : o.condition = some condition)
      (missing : ∀ c ∈ d.conditions, c.name ≠ condition) : Dangling d (.undefinedCondition o.name condition)

/-- Whatever is depended on, and every condition that is used, is declared. -/
def Linked (d : Declarations) : Prop := ∀ defect, ¬ d.Dangling defect

theorem BuiltFrom.hasMember_resources (built : BuiltFrom d names t) (name : String) :
    hasMember name t.resources = false ↔ ∀ r ∈ d.resources, r.name ≠ name := by
  have declared : name ∈ StackCompiler.memberNames t.resources ↔ ∃ r ∈ d.resources, r.name = name := by
    rw [built.memberNames]
    exact (order_isOrder built.order).members name
  have listed : hasMember name t.resources = true ↔ name ∈ StackCompiler.memberNames t.resources := by
    simp [hasMember, StackCompiler.memberNames]
  rw [← Bool.not_eq_true, listed, declared, not_exists]
  exact forall_congr' fun r => not_and

theorem BuiltFrom.hasMember_conditions (built : BuiltFrom d names t) (name : String) :
    hasMember name t.conditions = false ↔ ∀ c ∈ d.conditions, c.name ≠ name := by
  rw [built.conditions]
  simp [hasMember]

theorem BuiltFrom.conditionDefect?_eq_some_iff (built : BuiltFrom d names t) (name : String) (condition : Option String)
    (defect : Defect) : t.conditionDefect? name condition = some defect ↔
      ∃ c, condition = some c ∧ (∀ other ∈ d.conditions, other.name ≠ c) ∧ Defect.undefinedCondition name c = defect := by
  simp only [Template.conditionDefect?, Option.map_eq_some_iff, Option.filter_eq_some_iff, Bool.not_eq_true',
    built.hasMember_conditions, and_assoc]

theorem buildOutput_condition {o : OutputDecl} {built : Output} (done : d.buildOutput o = .ok built) :
    built.condition = o.condition := by
  simp only [buildOutput, bind_eq_ok, pure_eq_ok] at done
  obtain ⟨_, -, _, -, rfl⟩ := done
  rfl

/-- What reading reports is missing among the declarations. -/
theorem BuiltFrom.dangling_of_linkDefect? (built : BuiltFrom d names t) {defect : Defect}
    (found : t.linkDefect? = some defect) : d.Dangling defect := by
  simp only [Template.linkDefect?, Option.orElse_eq_orElse, Option.orElse_eq_or, Option.or_eq_some_iff] at found
  rcases found with found | ⟨-, found⟩
  · obtain ⟨e, member, reported⟩ := List.exists_of_findSome?_eq_some found
    obtain ⟨r, declared, same, isEntry⟩ := built.exists_declared member
    simp only [Template.resourceDefect?, Option.orElse_eq_orElse, Option.orElse_eq_or, Option.or_eq_some_iff,
      Option.map_eq_some_iff] at reported
    rcases reported with ⟨target, reported, rfl⟩ | ⟨-, reported⟩
    · have named := List.mem_of_find?_eq_some reported
      have missing := List.find?_some reported
      rw [Bool.not_eq_true', built.hasMember_resources] at missing
      exact same ▸ .dependency declared (isEntry.dependsOn ▸ named) missing
    · obtain ⟨c, named, missing, rfl⟩ := (built.conditionDefect?_eq_some_iff _ _ _).mp reported
      exact same ▸ .resource declared (isEntry.condition ▸ named) missing
  · obtain ⟨e, member, reported⟩ := List.exists_of_findSome?_eq_some found
    obtain ⟨o, declared, same, done⟩ := exists_mem_of_forall₂ built.outputs member
    obtain ⟨c, named, missing, rfl⟩ := (built.conditionDefect?_eq_some_iff _ _ _).mp reported
    exact same ▸ .output declared (buildOutput_condition done ▸ named) missing

/-- Where reading reports nothing, nothing is missing. -/
theorem BuiltFrom.linked_of_linkDefect? (built : BuiltFrom d names t) (none : t.linkDefect? = none) : d.Linked := by
  simp only [Template.linkDefect?, Option.orElse_eq_orElse, Option.orElse_eq_or, Option.or_eq_none_iff,
    List.findSome?_eq_none_iff, Template.resourceDefect?, Option.map_eq_none_iff, List.find?_eq_none] at none
  obtain ⟨resources, outputs⟩ := none
  have undefined (name : String) {condition : Option String} {c : String} (named : condition = some c)
      (missing : ∀ other ∈ d.conditions, other.name ≠ c) : t.conditionDefect? name condition ≠ Option.none := by
    rw [(built.conditionDefect?_eq_some_iff name condition _).mpr ⟨c, named, missing, rfl⟩]
    exact Option.some_ne_none _
  intro defect dangling
  cases dangling with
  | dependency declared named missing =>
    obtain ⟨e, member, -, isEntry⟩ := built.exists_entry declared
    have present := (resources e member).1 _ (isEntry.dependsOn ▸ named)
    rw [(built.hasMember_resources _).mpr missing] at present
    exact present rfl
  | resource declared named missing =>
    obtain ⟨e, member, -, isEntry⟩ := built.exists_entry declared
    exact undefined e.1 (isEntry.condition.trans named) missing (resources e member).2
  | output declared named missing =>
    obtain ⟨e, member, -, done⟩ := exists_mem_of_forall₂ built.outputs.flip declared
    exact undefined e.1 ((buildOutput_condition done).trans named) missing (outputs e member)

/-- The document of a built template is read again, as the same document, if all that is depended on
    and all conditions that are used are declared. Otherwise one that is missing is reported. -/
theorem build_accepted_iff_linked (decoded : d.ValuesDecoded) (built : d.build = .ok t) :
    (d.Linked → ∃ again, Template.ofJson t.toJson = .ok again ∧ again.toJson = t.toJson) ∧
      (¬ d.Linked → ∃ defect, d.Dangling defect ∧ Template.ofJson t.toJson = .error (.defect defect)) := by
  obtain ⟨names, built⟩ := build_eq_ok built
  have given : ∀ v ∈ d.givenValues, v.Canonical := by
    intro v member
    obtain ⟨json, done⟩ := decoded v member
    exact Value.canonical_of_ofJson done
  have read := Template.ofJson_document_eq built.entriesValid fun v member => (built.canonical given v member).readsAs
  rw [← Template.toJson_eq_document] at read
  cases found : t.linkDefect? with
  | none =>
    rw [found] at read
    refine ⟨fun _ => ⟨t.mapValues id, read, Template.toJson_mapValues_id t⟩, fun unlinked => ?_⟩
    exact absurd (built.linked_of_linkDefect? found) unlinked
  | some defect =>
    rw [found] at read
    have dangling := built.dangling_of_linkDefect? found
    exact ⟨fun linked => absurd dangling (linked defect), fun _ => ⟨defect, dangling, read⟩⟩

/-- A queue after a topic, under a condition, and an output whose attribute is repaired to the queue's. -/
def queueDeclarations : Declarations :=
  { resources := [
      { name := "Queue", type := "sqs.Queue", dependsOn := ["Topic"], condition := some "Live" },
      { name := "Topic", type := "sns.Topic" }]
    conditions := [{ name := "Live" }]
    outputs := [{ name := "Arn", value := .fn (.getAtt ⟨"", "Arn"⟩), attrUsages := [⟨"Queue", "Arn", "Value"⟩] }] }

def queueTemplate : Template :=
  { Template.empty with
    conditions := [("Live", .null)]
    resources := [
      ("Topic", { type := "AWS::SNS::Topic", properties := .null }),
      ("Queue", { type := "AWS::SQS::Queue", properties := .null, dependsOn := ["Topic"], condition := some "Live" })]
    outputs := [("Arn", { value := .fn (.getAtt ⟨"Queue", "Arn"⟩) })] }

theorem build_accepted_queue :
    queueDeclarations.ValuesDecoded ∧ queueDeclarations.build = .ok queueTemplate ∧ queueDeclarations.Linked ∧
      ∃ again, Template.ofJson queueTemplate.toJson = .ok again ∧ again.toJson = queueTemplate.toJson := by
  have decoded : queueDeclarations.ValuesDecoded := by
    intro v member
    obtain rfl := List.mem_singleton.mp member
    exact ⟨.obj [("Fn::GetAtt", .arr [.str "", .str "Arn"])], by decide +kernel⟩
  have built : queueDeclarations.build = .ok queueTemplate := by decide +kernel
  have linked : queueDeclarations.Linked := by
    intro defect dangling
    cases dangling with
    | dependency declared named missing =>
      have topic := missing { name := "Topic", type := "sns.Topic" } (.tail _ (.head _))
      obtain rfl | rfl : _ ∨ _ := by simpa [queueDeclarations] using declared
      · exact topic (List.mem_singleton.mp named).symm
      · cases named
    | resource declared named missing =>
      have live := missing { name := "Live" } (.head _)
      obtain rfl | rfl : _ ∨ _ := by simpa [queueDeclarations] using declared
      · exact live (Option.some.inj named)
      · cases named
    | output declared named missing =>
      obtain rfl := List.mem_singleton.mp declared
      cases named
  exact ⟨decoded, built, linked, (build_accepted_iff_linked decoded built).1 linked⟩

/-- A queue after a topic that is not declared. -/
def aloneText : String := "[null,[[\"Queue\",\"sqs.Queue\",null,[],[\"Topic\"]]]]"

def aloneDeclarations : Declarations :=
  { resources := [{ name := "Queue", type := "sqs.Queue", dependsOn := ["Topic"] }] }

def aloneTemplate : Template :=
  { Template.empty with
    resources := [("Queue", { type := "AWS::SQS::Queue", properties := .null, dependsOn := ["Topic"] })] }

/-- A dependency is built as it is declared, and is refused where the document is read. -/
theorem built_dependency_refused :
    aloneDeclarations.ValuesDecoded ∧ aloneDeclarations.build = .ok aloneTemplate ∧
      Template.ofJson aloneTemplate.toJson = .error (.defect (.undeclaredDependency "Queue" "Topic")) := by
  have read : parse aloneText = .ok aloneDeclarations := by decide +kernel
  exact ⟨parse_valuesDecoded read, by decide +kernel, by rfl⟩

end Declarations

end StackCompiler
