import Mathlib.Data.List.Flatten
import StackCompiler.Proofs.Declaration.Matching
import StackCompiler.Proofs.Declaration.Repair
import StackCompiler.Proofs.Value.Changes
import StackCompiler.Proofs.Value.Walk

/-!
What a repair does. It comes to the nodes of a value that stand in no substitution
(`reached`), fills in each reference that lacks its resource with the usage that fits best,
and keeps all other nodes (`repairAt_filled`). Where there is no usage for a reference, it
reports the first such one (`repairAt_fails`).
-/
namespace StackCompiler.Value

/-! ### The nodes that a repair comes to -/

/-- A repair comes to nodes in the order of a walk. -/
theorem reached_sublist_walk (base : FieldPath) (v : Value) : List.Sublist (v.reached base) (v.walk base) := by
  induction v using node_induction generalizing base with
  | step v ih =>
    rw [reached_eq, walk_eq]
    split
    · exact (List.nil_sublist _).cons_cons _
    · exact (List.Sublist.flatMap_right _ fun part isPart => ih part.2 ((child_iff_parts _ _).mpr ⟨_, isPart⟩) _).cons_cons _

/-! ### What a repair does with a node -/

/-- A node is a reference that lacks its resource. -/
def IsOpen (node : Value) (attr : AttrRef) : Prop := node = .fn (.getAtt attr) ∧ attr.isUnresolved = true

/-- What a repair makes of a node that it comes to at `path`. A reference that lacks its resource
    becomes the best usage there is for it, and any other node is kept: a substitution with all
    that is in it. -/
inductive Filled (usages : List Usage) (path : FieldPath) : Value → Value → Prop
  | reference {attr : AttrRef} {usage : Usage} (unresolved : attr.isUnresolved = true)
      (best : Usage.IsBest usages path attr.name usage) :
      Filled usages path (.fn (.getAtt attr)) (.fn (.getAtt ⟨usage.resource, usage.name⟩))
  | substitution {node : Value} (substitutes : node.function? = some .sub) : Filled usages path node node
  | kept {before after : Value} (closed : ∀ attr, ¬ IsOpen before attr) (substitutes : before.function? ≠ some .sub)
      (same : after.emptied = before.emptied) : Filled usages path before after

/-- There is a usage for a node, if it is a reference that lacks its resource. -/
def Matched (usages : List Usage) (node : FieldPath × Value) : Prop :=
  ∀ attr, IsOpen node.2 attr → ∃ usage, Usage.IsBest usages node.1 attr.name usage

/-- The first of some nodes for which there is no usage. -/
def FirstUnmatched (usages : List Usage) (nodes : List (FieldPath × Value)) (path : FieldPath) (attr : AttrRef) : Prop :=
  ∃ before node after, nodes = before ++ (path, node) :: after ∧ IsOpen node attr ∧
    (∀ usage, ¬ Usage.IsBest usages path attr.name usage) ∧ ∀ earlier ∈ before, Matched usages earlier

variable {name : String} {usages : List Usage} {base : FieldPath} {v w : Value}

theorem Filled.matched {path : FieldPath} {before after : Value} (filled : Filled usages path before after) :
    Matched usages (path, before) := by
  rintro attr ⟨rfl, unresolved⟩
  cases filled with
  | reference _ best => exact ⟨_, best⟩
  | substitution substitutes => cases substitutes
  | kept closed _ _ => exact absurd ⟨rfl, unresolved⟩ (closed attr)

theorem repaired_filled {attr repaired : AttrRef} (done : attr.repaired name usages base = .ok repaired) :
    Filled usages base (.fn (.getAtt attr)) (.fn (.getAtt repaired)) := by
  unfold AttrRef.repaired at done
  split at done
  case isTrue unresolved =>
    split at done
    case h_1 usage found =>
      obtain rfl := (pure_eq_ok _ _).mp done
      exact .reference unresolved (Usage.find?_eq_some_iff.mp found)
    case h_2 => exact absurd done (throw_ne_ok _ _)
  case isFalse resolved =>
    obtain rfl := (pure_eq_ok _ _).mp done
    refine .kept ?_ (by simp [function?, asFn?, Intrinsic.function?]) rfl
    rintro other ⟨same, unresolved⟩
    obtain rfl : attr = other := by simpa using same
    exact resolved unresolved

theorem repaired_fails {attr : AttrRef} {e : BuildError} (failed : attr.repaired name usages base = .error e) :
    attr.isUnresolved = true ∧ (∀ usage, ¬ Usage.IsBest usages base attr.name usage) ∧
      e = .unresolvedReference name base attr.name := by
  unfold AttrRef.repaired at failed
  split at failed
  case isTrue unresolved =>
    split at failed
    case h_1 => exact absurd failed (pure_ne_error _ _)
    case h_2 absent =>
      refine ⟨unresolved, fun usage best => ?_, by cases failed; rfl⟩
      rw [Usage.find?_eq_some_iff.mpr best] at absent
      cases absent
  case isFalse => exact absurd failed (pure_ne_error _ _)

/-- A repair comes to the same places in its result, and has filled in each node. -/
theorem repairAt_filled (done : repairAt name usages base v = .ok w) :
    List.Forall₂ (fun before after => before.1 = after.1 ∧ Filled usages before.1 before.2 after.2)
      (v.reached base) (w.reached base) := by
  induction base, v using reached_induction generalizing w with
  | reference base attr =>
    simp only [repairAt, repairCall, map_eq_ok] at done
    obtain ⟨_, ⟨repaired, done, rfl⟩, rfl⟩ := done
    rw [reached_getAtt, reached_getAtt]
    exact .cons ⟨rfl, repaired_filled done⟩ .nil
  | substitution base template bindings =>
    simp only [repairAt, repairCall, map_eq_ok, pure_eq_ok] at done
    obtain ⟨_, rfl, rfl⟩ := done
    rw [reached_of_sub base rfl]
    exact .cons ⟨rfl, .substitution rfl⟩ .nil
  | inside base v refers substitutes ih =>
    rw [repairAt_eq_mapChildrenM name usages base refers substitutes] at done
    obtain ⟨function, each⟩ := mapChildrenM_each done
    rw [reached_of_parts base substitutes, reached_of_parts base (function ▸ substitutes)]
    refine .cons ⟨rfl, .kept ?closed substitutes (mapChildrenM_emptied done)⟩ (forall₂_flatMap each ?below)
    case closed =>
      rintro attr ⟨rfl, -⟩
      exact refers rfl
    case below =>
      rintro part isPart changed ⟨steps, step⟩
      rw [← steps]
      exact ih part isPart step

theorem repairAt_matched (done : repairAt name usages base v = .ok w) : ∀ node ∈ v.reached base, Matched usages node := by
  intro node member
  obtain ⟨_, -, -, filled⟩ := exists_mem_of_forall₂ (repairAt_filled done).flip member
  exact filled.matched

namespace FirstUnmatched

variable {nodes others : List (FieldPath × Value)} {path : FieldPath} {attr : AttrRef}

theorem append (first : FirstUnmatched usages nodes path attr) : FirstUnmatched usages (nodes ++ others) path attr := by
  obtain ⟨before, node, after, split, rest⟩ := first
  refine ⟨before, node, after ++ others, ?_, rest⟩
  rw [split, List.append_assoc, List.cons_append]

theorem after (first : FirstUnmatched usages others path attr) (matched : ∀ node ∈ nodes, Matched usages node) :
    FirstUnmatched usages (nodes ++ others) path attr := by
  obtain ⟨before, node, after, split, isOpen, absent, earlier⟩ := first
  refine ⟨nodes ++ before, node, after, ?_, isOpen, absent, List.forall_mem_append.mpr ⟨matched, earlier⟩⟩
  rw [split, List.append_assoc]

end FirstUnmatched

theorem FailsFirst.firstUnmatched {parts : List (List Segment × Value)} {e : BuildError}
    (fails : FailsFirst (repairAt name usages) base e parts)
    (each : ∀ part ∈ parts, repairAt name usages (base.join ⟨part.1⟩) part.2 = .error e → ∃ path attr,
      FirstUnmatched usages (part.2.reached (base.join ⟨part.1⟩)) path attr ∧ e = .unresolvedReference name path attr.name) :
    ∃ path attr, FirstUnmatched usages (parts.flatMap fun part => part.2.reached (base.join ⟨part.1⟩)) path attr ∧
      e = .unresolvedReference name path attr.name := by
  induction fails with
  | here fails =>
    obtain ⟨path, attr, first, error⟩ := each _ List.mem_cons_self fails
    exact ⟨path, attr, first.append, error⟩
  | later passes _ ih =>
    obtain ⟨path, attr, first, error⟩ := ih (List.forall_mem_cons.mp each).2
    exact ⟨path, attr, first.after (repairAt_matched passes), error⟩

/-- A repair that fails reports the first node for which there is no usage. -/
theorem repairAt_fails {e : BuildError} (failed : repairAt name usages base v = .error e) :
    ∃ path attr, FirstUnmatched usages (v.reached base) path attr ∧ e = .unresolvedReference name path attr.name := by
  induction base, v using reached_induction with
  | reference base attr =>
    simp only [repairAt, repairCall, map_eq_error] at failed
    obtain ⟨unresolved, absent, error⟩ := repaired_fails failed
    rw [reached_getAtt]
    exact ⟨base, attr, ⟨[], _, [], rfl, ⟨rfl, unresolved⟩, absent, List.forall_mem_nil _⟩, error⟩
  | substitution base template bindings =>
    simp only [repairAt, repairCall, map_eq_error] at failed
    exact absurd failed (pure_ne_error _ _)
  | inside base v refers substitutes ih =>
    rw [repairAt_eq_mapChildrenM name usages base refers substitutes] at failed
    obtain ⟨path, attr, first, error⟩ := (mapChildrenM_fails failed).firstUnmatched ih
    have matched : Matched usages (base, v) := by
      rintro other ⟨rfl, -⟩
      exact absurd rfl refers
    rw [reached_of_parts base substitutes]
    exact ⟨path, attr, first.after (List.forall_mem_singleton.mpr matched), error⟩

/-- A value with nothing to repair is kept. -/
theorem repairAt_kept (closed : ∀ node ∈ v.reached base, ∀ attr, ¬ IsOpen node.2 attr) :
    repairAt name usages base v = .ok v := by
  induction base, v using reached_induction with
  | reference base attr =>
    rw [reached_getAtt, List.forall_mem_singleton] at closed
    have resolved : attr.isUnresolved = false := by simpa [IsOpen] using closed attr
    simp [repairAt, repairCall, AttrRef.repaired, resolved]
  | substitution base template bindings => rw [repairAt, repairCall, map_pure, pure_eq_ok]
  | inside base v refers substitutes ih =>
    rw [repairAt_eq_mapChildrenM name usages base refers substitutes]
    rw [reached_of_parts base substitutes, List.forall_mem_cons, List.forall_mem_flatMap] at closed
    exact mapChildrenM_kept fun part isPart => ih part isPart (closed.2 part isPart)

theorem emptied_eq_getAtt {attr : AttrRef} (same : v.emptied = emptied (.fn (.getAtt attr))) : v = .fn (.getAtt attr) := by
  cases v with
  | fn call =>
    cases call with
    | getAtt other => exact same
    | _ => cases same
  | _ => cases same

theorem Filled.closed {path : FieldPath} {before after : Value} (filled : Filled usages path before after)
    (named : ∀ usage ∈ usages, usage.resource ≠ "") (attr : AttrRef) : ¬ IsOpen after attr := by
  rintro ⟨rfl, unresolved⟩
  cases filled with
  | reference _ best => exact named _ best.mem (by simpa [AttrRef.isUnresolved] using unresolved)
  | substitution substitutes => cases substitutes
  | kept closed _ same =>
    obtain rfl := emptied_eq_getAtt same.symm
    exact closed attr ⟨rfl, unresolved⟩

/-! ### Repairs -/

/-- A repair succeeds exactly if there is a usage for every reference that lacks its resource. It fills these
    in with the best usages and keeps all other nodes. Otherwise it reports the first reference without a usage.
    Where every usage names a resource, a second repair changes nothing. -/
theorem repairAt_correct (name : String) (usages : List Usage) (base : FieldPath) (v : Value) :
    (∀ path attr usage, Usage.find? usages path attr = some usage ↔ Usage.IsBest usages path attr usage) ∧
      List.Sublist (v.reached base) (v.walk base) ∧
      ((∃ w, repairAt name usages base v = .ok w) ↔ ∀ node ∈ v.reached base, Matched usages node) ∧
      (∀ w, repairAt name usages base v = .ok w →
        List.Forall₂ (fun before after => before.1 = after.1 ∧ Filled usages before.1 before.2 after.2)
          (v.reached base) (w.reached base)) ∧
      (∀ e, repairAt name usages base v = .error e →
        ∃ path attr, FirstUnmatched usages (v.reached base) path attr ∧ e = .unresolvedReference name path attr.name) ∧
      ((∀ usage ∈ usages, usage.resource ≠ "") →
        ∀ w, repairAt name usages base v = .ok w → repairAt name usages base w = .ok w) := by
  refine ⟨fun _ _ _ => Usage.find?_eq_some_iff, reached_sublist_walk base v, ⟨?found, ?succeeds⟩,
    fun _ => repairAt_filled, fun _ => repairAt_fails, ?again⟩
  case found =>
    rintro ⟨w, done⟩
    exact repairAt_matched done
  case succeeds =>
    intro matched
    cases done : repairAt name usages base v with
    | ok w => exact ⟨w, rfl⟩
    | error e =>
      obtain ⟨path, attr, ⟨before, node, after, split, isOpen, absent, -⟩, -⟩ := repairAt_fails done
      obtain ⟨usage, best⟩ := matched (path, node) (split ▸ List.mem_append_right _ List.mem_cons_self) attr isOpen
      exact absurd best (absent usage)
  case again =>
    intro named w done
    refine repairAt_kept fun node member => ?_
    obtain ⟨_, -, -, filled⟩ := exists_mem_of_forall₂ (repairAt_filled done) member
    exact filled.closed named

/-- A role, one of whose policies is about an attribute of which only the name is known. -/
def openRole : Value :=
  .obj [("Name", .fn (.join "-" (.arr [.str "role", .fn (.getAtt ⟨"", "Id"⟩)]))),
    ("Policies", .arr [.obj [("Resource", .fn (.getAtt ⟨"", "Arn"⟩))]])]

def roleUsages : List Usage :=
  [⟨.parse "Resource", "Queue", "Arn", .own⟩, ⟨.parse "Policies.Resource", "Table", "Arn", .own⟩,
    ⟨.parse "Name.Values", "Stage", "Id", .own⟩]

def filledRole : Value :=
  .obj [("Name", .fn (.join "-" (.arr [.str "role", .fn (.getAtt ⟨"Stage", "Id"⟩)]))),
    ("Policies", .arr [.obj [("Resource", .fn (.getAtt ⟨"Table", "Arn"⟩))]])]

theorem repairAt_correct_role :
    repairAt "Role" roleUsages .root openRole = .ok filledRole ∧
      List.Forall₂ (fun before after => before.1 = after.1 ∧ Filled roleUsages before.1 before.2 after.2)
        (openRole.reached .root) (filledRole.reached .root) ∧
      (∀ usage ∈ roleUsages, usage.resource ≠ "") ∧ repairAt "Role" roleUsages .root filledRole = .ok filledRole ∧
      repairAt "Role" [] .root openRole = .error (.unresolvedReference "Role" ⟨[.key "Name", .key "Values", .index 1]⟩ "Id") := by
  have done : repairAt "Role" roleUsages .root openRole = .ok filledRole := by rfl
  have named : ∀ usage ∈ roleUsages, usage.resource ≠ "" := by decide
  obtain ⟨-, -, -, filled, -, again⟩ := repairAt_correct "Role" roleUsages .root openRole
  exact ⟨done, filled _ done, named, again named _ done, by rfl⟩

end StackCompiler.Value
