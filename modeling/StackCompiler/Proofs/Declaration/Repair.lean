import StackCompiler.Declaration.Repair
import StackCompiler.Proofs.Value.Parts

/-!
What a repair leaves behind. A value is resolved if no reference in it lacks its resource.
A repair comes to every node but those inside substitutions (`Reached`, and in their order
`reached`), and gives a reference the resource of a recorded usage as it is. So its result is
resolved exactly if the usages that it takes name a resource and the substitutions that it
passes by are resolved (`repairAt_resolved_iff`).
-/
namespace StackCompiler.Value

/-- No reference inside a value lacks its resource. -/
def Resolved (v : Value) : Prop := Everywhere (fun w => ∀ attr, w = .fn (.getAtt attr) → attr.isUnresolved = false) v

/-! ### The nodes that a repair comes to -/

/-- `w` stands at `path` inside a value at `base`, and in no substitution. -/
inductive Reached (w : Value) (path : FieldPath) : FieldPath → Value → Prop
  | here : Reached w path path w
  | inside {base : FieldPath} {v part : Value} {steps : List Segment} (enters : v.function? ≠ some .sub)
      (isPart : (steps, part) ∈ v.parts) (reached : Reached w path (base.join ⟨steps⟩) part) : Reached w path base v

theorem reached_iff (w : Value) (path base : FieldPath) (v : Value) :
    Reached w path base v ↔ (path = base ∧ w = v) ∨
      (v.function? ≠ some .sub ∧ ∃ part ∈ v.parts, Reached w path (base.join ⟨part.1⟩) part.2) := by
  constructor
  · intro reached
    cases reached with
    | here => exact .inl ⟨rfl, rfl⟩
    | inside enters isPart reached => exact .inr ⟨enters, _, isPart, reached⟩
  · rintro (⟨rfl, rfl⟩ | ⟨enters, part, isPart, reached⟩)
    · exact .here
    · exact .inside enters isPart reached

/-- The nodes of a value at `base` that stand in no substitution, each with its path, from the root down
    and in the order of the text. -/
def reached (base : FieldPath) (v : Value) : List (FieldPath × Value) :=
  (base, v) :: if v.function? = some .sub then [] else
    v.parts.attach.flatMap fun part => reached (base.join ⟨part.1.1⟩) part.1.2
termination_by v
decreasing_by exact child_smaller ((child_iff_parts _ _).mpr ⟨_, part.2⟩)

theorem reached_eq (base : FieldPath) (v : Value) :
    v.reached base = (base, v) :: if v.function? = some .sub then [] else
      v.parts.flatMap fun part => part.2.reached (base.join ⟨part.1⟩) := by
  rw [reached, List.flatMap_subtype (g := fun part => part.2.reached (base.join ⟨part.1⟩)) fun _ _ => rfl, List.unattach_attach]

theorem reached_of_sub {v : Value} (base : FieldPath) (substitution : v.function? = some .sub) : v.reached base = [(base, v)] := by
  rw [reached_eq, if_pos substitution]

theorem reached_of_parts {v : Value} (base : FieldPath) (substitution : v.function? ≠ some .sub) :
    v.reached base = (base, v) :: v.parts.flatMap fun part => part.2.reached (base.join ⟨part.1⟩) := by
  rw [reached_eq, if_neg substitution]

theorem reached_getAtt (base : FieldPath) (attr : AttrRef) : reached base (.fn (.getAtt attr)) = [(base, .fn (.getAtt attr))] :=
  reached_of_parts base (by simp [function?, asFn?, Intrinsic.function?])

/-- What is reached is listed, and nothing else. -/
theorem mem_reached_iff {w v : Value} {path base : FieldPath} : (path, w) ∈ v.reached base ↔ Reached w path base v := by
  induction v using node_induction generalizing base with
  | step v ih =>
    have inside (part : List Segment × Value) (isPart : part ∈ v.parts) :
        (path, w) ∈ part.2.reached (base.join ⟨part.1⟩) ↔ Reached w path (base.join ⟨part.1⟩) part.2 :=
      ih part.2 ((child_iff_parts _ _).mpr ⟨_, isPart⟩)
    rw [reached_iff, ← Prod.mk.injEq]
    by_cases substitution : v.function? = some .sub
    · simp [reached_of_sub base substitution, substitution]
    · rw [reached_of_parts base substitution, List.mem_cons, List.mem_flatMap]
      refine or_congr Iff.rfl ((exists_congr fun part => and_congr_right (inside part)).trans ?_)
      exact (and_iff_right substitution).symm

theorem eq_getAtt_of_function? {v : Value} (calls : v.function? = some .getAtt) : ∃ attr, v = .fn (.getAtt attr) := by
  cases v with
  | fn call =>
    cases call with
    | getAtt attr => exact ⟨attr, rfl⟩
    | _ => cases calls
  | _ => cases calls

theorem eq_sub_of_function? {v : Value} (calls : v.function? = some .sub) :
    ∃ template bindings, v = .fn (.sub template bindings) := by
  cases v with
  | fn call =>
    cases call with
    | sub template bindings => exact ⟨template, bindings, rfl⟩
    | _ => cases calls
  | _ => cases calls

/-- What holds of references and of substitutions, and of any other value whenever it holds of its parts, holds of
    every value. -/
theorem reached_induction {P : FieldPath → Value → Prop} (reference : ∀ base attr, P base (.fn (.getAtt attr)))
    (substitution : ∀ base template bindings, P base (.fn (.sub template bindings)))
    (inside : ∀ base v, v.function? ≠ some .getAtt → v.function? ≠ some .sub →
      (∀ part ∈ v.parts, P (base.join ⟨part.1⟩) part.2) → P base v) (base : FieldPath) (v : Value) : P base v := by
  induction v using node_induction generalizing base with
  | step v ih =>
    by_cases refers : v.function? = some .getAtt
    · obtain ⟨attr, rfl⟩ := eq_getAtt_of_function? refers
      exact reference base attr
    by_cases substitutes : v.function? = some .sub
    · obtain ⟨template, bindings, rfl⟩ := eq_sub_of_function? substitutes
      exact substitution base template bindings
    · exact inside base v refers substitutes fun part isPart => ih part.2 ((child_iff_parts _ _).mpr ⟨_, isPart⟩) _

/-! ### Values that can be repaired -/

/-- What a repair needs of a value at `base` for its result to be resolved. -/
structure Repairable (usages : List Usage) (base : FieldPath) (v : Value) : Prop where
  recorded : ∀ path attr usage, Reached (.fn (.getAtt attr)) path base v → attr.isUnresolved = true →
    Usage.find? usages path attr.name = some usage → usage.resource ≠ ""
  substituted : ∀ path template bindings, Reached (.fn (.sub template bindings)) path base v →
    ∀ binding ∈ bindings, binding.2.Resolved

/-! ### One step of a repair -/

theorem repairItems_eq_mapItemsM (name : String) (usages : List Usage) (base : FieldPath) (start : Nat)
    (items : List Value) :
    repairItems name usages base start items = mapItemsM (repairAt name usages) base start items := by
  induction items generalizing start with
  | nil => rw [repairItems, mapItemsM]
  | cons item rest ih => rw [repairItems, mapItemsM]; simp only [ih]

theorem repairMembers_eq_mapMembersM (name : String) (usages : List Usage) (base : FieldPath)
    (members : List (String × Value)) :
    repairMembers name usages base members = mapMembersM (repairAt name usages) base members := by
  induction members with
  | nil => rw [repairMembers, mapMembersM]
  | cons member rest ih => rw [repairMembers, mapMembersM]; simp only [ih]

/-- A repair changes the parts of a value, but for references and substitutions. -/
theorem repairAt_eq_mapChildrenM (name : String) (usages : List Usage) (base : FieldPath) {v : Value}
    (reference : v.function? ≠ some .getAtt) (substitution : v.function? ≠ some .sub) :
    repairAt name usages base v = mapChildrenM (repairAt name usages) base v := by
  cases v with
  | arr items => rw [repairAt, mapChildrenM, repairItems_eq_mapItemsM]
  | obj members => rw [repairAt, mapChildrenM, repairMembers_eq_mapMembersM]
  | fn call =>
    rw [repairAt, mapChildrenM]
    cases call with
    | getAtt attr => exact absurd rfl reference
    | sub template bindings => exact absurd rfl substitution
    | and _ | or _ => rw [repairCall, mapArgsM, repairItems_eq_mapItemsM]
    | transform _ _ => rw [repairCall, mapArgsM, repairMembers_eq_mapMembersM]
    | _ => rw [repairCall, mapArgsM]
  | _ => rw [repairAt, mapChildrenM]

/-! ### What is resolved and what can be repaired -/

theorem resolved_getAtt_iff (attr : AttrRef) : Resolved (.fn (.getAtt attr)) ↔ attr.isUnresolved = false := by
  unfold Resolved
  rw [everywhere_iff]
  simp [child_iff_parts, parts, Intrinsic.args]

/-- A value that is no reference is resolved if its parts are. -/
theorem resolved_iff_parts {v : Value} (reference : v.function? ≠ some .getAtt) :
    v.Resolved ↔ ∀ part ∈ v.parts, part.2.Resolved := by
  unfold Resolved
  rw [everywhere_iff]
  constructor
  · rintro ⟨-, below⟩ ⟨steps, part⟩ member
    exact below part ((child_iff_parts part v).mpr ⟨steps, member⟩)
  · intro below
    refine ⟨fun attr same => absurd (same ▸ rfl) reference, fun part child => ?_⟩
    obtain ⟨steps, member⟩ := (child_iff_parts part v).mp child
    exact below _ member

theorem resolved_null : Resolved .null := (resolved_iff_parts (by simp [function?, asFn?])).mpr (by simp [parts])

theorem resolved_str (s : String) : Resolved (.str s) :=
  (resolved_iff_parts (by simp [function?, asFn?])).mpr (by simp [parts])

theorem repairable_getAtt_iff (usages : List Usage) (base : FieldPath) (attr : AttrRef) :
    Repairable usages base (.fn (.getAtt attr)) ↔ (attr.isUnresolved = true →
      ∀ usage, Usage.find? usages base attr.name = some usage → usage.resource ≠ "") := by
  have only (w : Value) (path : FieldPath) :
      Reached w path base (.fn (.getAtt attr)) ↔ path = base ∧ w = .fn (.getAtt attr) := by
    rw [← mem_reached_iff, reached_getAtt, List.mem_singleton, Prod.mk.injEq]
  constructor
  · intro repairable unresolved usage
    exact repairable.recorded base attr usage .here unresolved
  · intro named
    constructor
    · intro path other usage reached
      obtain ⟨rfl, same⟩ := (only _ path).mp reached
      obtain rfl : other = attr := by simpa using same
      exact fun unresolved => named unresolved usage
    · intro path template bindings reached
      cases ((only _ path).mp reached).2

theorem repairable_sub_iff (usages : List Usage) (base : FieldPath) (template : String)
    (bindings : List (String × Value)) :
    Repairable usages base (.fn (.sub template bindings)) ↔ ∀ binding ∈ bindings, binding.2.Resolved := by
  have only (w : Value) (path : FieldPath) :
      Reached w path base (.fn (.sub template bindings)) ↔ path = base ∧ w = .fn (.sub template bindings) := by
    rw [← mem_reached_iff, reached_of_sub base rfl, List.mem_singleton, Prod.mk.injEq]
  constructor
  · exact fun repairable => repairable.substituted base template bindings .here
  · intro resolved
    constructor
    · intro path attr usage reached
      cases ((only _ path).mp reached).2
    · intro path other inner reached
      obtain ⟨-, same⟩ := (only _ path).mp reached
      obtain ⟨rfl, rfl⟩ : other = template ∧ inner = bindings := by simpa using same
      exact resolved

theorem repairable_iff_parts (usages : List Usage) (base : FieldPath) {v : Value}
    (reference : v.function? ≠ some .getAtt) (substitution : v.function? ≠ some .sub) :
    Repairable usages base v ↔ ∀ part ∈ v.parts, Repairable usages (base.join ⟨part.1⟩) part.2 := by
  have below (w : Value) (path : FieldPath) (other : w ≠ v) :
      Reached w path base v ↔ ∃ part ∈ v.parts, Reached w path (base.join ⟨part.1⟩) part.2 := by
    rw [reached_iff]
    constructor
    · rintro (⟨-, rfl⟩ | ⟨-, inside⟩)
      · exact absurd rfl other
      · exact inside
    · exact fun inside => .inr ⟨substitution, inside⟩
  constructor
  · intro repairable part isPart
    constructor
    · intro path attr usage reached
      exact repairable.recorded path attr usage (.inside substitution isPart reached)
    · intro path template bindings reached
      exact repairable.substituted path template bindings (.inside substitution isPart reached)
  · intro each
    constructor
    · intro path attr usage reached
      obtain ⟨part, isPart, reached⟩ := (below _ path fun same => reference (same ▸ rfl)).mp reached
      exact (each part isPart).recorded path attr usage reached
    · intro path template bindings reached
      obtain ⟨part, isPart, reached⟩ := (below _ path fun same => substitution (same ▸ rfl)).mp reached
      exact (each part isPart).substituted path template bindings reached

/-! ### The result of a repair -/

theorem repaired_resolved_iff {name : String} {usages : List Usage} {base : FieldPath} {attr repaired : AttrRef}
    (done : attr.repaired name usages base = .ok repaired) :
    repaired.isUnresolved = false ↔ (attr.isUnresolved = true →
      ∀ usage, Usage.find? usages base attr.name = some usage → usage.resource ≠ "") := by
  unfold AttrRef.repaired at done
  split at done
  · rename_i unresolved
    split at done
    · rename_i usage found
      rw [pure_eq_ok] at done
      subst done
      have named : AttrRef.isUnresolved ⟨usage.resource, usage.name⟩ = false ↔ usage.resource ≠ "" := by
        simp [AttrRef.isUnresolved]
      simp [unresolved, found, named]
    · exact absurd done (throw_ne_ok _ _)
  · rename_i resolved
    rw [pure_eq_ok] at done
    subst done
    simp [resolved]

/-- The result of a repair is resolved exactly if each usage that is taken names a resource, and the
    substitutions are resolved before. -/
theorem repairAt_resolved_iff {name : String} {usages : List Usage} {base : FieldPath} {v w : Value}
    (done : repairAt name usages base v = .ok w) : w.Resolved ↔ Repairable usages base v := by
  induction base, v using reached_induction generalizing w with
  | reference base attr =>
    simp only [repairAt, repairCall, map_eq_ok] at done
    obtain ⟨_, ⟨repaired, done, rfl⟩, rfl⟩ := done
    rw [resolved_getAtt_iff, repairable_getAtt_iff]
    exact repaired_resolved_iff done
  | substitution base template bindings =>
    simp only [repairAt, repairCall, map_eq_ok, pure_eq_ok] at done
    obtain ⟨_, rfl, rfl⟩ := done
    rw [resolved_iff_parts (by simp [function?, asFn?, Intrinsic.function?]), repairable_sub_iff]
    simp only [parts, Intrinsic.args, Intrinsic.keyed, List.forall_mem_map]
  | inside base v reference substitution ih =>
    rw [repairAt_eq_mapChildrenM name usages base reference substitution] at done
    obtain ⟨kept, each⟩ := mapChildrenM_each done
    rw [resolved_iff_parts (kept ▸ reference), repairable_iff_parts usages base reference substitution]
    refine (forall_mem_iff_of_forall₂ each fun part isPart changed step => ?_).symm
    exact (ih part isPart step.2).symm

end StackCompiler.Value
