import Mathlib.Data.List.Nodup
import StackCompiler.Proofs.Members
import StackCompiler.Proofs.Value.Walk

/-!
Paths into a value. The steps from a node to its parts are distinct and of one length, so
that a path leads to at most one node. Following a path finds it (`follow_eq_some_iff`),
and a walk comes to it once (`mem_walk_iff`, `nodup_walk`).
-/
namespace StackCompiler.Value

/-! ### Distinct names -/

/-- The names of an object's members, of the bindings of a substitution and of the parameters of a
    transform are distinct. -/
def NodeDistinct : Value → Prop
  | .obj members => (memberNames members).Nodup
  | .fn (.sub _ bindings) => (memberNames bindings).Nodup
  | .fn (.transform _ parameters) => (memberNames parameters).Nodup
  | _ => True

/-- No node of the value holds two entries of one name. -/
def Distinct (v : Value) : Prop := Everywhere NodeDistinct v

theorem distinct_iff (v : Value) : Distinct v ↔ NodeDistinct v ∧ ∀ w, Child w v → Distinct w :=
  everywhere_iff NodeDistinct v

theorem Distinct.node {v : Value} (distinct : Distinct v) : NodeDistinct v := distinct v .refl

theorem Distinct.part {v : Value} (distinct : Distinct v) {part : List Segment × Value} (member : part ∈ v.parts) :
    Distinct part.2 :=
  ((distinct_iff v).mp distinct).2 part.2 ((child_iff_parts _ v).mpr ⟨part.1, member⟩)

/-! ### The steps to the parts of a node -/

/-- The steps from a call to its arguments are all one name, or all a name and one step more. -/
theorem args_steps (call : Intrinsic Value) :
    (∀ part ∈ call.args, ∃ field, part.1 = [.key field]) ∨
      ∀ part ∈ call.args, ∃ field entry, part.1 = [.key field, entry] := by
  cases call with
  | sub _ members | transform _ members =>
    right
    intro part member
    obtain ⟨entry, -, rfl⟩ := List.mem_map.mp member
    exact ⟨_, _, rfl⟩
  | and items | or items =>
    right
    intro part member
    rw [Intrinsic.args, indexed_eq_map_under, itemParts, List.map_map] at member
    obtain ⟨item, -, rfl⟩ := List.mem_map.mp member
    exact ⟨_, _, rfl⟩
  | _ => left; simp [Intrinsic.args]

/-- No part is reached without a step. -/
theorem parts_steps_ne_nil {v : Value} {part : List Segment × Value} (member : part ∈ v.parts) : part.1 ≠ [] := by
  cases v with
  | arr items =>
    obtain ⟨_, -, rfl⟩ := List.mem_map.mp member
    simp
  | obj members =>
    obtain ⟨_, -, rfl⟩ := List.mem_map.mp member
    simp
  | fn call =>
    rcases args_steps call with single | double
    · obtain ⟨field, steps⟩ := single part member
      simp [steps]
    · obtain ⟨field, entry, steps⟩ := double part member
      simp [steps]
  | _ => simp [parts] at member

/-- All parts of a node are equally many steps away. -/
theorem parts_steps_length {v : Value} {p q : List Segment × Value} (first : p ∈ v.parts) (second : q ∈ v.parts) :
    p.1.length = q.1.length := by
  cases v with
  | arr items =>
    obtain ⟨_, -, rfl⟩ := List.mem_map.mp first
    obtain ⟨_, -, rfl⟩ := List.mem_map.mp second
    rfl
  | obj members =>
    obtain ⟨_, -, rfl⟩ := List.mem_map.mp first
    obtain ⟨_, -, rfl⟩ := List.mem_map.mp second
    rfl
  | fn call =>
    rcases args_steps call with single | double
    · obtain ⟨_, left⟩ := single p first
      obtain ⟨_, right⟩ := single q second
      rw [left, right]
      rfl
    · obtain ⟨_, _, left⟩ := double p first
      obtain ⟨_, _, right⟩ := double q second
      rw [left, right]
      rfl
  | _ => simp [parts] at first

theorem nodup_itemParts (start : Nat) (items : List Value) : ((itemParts start items).map (·.1)).Nodup := by
  have steps : (itemParts start items).map (·.1) = (List.range' start items.length).map fun i => [.index i] := by
    rw [← List.zipIdx_map_snd start items, itemParts, List.map_map, List.map_map]
    rfl
  rw [steps]
  exact List.Nodup.map (fun i j same => by simpa using same) List.nodup_range'

theorem nodup_memberParts {members : List (String × Value)} (distinct : (memberNames members).Nodup) :
    ((memberParts members).map (·.1)).Nodup := by
  have steps : (memberParts members).map (·.1) = (memberNames members).map fun name => [.key name] := by
    rw [memberParts, memberNames, List.map_map, List.map_map]
    rfl
  rw [steps]
  exact distinct.map fun a b same => by simpa using same

theorem nodup_map_under {field : String} {parts : List (List Segment × Value)} (distinct : (parts.map (·.1)).Nodup) :
    ((parts.map (under field)).map (·.1)).Nodup := by
  have steps : (parts.map (under field)).map (·.1) = (parts.map (·.1)).map (.key field :: ·) := by
    rw [List.map_map, List.map_map]
    rfl
  rw [steps]
  exact distinct.map fun a b same => by simpa using same

/-- Different parts of a node are reached by different steps. -/
theorem nodup_parts {v : Value} (distinct : NodeDistinct v) : (v.parts.map (·.1)).Nodup := by
  cases v with
  | arr items => exact nodup_itemParts 0 items
  | obj members => exact nodup_memberParts distinct
  | fn call =>
    rw [parts]
    cases call with
    | sub _ members | transform _ members =>
      rw [Intrinsic.args, keyed_eq_map_under]
      exact nodup_map_under (nodup_memberParts distinct)
    | and items | or items =>
      rw [Intrinsic.args, indexed_eq_map_under]
      exact nodup_map_under (nodup_itemParts 0 items)
    | _ => simp [Intrinsic.args]
  | _ => exact List.nodup_nil

/-! ### Where a path leads -/

/-- `segments` lead from a value to a node of it. -/
inductive Leads : Value → List Segment → Value → Prop
  | here (v : Value) : Leads v [] v
  | inside {v w : Value} {part : List Segment × Value} {segments : List Segment} (member : part ∈ v.parts)
      (later : Leads part.2 segments w) : Leads v (part.1 ++ segments) w

theorem leads_nil_iff (v w : Value) : Leads v [] w ↔ w = v := by
  constructor
  · intro leads
    generalize none : ([] : List Segment) = segments at leads
    cases leads with
    | here => rfl
    | inside member later => exact absurd (List.append_eq_nil_iff.mp none.symm).1 (parts_steps_ne_nil member)
  · rintro rfl
    exact .here w

theorem leads_cons_iff (v w : Value) (s : Segment) (rest : List Segment) :
    Leads v (s :: rest) w ↔
      ∃ part ∈ v.parts, ∃ segments, s :: rest = part.1 ++ segments ∧ Leads part.2 segments w := by
  constructor
  · intro leads
    generalize whole : s :: rest = segments at leads
    cases leads with
    | here => cases whole
    | inside member later => exact ⟨_, member, _, rfl, later⟩
  · rintro ⟨part, member, segments, whole, later⟩
    rw [whole]
    exact .inside member later

/-! ### Following a path -/

theorem follow_arr_iff (items : List Value) (s : Segment) (rest : List Segment) (w : Value) :
    follow (s :: rest) (.arr items) = some w ↔ ∃ item, ([s], item) ∈ itemParts 0 items ∧ follow rest item = some w := by
  cases s with
  | key name => simp [follow, itemParts]
  | index position => simp [follow, itemParts, Option.bind_eq_some_iff, List.mk_mem_zipIdx_iff_getElem?]

theorem follow_obj_iff {members : List (String × Value)} (distinct : (memberNames members).Nodup) (s : Segment)
    (rest : List Segment) (w : Value) :
    follow (s :: rest) (.obj members) = some w ↔
      ∃ value, ([s], value) ∈ memberParts members ∧ follow rest value = some w := by
  cases s with
  | index position => simp [follow, memberParts]
  | key name =>
    have found (value : Value) : members.lookup name = some value ↔ (name, value) ∈ members :=
      ⟨mem_of_lookup, lookup_of_mem distinct⟩
    simp [follow, memberParts, Option.bind_eq_some_iff, found]

/-- Segments are followed into the argument whose steps they begin with. -/
theorem follow_fn_iff {call : Intrinsic Value} (distinct : (call.args.map (·.1)).Nodup) (s : Segment)
    (rest : List Segment) (w : Value) :
    follow (s :: rest) (.fn call) = some w ↔
      ∃ part ∈ call.args, ∃ segments, s :: rest = part.1 ++ segments ∧ follow segments part.2 = some w := by
  have found (steps : List Segment) (arg : Value) : call.args.lookup steps = some arg ↔ (steps, arg) ∈ call.args :=
    ⟨mem_of_lookup, lookup_of_mem distinct⟩
  cases s with
  | index position =>
    simp only [follow, reduceCtorEq, false_iff]
    rintro ⟨part, member, segments, whole, -⟩
    rcases args_steps call with single | double
    · obtain ⟨field, only⟩ := single part member
      simp [only] at whole
    · obtain ⟨field, entry, both⟩ := double part member
      simp [both] at whole
  | key field =>
    rcases args_steps call with single | double
    · -- one name is a whole step, so no argument stands under a name and an entry
      have absent (entry : Segment) : call.args.lookup [.key field, entry] = none := by
        refine List.lookup_eq_none_iff.mpr fun part member => ?_
        obtain ⟨other, only⟩ := single part member
        simp [only]
      have step : follow (.key field :: rest) (.fn call) = (call.args.lookup [.key field]).bind (follow rest) := by
        cases rest with
        | nil => cases here : call.args.lookup [.key field] <;> simp [follow, here]
        | cons entry rest => cases here : call.args.lookup [.key field] <;> simp [follow, here, absent]
      rw [step, Option.bind_eq_some_iff]
      constructor
      · rintro ⟨arg, here, later⟩
        exact ⟨_, (found _ arg).mp here, rest, rfl, later⟩
      · rintro ⟨⟨steps, arg⟩, member, segments, whole, later⟩
        obtain ⟨other, rfl⟩ := single _ member
        obtain ⟨rfl, rfl⟩ : field = other ∧ rest = segments := by simpa using whole
        exact ⟨arg, (found _ arg).mpr member, later⟩
    · -- a name alone is no whole step, and the next segment names the entry
      have absent : call.args.lookup [.key field] = none := by
        refine List.lookup_eq_none_iff.mpr fun part member => ?_
        obtain ⟨other, entry, both⟩ := double part member
        simp [both]
      cases rest with
      | nil =>
        simp only [follow, absent, reduceCtorEq, false_iff]
        rintro ⟨part, member, segments, whole, -⟩
        obtain ⟨other, entry, both⟩ := double part member
        simp [both] at whole
      | cons entry rest =>
        simp only [follow, absent, Option.bind_eq_some_iff]
        constructor
        · rintro ⟨arg, here, later⟩
          exact ⟨_, (found _ arg).mp here, rest, rfl, later⟩
        · rintro ⟨⟨steps, arg⟩, member, segments, whole, later⟩
          obtain ⟨other, key, rfl⟩ := double _ member
          obtain ⟨rfl, rfl, rfl⟩ : field = other ∧ entry = key ∧ rest = segments := by simpa using whole
          exact ⟨arg, (found _ arg).mpr member, later⟩

/-- Segments are followed into the part whose steps they begin with. -/
theorem follow_cons_iff {v : Value} (distinct : NodeDistinct v) (s : Segment) (rest : List Segment) (w : Value) :
    follow (s :: rest) v = some w ↔
      ∃ part ∈ v.parts, ∃ segments, s :: rest = part.1 ++ segments ∧ follow segments part.2 = some w := by
  cases v with
  | arr items =>
    rw [follow_arr_iff, parts]
    constructor
    · rintro ⟨item, member, later⟩
      exact ⟨_, member, rest, rfl, later⟩
    · rintro ⟨part, member, segments, whole, later⟩
      obtain ⟨item, inside, rfl⟩ := List.mem_map.mp member
      obtain ⟨rfl, rfl⟩ := List.cons.inj whole
      exact ⟨item.1, member, later⟩
  | obj members =>
    rw [follow_obj_iff distinct, parts]
    constructor
    · rintro ⟨value, member, later⟩
      exact ⟨_, member, rest, rfl, later⟩
    · rintro ⟨part, member, segments, whole, later⟩
      obtain ⟨entry, inside, rfl⟩ := List.mem_map.mp member
      obtain ⟨rfl, rfl⟩ := List.cons.inj whole
      exact ⟨entry.2, member, later⟩
  | fn call => exact follow_fn_iff (nodup_parts (v := .fn call) distinct) s rest w
  | _ => simp [follow, parts]

/-- Following a path finds the one node that it leads to. -/
theorem follow_eq_some_iff {v : Value} (distinct : Distinct v) (segments : List Segment) (w : Value) :
    follow segments v = some w ↔ Leads v segments w := by
  induction v using node_induction generalizing segments w with
  | step v ih =>
    cases segments with
    | nil => rw [follow, leads_nil_iff, Option.some.injEq, eq_comm]
    | cons s rest =>
      rw [follow_cons_iff distinct.node, leads_cons_iff]
      refine exists_congr fun part => and_congr_right fun member => exists_congr fun later => and_congr_right fun _ => ?_
      exact ih part.2 ((child_iff_parts _ v).mpr ⟨part.1, member⟩) (distinct.part member) later w

/-! ### Walking -/

/-- A walk comes to the nodes that paths lead to. -/
theorem mem_walk_iff (v : Value) (base path : FieldPath) (w : Value) :
    (path, w) ∈ v.walk base ↔ ∃ segments, path = base.join ⟨segments⟩ ∧ Leads v segments w := by
  induction v using node_induction generalizing base path with
  | step v ih =>
    have child {part : List Segment × Value} (member : part ∈ v.parts) : Child part.2 v :=
      (child_iff_parts _ v).mpr ⟨part.1, member⟩
    rw [walk_eq, List.mem_cons, List.mem_flatMap]
    constructor
    · rintro (here | ⟨part, member, inside⟩)
      · obtain ⟨rfl, rfl⟩ := Prod.mk.inj here
        exact ⟨[], (FieldPath.join_root path).symm, .here w⟩
      · obtain ⟨segments, rfl, leads⟩ := (ih _ (child member) _ _).mp inside
        exact ⟨part.1 ++ segments, FieldPath.join_assoc _ _ _, .inside member leads⟩
    · rintro ⟨segments, rfl, leads⟩
      cases leads with
      | here => exact .inl (by rw [← FieldPath.root, FieldPath.join_root])
      | inside member later =>
        refine .inr ⟨_, member, (ih _ (child member) _ _).mpr ⟨_, ?_, later⟩⟩
        exact (FieldPath.join_assoc base ⟨_⟩ ⟨_⟩).symm

/-- A walk comes to every path at most once. -/
theorem nodup_walk {v : Value} (distinct : Distinct v) (base : FieldPath) : ((v.walk base).map (·.1)).Nodup := by
  induction v using node_induction generalizing base with
  | step v ih =>
    have child {part : List Segment × Value} (member : part ∈ v.parts) : Child part.2 v :=
      (child_iff_parts _ v).mpr ⟨part.1, member⟩
    have below {part : List Segment × Value} {path : FieldPath}
        (found : path ∈ (part.2.walk (base.join ⟨part.1⟩)).map (·.1)) :
        ∃ segments, path.segments = base.segments ++ (part.1 ++ segments) := by
      obtain ⟨⟨_, w⟩, inside, rfl⟩ := List.mem_map.mp found
      obtain ⟨segments, rfl, -⟩ := (mem_walk_iff _ _ _ _).mp inside
      exact ⟨segments, List.append_assoc _ _ _⟩
    rw [walk_eq, List.map_cons, List.map_flatMap, List.nodup_cons, List.nodup_flatMap]
    refine ⟨fun again => ?_, fun part member => ih _ (child member) (distinct.part member) _, ?_⟩
    · obtain ⟨part, member, found⟩ := List.mem_flatMap.mp again
      obtain ⟨segments, same⟩ := below found
      have none : part.1 ++ segments = [] := by simpa using same
      exact parts_steps_ne_nil member (List.append_eq_nil_iff.mp none).1
    · refine (List.pairwise_map.mp (nodup_parts distinct.node)).imp_of_mem fun first second apart => ?_
      -- two parts are equally far away, so paths below them part where the steps do
      intro path left right
      obtain ⟨_, here⟩ := below left
      obtain ⟨_, there⟩ := below right
      rw [here, List.append_cancel_left_eq] at there
      exact apart (List.append_inj_left there (parts_steps_length first second))

end StackCompiler.Value
