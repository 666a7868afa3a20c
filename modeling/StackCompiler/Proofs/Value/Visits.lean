import StackCompiler.Proofs.Value.Paths

/-!
A visitor that keeps every node and goes on is shown the nodes of a walk, in the order of
the walk (`edit_observing`). With it, the ways to come to a node agree: pointing at it,
walking, and changing a value node by node (`walk_agrees`).
-/
namespace StackCompiler.Value

/-- The nodes of a value are the same wherever the value stands. -/
theorem walk_base (v : Value) (base : FieldPath) :
    v.walk base = (v.walk .root).map fun node => (base.join node.1, node.2) := by
  induction v using node_induction generalizing base with
  | step v ih =>
    rw [walk_eq base, walk_eq .root, List.map_cons, List.map_flatMap, FieldPath.join_root]
    congr 1
    refine List.flatMap_congr fun part member => ?_
    have child : Child part.2 v := (child_iff_parts _ v).mpr ⟨part.1, member⟩
    rw [ih part.2 child (base.join _), ih part.2 child (FieldPath.root.join _), List.map_map]
    exact List.map_congr_left fun node _ => congrArg (·, node.2) (FieldPath.join_assoc base ⟨part.1⟩ node.1)

/-- There are fewer nodes below a part than below the whole. -/
theorem length_walk_part {v : Value} {part : List Segment × Value} (member : part ∈ v.parts) :
    (part.2.walk .root).length < (v.walk .root).length := by
  have one : (part.2.walk (FieldPath.root.join ⟨part.1⟩)).length ≤
      (v.parts.flatMap fun part => part.2.walk (FieldPath.root.join ⟨part.1⟩)).length := by
    rw [List.flatMap_def]
    refine List.Sublist.length_le (List.sublist_flatten_of_mem ?_)
    exact List.mem_map.mpr ⟨part, member, rfl⟩
  rw [walk_base, List.length_map] at one
  rw [walk_eq .root v, List.length_cons]
  omega

/-! ### A change that keeps every node -/

section Kept

variable {τ : Type} (f : FieldPath → Value → StateM τ Value) (after : FieldPath → Value → τ → τ) (base : FieldPath)

/-- `f` keeps each of the parts, and `after` says what it makes of the state there. -/
def KeepsParts (parts : List (List Segment × Value)) : Prop :=
  ∀ part ∈ parts, ∀ s, (f (base.join ⟨part.1⟩) part.2).run s = (part.2, after (base.join ⟨part.1⟩) part.2 s)

/-- The state after all parts, one after the other. -/
def passed (parts : List (List Segment × Value)) (s : τ) : τ :=
  parts.foldl (fun s part => after (base.join ⟨part.1⟩) part.2 s) s

variable {f after base}

theorem KeepsParts.of_under {field : String} {parts : List (List Segment × Value)}
    (keeps : KeepsParts f after base (parts.map (under field))) : KeepsParts f after (base.key field) parts := by
  intro part member s
  have kept := keeps (under field part) (List.mem_map_of_mem member) s
  rwa [under, FieldPath.join_cons] at kept

theorem passed_map_under (field : String) (parts : List (List Segment × Value)) (s : τ) :
    passed after base (parts.map (under field)) s = passed after (base.key field) parts s := by
  simp [passed, List.foldl_map, under, FieldPath.join_cons]

theorem run_bind_of {α β : Type} {x : StateM τ α} {k : α → StateM τ β} {a : α} {s t : τ} (run : x.run s = (a, t)) :
    (x >>= k).run s = (k a).run t := by
  rw [StateT.run_bind, run]
  rfl

theorem run_map_of {α β : Type} {x : StateM τ α} {g : α → β} {a : α} {s t : τ} (run : x.run s = (a, t)) :
    (g <$> x).run s = (g a, t) := by
  rw [StateT.run_map, run]
  rfl

theorem mapItemsM_keeps {start : Nat} {items : List Value} (keeps : KeepsParts f after base (itemParts start items)) (s : τ) :
    (mapItemsM f base start items).run s = (items, passed after base (itemParts start items) s) := by
  induction items generalizing start s with
  | nil => rfl
  | cons item rest ih =>
    obtain ⟨first, others⟩ := List.forall_mem_cons.mp keeps
    exact (run_bind_of (first s)).trans (run_bind_of (ih others _))

theorem mapMembersM_keeps {members : List (String × Value)} (keeps : KeepsParts f after base (memberParts members)) (s : τ) :
    (mapMembersM f base members).run s = (members, passed after base (memberParts members) s) := by
  induction members generalizing s with
  | nil => rfl
  | cons member rest ih =>
    obtain ⟨first, others⟩ := List.forall_mem_cons.mp keeps
    exact (run_bind_of (first s)).trans (run_bind_of (ih others _))

theorem mapArgsM_keeps {call : Intrinsic Value} (keeps : KeepsParts f after base call.args) (s : τ) :
    (mapArgsM f base call).run s = (call, passed after base call.args s) := by
  cases call with
  | ref _ | getAtt _ | condition _ | verbatim _ _ => rfl
  | join _ _ | not _ | split _ _ | base64 _ | importValue _ | getAZs _ =>
    obtain ⟨first, -⟩ := List.forall_mem_cons.mp keeps
    exact run_map_of (first s)
  | select _ _ | cond _ _ _ | equals _ _ =>
    obtain ⟨first, others⟩ := List.forall_mem_cons.mp keeps
    obtain ⟨second, -⟩ := List.forall_mem_cons.mp others
    exact (run_bind_of (first s)).trans (run_bind_of (second _))
  | cidr _ _ _ | findInMap _ _ _ =>
    obtain ⟨first, others⟩ := List.forall_mem_cons.mp keeps
    obtain ⟨second, others⟩ := List.forall_mem_cons.mp others
    obtain ⟨third, -⟩ := List.forall_mem_cons.mp others
    exact (run_bind_of (first s)).trans ((run_bind_of (second _)).trans (run_bind_of (third _)))
  | and items | or items =>
    rw [Intrinsic.args, indexed_eq_map_under] at keeps ⊢
    rw [passed_map_under]
    exact run_map_of (mapItemsM_keeps keeps.of_under s)
  | sub _ members | transform _ members =>
    rw [Intrinsic.args, keyed_eq_map_under] at keeps ⊢
    rw [passed_map_under]
    exact run_map_of (mapMembersM_keeps keeps.of_under s)

/-- A change that keeps every part keeps the value and passes the parts in their order. -/
theorem mapChildrenM_keeps {v : Value} (keeps : KeepsParts f after base v.parts) (s : τ) :
    (mapChildrenM f base v).run s = (v, passed after base v.parts s) := by
  cases v with
  | arr items => exact run_map_of (mapItemsM_keeps keeps s)
  | obj members => exact run_map_of (mapMembersM_keeps keeps s)
  | fn call => exact run_map_of (mapArgsM_keeps keeps s)
  | _ => rfl

end Kept

variable {σ : Type}

/-- A visitor that keeps every node it sees and goes on, whatever it makes of its state. -/
def observing (next : FieldPath → Value → σ → σ) (path : FieldPath) (v : Value) (state : σ) : σ × Visit :=
  (next path v state, .descend v)

/-- How far a walk has come after all nodes of a value that stands at `base`; one that has ended
    stays where it was. -/
def walked (next : FieldPath → Value → σ → σ) (base : FieldPath) (v : Value) (progress : Progress σ) : Progress σ :=
  if progress.stopped then progress
  else ⟨(v.walk base).foldl (fun state node => next node.1 node.2 state) progress.state, false⟩

theorem passed_walked (next : FieldPath → Value → σ → σ) (base : FieldPath) (parts : List (List Segment × Value))
    (state : σ) :
    passed (walked next) base parts ⟨state, false⟩ =
      ⟨(parts.flatMap fun part => part.2.walk (base.join ⟨part.1⟩)).foldl
        (fun state node => next node.1 node.2 state) state, false⟩ := by
  induction parts generalizing state with
  | nil => rfl
  | cons part rest ih =>
    rw [List.flatMap_cons, List.foldl_append]
    exact ih _

/-- Such a visitor sees the nodes of a walk, in the order of the walk. -/
theorem edit_observing (next : FieldPath → Value → σ → σ) {levels : Nat} {v : Value}
    (enough : (v.walk .root).length ≤ levels) (base : FieldPath) (progress : Progress σ) :
    (edit (observing next) levels base v).run progress = (v, walked next base v progress) := by
  induction levels generalizing v base progress with
  | zero =>
    rw [walk_eq] at enough
    simp at enough
  | succ levels ih =>
    obtain ⟨state, stopped⟩ := progress
    cases stopped with
    | true => rfl
    | false =>
      have keeps : KeepsParts (edit (observing next) levels) (walked next) base v.parts := by
        intro part member progress
        refine ih ?_ _ progress
        have fewer := length_walk_part member
        omega
      calc (edit (observing next) (levels + 1) base v).run ⟨state, false⟩
        _ = (mapChildrenM (edit (observing next) levels) base v).run ⟨next base v state, false⟩ := rfl
        _ = (v, passed (walked next) base v.parts ⟨next base v state, false⟩) := mapChildrenM_keeps keeps _
        _ = (v, walked next base v ⟨state, false⟩) := by rw [passed_walked, walked, walk_eq base v]; rfl

theorem length_walk_le_levelsOf (v : Value) (others : List Value) : (v.walk .root).length ≤ levelsOf (v :: others) := by
  rw [levelsOf, List.flatMap_cons, List.length_append]
  omega

/-! ### One notion of place -/

/-- A path points to a node exactly if a walk from the root comes to the node at the path, no walk
    comes to a path twice, and a visitor that keeps every node and goes on is shown the nodes of a
    walk, in the order of the walk. -/
theorem walk_agrees {v : Value} (distinct : Distinct v) :
    (∀ path w, v.pointer path = some w ↔ (path, w) ∈ v.walk .root) ∧
      ((v.walk .root).map (·.1)).Nodup ∧
      ∀ (σ : Type) (next : FieldPath → Value → σ → σ) (start : σ) (others : List Value),
        (edit (observing next) (levelsOf (v :: others)) .root v).run ⟨start, false⟩ =
          (v, ⟨(v.walk .root).foldl (fun state node => next node.1 node.2 state) start, false⟩) := by
  refine ⟨fun path w => ?_, nodup_walk distinct .root, fun σ next start others => ?_⟩
  · rw [pointer, follow_eq_some_iff distinct, mem_walk_iff]
    constructor
    · intro leads
      exact ⟨path.segments, rfl, leads⟩
    · rintro ⟨segments, rfl, leads⟩
      exact leads
  · exact edit_observing next (length_walk_le_levelsOf v others) .root ⟨start, false⟩

/-- A substitution in an object and its binding, which is two steps away from it. -/
theorem walk_agrees_through_binding :
    let v : Value := .obj [("Name", .fn (.sub "${Part}" [("Part", .str "queue")])), ("Size", .null)]
    Distinct v ∧
      v.pointer ⟨[.key "Name", .key "Variables", .key "Part"]⟩ = some (.str "queue") ∧
      (edit (observing fun path _ (seen : List FieldPath) => seen ++ [path]) (levelsOf [v]) .root v).run ⟨[], false⟩ =
        (v, ⟨(v.walk .root).map (·.1), false⟩) := by
  intro v
  have text : Distinct (.str "queue") := (distinct_iff _).mpr ⟨trivial, fun _ inside => inside.elim⟩
  have empty : Distinct .null := (distinct_iff _).mpr ⟨trivial, fun _ inside => inside.elim⟩
  have call : Distinct (.fn (.sub "${Part}" [("Part", .str "queue")])) :=
    (distinct_iff _).mpr ⟨List.nodup_singleton _, List.forall_mem_singleton.mpr text⟩
  have distinct : Distinct v :=
    (distinct_iff _).mpr ⟨by simp [v, NodeDistinct, memberNames],
      List.forall_mem_cons.mpr ⟨call, List.forall_mem_singleton.mpr empty⟩⟩
  have agrees := walk_agrees distinct
  refine ⟨distinct, (agrees.1 _ _).mpr (by simp [v, walk, walkMembers, walkArgs, FieldPath.key, FieldPath.root]), ?_⟩
  exact agrees.2.2 _ _ _ []

end StackCompiler.Value
