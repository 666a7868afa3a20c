import StackCompiler.Proofs.Value.Parts

/-!
Changing the parts of a value, by a change that may fail. It fails at the first part that
cannot be changed (`mapChildrenM_fails`), it keeps the node itself (`mapChildrenM_emptied`),
and it keeps the value if it keeps every part (`mapChildrenM_kept`).
-/
namespace StackCompiler.Value

variable {ε : Type}

/-! ### The first failure -/

section Fails

variable (f : FieldPath → Value → Except ε Value) (base : FieldPath)

/-- `f` fails with `e` on one of the parts and gives a result for each part before it. -/
inductive FailsFirst (e : ε) : List (List Segment × Value) → Prop
  | here {part : List Segment × Value} {rest : List (List Segment × Value)}
      (fails : f (base.join ⟨part.1⟩) part.2 = .error e) : FailsFirst e (part :: rest)
  | later {part : List Segment × Value} {rest : List (List Segment × Value)} {w : Value}
      (passes : f (base.join ⟨part.1⟩) part.2 = .ok w) (fails : FailsFirst e rest) : FailsFirst e (part :: rest)

variable {f base} {e : ε}

theorem mapItemsM_fails {start : Nat} {items : List Value} (failed : mapItemsM f base start items = .error e) :
    FailsFirst f base e (itemParts start items) := by
  induction items generalizing start with
  | nil => exact absurd failed (pure_ne_error _ _)
  | cons item rest ih =>
    simp only [mapItemsM, bind_eq_error, pure_ne_error, and_false, exists_false, or_false] at failed
    obtain now | ⟨_, first, later⟩ := failed
    · exact .here now
    · exact .later first (ih later)

theorem mapMembersM_fails {members : List (String × Value)} (failed : mapMembersM f base members = .error e) :
    FailsFirst f base e (memberParts members) := by
  induction members with
  | nil => exact absurd failed (pure_ne_error _ _)
  | cons member rest ih =>
    simp only [mapMembersM, bind_eq_error, pure_ne_error, and_false, exists_false, or_false] at failed
    obtain now | ⟨_, first, later⟩ := failed
    · exact .here now
    · exact .later first (ih later)

theorem FailsFirst.under {field : String} {parts : List (List Segment × Value)}
    (fails : FailsFirst f (base.key field) e parts) : FailsFirst f base e (parts.map (Value.under field)) := by
  induction fails with
  | here fails => exact .here (by rwa [Value.under, FieldPath.join_cons])
  | later passes _ ih => exact .later (by rwa [Value.under, FieldPath.join_cons]) ih

theorem mapArgsM_fails {call : Intrinsic Value} (failed : mapArgsM f base call = .error e) :
    FailsFirst f base e call.args := by
  cases call with
  | ref _ | getAtt _ | condition _ | verbatim _ _ => exact absurd failed (pure_ne_error _ _)
  | join _ _ | not _ | split _ _ | base64 _ | importValue _ | getAZs _ =>
    exact .here ((map_eq_error _ _ _).mp failed)
  | select _ _ | cond _ _ _ | equals _ _ =>
    simp only [mapArgsM, bind_eq_error, pure_ne_error, and_false, exists_false, or_false] at failed
    obtain now | ⟨_, first, second⟩ := failed
    · exact .here now
    · exact .later first (.here second)
  | cidr _ _ _ | findInMap _ _ _ =>
    simp only [mapArgsM, bind_eq_error, pure_ne_error, and_false, exists_false, or_false] at failed
    obtain now | ⟨_, first, now | ⟨_, second, third⟩⟩ := failed
    · exact .here now
    · exact .later first (.here now)
    · exact .later first (.later second (.here third))
  | and _ | or _ =>
    rw [Intrinsic.args, indexed_eq_map_under]
    exact (mapItemsM_fails ((map_eq_error _ _ _).mp failed)).under
  | sub _ _ | transform _ _ =>
    rw [Intrinsic.args, keyed_eq_map_under]
    exact (mapMembersM_fails ((map_eq_error _ _ _).mp failed)).under

/-- A change of all parts fails at the first part that cannot be changed. -/
theorem mapChildrenM_fails {v : Value} (failed : mapChildrenM f base v = .error e) : FailsFirst f base e v.parts := by
  cases v with
  | arr items => exact mapItemsM_fails ((map_eq_error _ _ _).mp failed)
  | obj members => exact mapMembersM_fails ((map_eq_error _ _ _).mp failed)
  | fn call => exact mapArgsM_fails ((map_eq_error _ _ _).mp failed)
  | null | bool _ | num _ | str _ => exact absurd failed (pure_ne_error _ _)

end Fails

/-! ### The node itself -/

/-- A node by itself: null stands for every value inside it. -/
def emptied (v : Value) : Value := Id.run (mapChildrenM (fun _ _ => pure .null) .root v)

section Changed

variable {f : FieldPath → Value → Except ε Value} {base : FieldPath}

theorem mapItemsM_emptied {start : Nat} {items changed : List Value} (done : mapItemsM f base start items = .ok changed)
    (other : FieldPath) (position : Nat) :
    Id.run (mapItemsM (fun _ _ => pure .null) other position changed) =
      Id.run (mapItemsM (fun _ _ => pure .null) other position items) := by
  induction items generalizing start position changed with
  | nil =>
    simp only [mapItemsM, pure_eq_ok] at done
    rw [← done]
  | cons item rest ih =>
    simp only [mapItemsM, bind_eq_ok, pure_eq_ok] at done
    obtain ⟨_, -, others, later, rfl⟩ := done
    exact congrArg (Value.null :: ·) (ih later (position + 1))

theorem mapMembersM_emptied {members changed : List (String × Value)} (done : mapMembersM f base members = .ok changed)
    (other : FieldPath) :
    Id.run (mapMembersM (fun _ _ => pure .null) other changed) =
      Id.run (mapMembersM (fun _ _ => pure .null) other members) := by
  induction members generalizing changed with
  | nil =>
    simp only [mapMembersM, pure_eq_ok] at done
    rw [← done]
  | cons member rest ih =>
    simp only [mapMembersM, bind_eq_ok, pure_eq_ok] at done
    obtain ⟨_, -, others, later, rfl⟩ := done
    exact congrArg ((member.1, Value.null) :: ·) (ih later)

theorem mapArgsM_emptied {call changed : Intrinsic Value} (done : mapArgsM f base call = .ok changed) :
    Id.run (mapArgsM (fun _ _ => pure .null) .root changed) = Id.run (mapArgsM (fun _ _ => pure .null) .root call) := by
  cases call with
  | ref _ | getAtt _ | condition _ | verbatim _ _ =>
    simp only [mapArgsM, pure_eq_ok] at done
    rw [← done]
  | join _ _ | not _ | split _ _ | base64 _ | importValue _ | getAZs _ =>
    simp only [mapArgsM, map_eq_ok] at done
    obtain ⟨_, -, rfl⟩ := done
    rfl
  | select _ _ | cond _ _ _ | equals _ _ =>
    simp only [mapArgsM, bind_eq_ok, pure_eq_ok] at done
    obtain ⟨_, -, _, -, rfl⟩ := done
    rfl
  | cidr _ _ _ | findInMap _ _ _ =>
    simp only [mapArgsM, bind_eq_ok, pure_eq_ok] at done
    obtain ⟨_, -, _, -, _, -, rfl⟩ := done
    rfl
  | and _ =>
    simp only [mapArgsM, map_eq_ok] at done
    obtain ⟨_, items, rfl⟩ := done
    exact congrArg Intrinsic.and (mapItemsM_emptied items _ _)
  | or _ =>
    simp only [mapArgsM, map_eq_ok] at done
    obtain ⟨_, items, rfl⟩ := done
    exact congrArg Intrinsic.or (mapItemsM_emptied items _ _)
  | sub template _ =>
    simp only [mapArgsM, map_eq_ok] at done
    obtain ⟨_, members, rfl⟩ := done
    exact congrArg (Intrinsic.sub template) (mapMembersM_emptied members _)
  | transform name _ =>
    simp only [mapArgsM, map_eq_ok] at done
    obtain ⟨_, members, rfl⟩ := done
    exact congrArg (Intrinsic.transform name) (mapMembersM_emptied members _)

/-- A change of all parts keeps the node itself. -/
theorem mapChildrenM_emptied {v w : Value} (done : mapChildrenM f base v = .ok w) : w.emptied = v.emptied := by
  cases v with
  | arr items =>
    simp only [mapChildrenM, map_eq_ok] at done
    obtain ⟨_, items, rfl⟩ := done
    exact congrArg Value.arr (mapItemsM_emptied items _ _)
  | obj members =>
    simp only [mapChildrenM, map_eq_ok] at done
    obtain ⟨_, members, rfl⟩ := done
    exact congrArg Value.obj (mapMembersM_emptied members _)
  | fn call =>
    simp only [mapChildrenM, map_eq_ok] at done
    obtain ⟨_, args, rfl⟩ := done
    exact congrArg Value.fn (mapArgsM_emptied args)
  | null | bool _ | num _ | str _ =>
    simp only [mapChildrenM, pure_eq_ok] at done
    rw [← done]

/-! ### Parts that are kept -/

theorem mapItemsM_kept {start : Nat} {items : List Value}
    (kept : ∀ part ∈ itemParts start items, f (base.join ⟨part.1⟩) part.2 = .ok part.2) :
    mapItemsM f base start items = .ok items := by
  induction items generalizing start with
  | nil => rfl
  | cons item rest ih =>
    rw [itemParts, List.zipIdx_cons, List.map_cons, List.forall_mem_cons] at kept
    simp only [mapItemsM, bind_eq_ok, pure_eq_ok]
    exact ⟨item, kept.1, rest, ih kept.2, rfl⟩

theorem mapMembersM_kept {members : List (String × Value)}
    (kept : ∀ part ∈ memberParts members, f (base.join ⟨part.1⟩) part.2 = .ok part.2) :
    mapMembersM f base members = .ok members := by
  induction members with
  | nil => rfl
  | cons member rest ih =>
    rw [memberParts, List.map_cons, List.forall_mem_cons] at kept
    simp only [mapMembersM, bind_eq_ok, pure_eq_ok]
    exact ⟨member.2, kept.1, rest, ih kept.2, rfl⟩

/-- What is kept for every part of an argument, seen from the argument. -/
theorem kept_under {field : String} {parts : List (List Segment × Value)}
    (kept : ∀ part ∈ parts.map (under field), f (base.join ⟨part.1⟩) part.2 = .ok part.2) :
    ∀ part ∈ parts, f ((base.key field).join ⟨part.1⟩) part.2 = .ok part.2 := by
  intro part member
  rw [← FieldPath.join_cons]
  exact kept _ (List.mem_map_of_mem member)

theorem mapArgsM_kept {call : Intrinsic Value}
    (kept : ∀ part ∈ call.args, f (base.join ⟨part.1⟩) part.2 = .ok part.2) : mapArgsM f base call = .ok call := by
  cases call with
  | ref _ | getAtt _ | condition _ | verbatim _ _ => rfl
  | join _ value | not value | split _ value | base64 value | importValue value | getAZs value =>
    simp only [mapArgsM, map_eq_ok]
    exact ⟨value, kept _ List.mem_cons_self, rfl⟩
  | select first second | cond _ first second | equals first second =>
    simp only [Intrinsic.args, List.forall_mem_cons] at kept
    simp only [mapArgsM, bind_eq_ok, pure_eq_ok]
    exact ⟨first, kept.1, second, kept.2.1, rfl⟩
  | cidr first second third | findInMap first second third =>
    simp only [Intrinsic.args, List.forall_mem_cons] at kept
    simp only [mapArgsM, bind_eq_ok, pure_eq_ok]
    exact ⟨first, kept.1, second, kept.2.1, third, kept.2.2.1, rfl⟩
  | and items | or items =>
    rw [Intrinsic.args, indexed_eq_map_under] at kept
    simp only [mapArgsM, map_eq_ok]
    exact ⟨items, mapItemsM_kept (kept_under kept), rfl⟩
  | sub _ members | transform _ members =>
    rw [Intrinsic.args, keyed_eq_map_under] at kept
    simp only [mapArgsM, map_eq_ok]
    exact ⟨members, mapMembersM_kept (kept_under kept), rfl⟩

/-- A change that keeps every part keeps the value. -/
theorem mapChildrenM_kept {v : Value} (kept : ∀ part ∈ v.parts, f (base.join ⟨part.1⟩) part.2 = .ok part.2) :
    mapChildrenM f base v = .ok v := by
  cases v with
  | arr items =>
    simp only [mapChildrenM, map_eq_ok]
    exact ⟨items, mapItemsM_kept kept, rfl⟩
  | obj members =>
    simp only [mapChildrenM, map_eq_ok]
    exact ⟨members, mapMembersM_kept kept, rfl⟩
  | fn call =>
    simp only [mapChildrenM, map_eq_ok]
    exact ⟨call, mapArgsM_kept kept, rfl⟩
  | null | bool _ | num _ | str _ => rfl

end Changed

end StackCompiler.Value
