import StackCompiler.Proofs.Outcome
import StackCompiler.Proofs.Value.Nodes
import StackCompiler.Value.Edit

/-!
The parts of a value: the values right inside it, each with the steps that lead to it.
A change of every part keeps the steps and changes the values one by one
(`mapChildrenM_each`).
-/
namespace StackCompiler

theorem FieldPath.join_root (path : FieldPath) : path.join .root = path := by
  simp [join, root]

theorem FieldPath.join_assoc (path other rest : FieldPath) : (path.join other).join rest = path.join (other.join rest) := by
  simp [join]

theorem FieldPath.join_cons (path : FieldPath) (name : String) (segments : List Segment) :
    path.join ⟨.key name :: segments⟩ = (path.key name).join ⟨segments⟩ := by
  simp [join, key]

namespace Value

/-- Items with the steps that lead to them, counted from `start`. -/
def itemParts (start : Nat) (items : List Value) : List (List Segment × Value) :=
  (items.zipIdx start).map fun (item, position) => ([.index position], item)

def memberParts (members : List (String × Value)) : List (List Segment × Value) :=
  members.map fun (name, value) => ([.key name], value)

/-- The values right inside a value, each with the steps that lead to it. -/
def parts : Value → List (List Segment × Value)
  | .arr items => itemParts 0 items
  | .obj members => memberParts members
  | .fn call => call.args
  | _ => []

theorem child_iff_parts (w v : Value) : Child w v ↔ ∃ steps, (steps, w) ∈ v.parts := by
  cases v with
  | arr items => simp [Child, parts, itemParts, List.mem_iff_getElem?]
  | obj members => simp [Child, parts, memberParts]
  | fn call => simp [Child, parts, Intrinsic.argValues]
  | _ => simp [Child, parts]

/-! ### Changing every part -/

section Each

variable {ε : Type} (f : FieldPath → Value → Except ε Value) (base : FieldPath)

/-- `f` gives the second parts for the first, step for step. -/
def Each (before after : List (List Segment × Value)) : Prop :=
  List.Forall₂ (fun p q => p.1 = q.1 ∧ f (base.join ⟨p.1⟩) p.2 = .ok q.2) before after

variable {f base}

theorem mapItemsM_each {start : Nat} {items changed : List Value}
    (done : mapItemsM f base start items = .ok changed) :
    Each f base (itemParts start items) (itemParts start changed) := by
  induction items generalizing start changed with
  | nil =>
    simp only [mapItemsM, pure_eq_ok] at done
    exact done ▸ .nil
  | cons item rest ih =>
    simp only [mapItemsM, bind_eq_ok, pure_eq_ok] at done
    obtain ⟨first, now, others, later, rfl⟩ := done
    exact .cons ⟨rfl, now⟩ (ih later)

theorem mapMembersM_each {members changed : List (String × Value)}
    (done : mapMembersM f base members = .ok changed) : Each f base (memberParts members) (memberParts changed) := by
  induction members generalizing changed with
  | nil =>
    simp only [mapMembersM, pure_eq_ok] at done
    exact done ▸ .nil
  | cons member rest ih =>
    simp only [mapMembersM, bind_eq_ok, pure_eq_ok] at done
    obtain ⟨first, now, others, later, rfl⟩ := done
    exact .cons ⟨rfl, now⟩ (ih later)

/-- A part of an argument as a part of the call. -/
def under (field : String) (part : List Segment × Value) : List Segment × Value := (.key field :: part.1, part.2)

theorem indexed_eq_map_under (field : String) (start : Nat) (items : List Value) :
    Intrinsic.indexed field start items = (itemParts start items).map (under field) := by
  induction items generalizing start with
  | nil => rfl
  | cons item rest ih =>
    rw [Intrinsic.indexed, ih]
    rfl

theorem keyed_eq_map_under (field : String) (members : List (String × Value)) :
    Intrinsic.keyed field members = (memberParts members).map (under field) := by
  simp [Intrinsic.keyed, memberParts, under]

theorem Each.under {field : String} {before after : List (List Segment × Value)}
    (each : Each f (base.key field) before after) :
    Each f base (before.map (Value.under field)) (after.map (Value.under field)) := by
  unfold Each
  rw [List.forall₂_map_left_iff, List.forall₂_map_right_iff]
  refine List.Forall₂.imp (fun p q each => ?_) each
  refine ⟨congrArg (Segment.key field :: ·) each.1, ?_⟩
  rw [Value.under, FieldPath.join_cons]
  exact each.2

/-- The function that a value calls. -/
def function? (v : Value) : Option Function := v.asFn?.bind Intrinsic.function?

theorem mapArgsM_each {call changed : Intrinsic Value} (done : mapArgsM f base call = .ok changed) :
    changed.function? = call.function? ∧ Each f base call.args changed.args := by
  cases call with
  | ref _ | getAtt _ | condition _ | verbatim _ _ =>
    simp only [mapArgsM, pure_eq_ok] at done
    subst done
    exact ⟨rfl, .nil⟩
  | join _ _ | not _ | split _ _ | base64 _ | importValue _ | getAZs _ =>
    simp only [mapArgsM, map_eq_ok] at done
    obtain ⟨_, first, rfl⟩ := done
    exact ⟨rfl, .cons ⟨rfl, first⟩ .nil⟩
  | select _ _ | cond _ _ _ | equals _ _ =>
    simp only [mapArgsM, bind_eq_ok, pure_eq_ok] at done
    obtain ⟨_, first, _, second, rfl⟩ := done
    exact ⟨rfl, .cons ⟨rfl, first⟩ (.cons ⟨rfl, second⟩ .nil)⟩
  | cidr _ _ _ | findInMap _ _ _ =>
    simp only [mapArgsM, bind_eq_ok, pure_eq_ok] at done
    obtain ⟨_, first, _, second, _, third, rfl⟩ := done
    exact ⟨rfl, .cons ⟨rfl, first⟩ (.cons ⟨rfl, second⟩ (.cons ⟨rfl, third⟩ .nil))⟩
  | and _ | or _ =>
    simp only [mapArgsM, map_eq_ok] at done
    obtain ⟨_, items, rfl⟩ := done
    simp only [Intrinsic.args, indexed_eq_map_under]
    exact ⟨rfl, (mapItemsM_each items).under⟩
  | sub _ _ | transform _ _ =>
    simp only [mapArgsM, map_eq_ok] at done
    obtain ⟨_, members, rfl⟩ := done
    simp only [Intrinsic.args, keyed_eq_map_under]
    exact ⟨rfl, (mapMembersM_each members).under⟩

/-- A change of all parts keeps what function is called and changes the parts one by one. -/
theorem mapChildrenM_each {v w : Value} (done : mapChildrenM f base v = .ok w) :
    w.function? = v.function? ∧ Each f base v.parts w.parts := by
  cases v with
  | arr items =>
    simp only [mapChildrenM, map_eq_ok] at done
    obtain ⟨_, items, rfl⟩ := done
    exact ⟨rfl, mapItemsM_each items⟩
  | obj members =>
    simp only [mapChildrenM, map_eq_ok] at done
    obtain ⟨_, members, rfl⟩ := done
    exact ⟨rfl, mapMembersM_each members⟩
  | fn call =>
    simp only [mapChildrenM, map_eq_ok] at done
    obtain ⟨_, args, rfl⟩ := done
    exact mapArgsM_each args
  | null | bool _ | num _ | str _ =>
    simp only [mapChildrenM, pure_eq_ok] at done
    subst done
    exact ⟨rfl, .nil⟩

end Each

end Value

end StackCompiler
