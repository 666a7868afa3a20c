import StackCompiler.Intrinsic
import StackCompiler.Proofs.Json.Formed

/-!
Documents in which the attribute of a resource is one dotted text, as the short form has
it.
-/
namespace StackCompiler.Json

/-- An object that reads an attribute, with the resource and the name apart. -/
def IsAttribute : Json → Prop
  | .obj [(key, .arr [.str _, .str _])] => key = Function.getAtt.key
  | _ => False

mutual

/-- A document with a dot between the resource and the name of each attribute. -/
def dotted : Json → Json
  | .null => .null
  | .bool b => .bool b
  | .num n => .num n
  | .str s => .str s
  | .arr items => .arr (dottedItems items)
  | .obj [(key, .arr [.str resource, .str name])] =>
    if key = Function.getAtt.key then .obj [(key, .str (resource ++ "." ++ name))]
    else .obj [(key, .arr [.str resource, .str name])]
  | .obj members => .obj (dottedMembers members)

def dottedItems : List Json → List Json
  | [] => []
  | item :: rest => dotted item :: dottedItems rest

def dottedMembers : List (String × Json) → List (String × Json)
  | [] => []
  | (name, json) :: rest => (name, dotted json) :: dottedMembers rest

end

theorem dottedItems_eq_map (items : List Json) : dottedItems items = items.map dotted := by
  induction items with
  | nil => rfl
  | cons item rest ih => exact congrArg (dotted item :: ·) ih

theorem dottedMembers_eq_mapEntries (members : List (String × Json)) :
    dottedMembers members = mapEntries dotted members := by
  induction members with
  | nil => rfl
  | cons member rest ih => exact congrArg ((member.1, dotted member.2) :: ·) ih

@[simp] theorem dotted_str (s : String) : dotted (.str s) = .str s := rfl

@[simp] theorem dotted_arr (items : List Json) : dotted (.arr items) = .arr (items.map dotted) :=
  congrArg arr (dottedItems_eq_map items)

theorem IsAttribute.eq {json : Json} (reads : IsAttribute json) :
    ∃ resource name, json = .obj [(Function.getAtt.key, .arr [.str resource, .str name])] := by
  unfold IsAttribute at reads
  split at reads
  · subst reads
    exact ⟨_, _, rfl⟩
  · exact reads.elim

@[simp] theorem dotted_attribute (resource name : String) :
    dotted (.obj [(Function.getAtt.key, .arr [.str resource, .str name])]) =
      .obj [(Function.getAtt.key, .str (resource ++ "." ++ name))] := by
  simp [dotted]

/-- Any other object changes member by member. -/
theorem dotted_obj {members : List (String × Json)} (other : ¬ IsAttribute (.obj members)) :
    dotted (.obj members) = .obj (mapEntries dotted members) := by
  by_cases lone : ∃ key resource name, members = [(key, .arr [.str resource, .str name])]
  · obtain ⟨key, resource, name, rfl⟩ := lone
    have otherKey : key ≠ Function.getAtt.key := other
    simp [dotted, dottedItems, mapEntries, otherKey]
  · rw [dotted, dottedMembers_eq_mapEntries]
    intro key resource name same
    exact lone ⟨key, resource, name, same⟩

theorem exists_dotted_obj (members : List (String × Json)) : ∃ docs, dotted (.obj members) = .obj docs := by
  by_cases reads : IsAttribute (.obj members)
  · obtain ⟨resource, name, same⟩ := reads.eq
    exact ⟨_, same ▸ dotted_attribute resource name⟩
  · exact ⟨_, dotted_obj reads⟩

/-- An object is no attribute where it has a member of another name. -/
theorem not_isAttribute_of_mem {members : List (String × Json)} (name : String) (json : Json)
    (member : (name, json) ∈ members) (other : name ≠ Function.getAtt.key) : ¬ IsAttribute (.obj members) := by
  intro reads
  obtain ⟨resource, attr, same⟩ := reads.eq
  cases same
  cases List.mem_singleton.mp member
  exact other rfl

theorem dotted_eq_str {json : Json} {s : String} (same : json.dotted = .str s) : json = .str s := by
  cases json with
  | obj members =>
    by_cases reads : IsAttribute (.obj members)
    · obtain ⟨resource, name, eq⟩ := reads.eq
      simp [eq] at same
    · simp [dotted_obj reads] at same
  | arr items => simp at same
  | str _ => exact same
  | null | bool _ | num _ => cases same

/-- Nothing changes exactly if there is no attribute to put a dot in. -/
theorem dotted_eq_self_iff (json : Json) : json.dotted = json ↔ Everywhere (fun w => ¬ IsAttribute w) json := by
  induction json using node_induction with
  | step json ih =>
    rw [everywhere_iff]
    cases json with
    | null | bool _ | num _ | str _ => exact iff_of_true rfl ⟨id, fun _ child => child.elim⟩
    | arr items =>
      rw [dotted_arr, arr.injEq, map_eq_self_iff]
      exact (forall₂_congr ih).trans (and_iff_right id).symm
    | obj members =>
      by_cases reads : IsAttribute (.obj members)
      · refine iff_of_false (fun same => ?_) fun none => none.1 reads
        obtain ⟨resource, name, eq⟩ := reads.eq
        simp [eq] at same
      · rw [dotted_obj reads, obj.injEq, mapEntries_eq_self_iff]
        exact (forall₂_congr ih).trans (and_iff_right reads).symm

/-- An object fits if its members do, also after the dots are put. -/
theorem fits_dotted_obj {n : Nat} {members : List (String × Json)} (distinct : (memberNames members).Nodup)
    (below : ∀ w ∈ members.map (·.2), 0 < n ∧ Fits (n - 1) w.dotted) : Fits n (dotted (.obj members)) := by
  by_cases reads : IsAttribute (.obj members)
  · obtain ⟨resource, name, same⟩ := reads.eq
    cases same
    have room := (below _ (List.mem_singleton.mpr rfl)).1
    simp [room]
  · rw [dotted_obj reads, fits_obj, memberNames_mapEntries, values_mapEntries, List.forall_mem_map]
    exact ⟨distinct, below⟩

theorem Fits.dotted {n : Nat} {json : Json} (fits : Fits n json) : Fits n json.dotted := by
  induction json using node_induction generalizing n with
  | step json ih =>
    cases json with
    | null | bool _ | num _ | str _ => exact fits
    | arr items =>
      rw [dotted_arr, fits_arr, List.forall_mem_map]
      intro item member
      obtain ⟨room, below⟩ := fits.child member
      exact ⟨room, ih item member below⟩
    | obj members =>
      refine fits_dotted_obj fits.formed fun w child => ?_
      obtain ⟨room, below⟩ := fits.child child
      exact ⟨room, ih w child below⟩

end StackCompiler.Json
