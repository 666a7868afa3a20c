import Mathlib.Data.List.Nodup
import Mathlib.Data.List.Perm.Subperm
import StackCompiler.Members

/-!
Members that are collected one after the other have distinct names, and each is one of
those that were put in. Members with distinct names are collected as they stand.
-/
namespace StackCompiler

variable {α : Type}

theorem hasMember_iff (name : String) (members : List (String × α)) :
    hasMember name members = true ↔ name ∈ memberNames members := by
  simp [hasMember, memberNames]

theorem putMember_of_absent {name : String} {members : List (String × α)} (absent : name ∉ memberNames members)
    (value : α) : putMember name value members = members ++ [(name, value)] := by
  induction members with
  | nil => rfl
  | cons member rest ih =>
    rw [memberNames, List.map_cons, List.mem_cons, not_or] at absent
    rw [putMember, if_neg (Ne.symm absent.1), ih absent.2, List.cons_append]

theorem memberNames_putMember_of_present {name : String} {members : List (String × α)}
    (present : name ∈ memberNames members) (value : α) :
    memberNames (putMember name value members) = memberNames members := by
  induction members with
  | nil => cases present
  | cons member rest ih =>
    rw [putMember]
    split
    · rename_i same
      exact congrArg (· :: memberNames rest) same.symm
    · rename_i different
      exact congrArg (member.1 :: ·) (ih (List.mem_of_ne_of_mem (Ne.symm different) present))

theorem nodup_putMember {members : List (String × α)} (distinct : (memberNames members).Nodup) (name : String)
    (value : α) : (memberNames (putMember name value members)).Nodup := by
  by_cases present : name ∈ memberNames members
  · rw [memberNames_putMember_of_present present]
    exact distinct
  · rw [putMember_of_absent present, memberNames, List.map_append]
    exact List.concat_eq_append ▸ List.Nodup.concat present distinct

theorem mem_putMember {name : String} {value : α} {members : List (String × α)} {e : String × α}
    (member : e ∈ putMember name value members) : e = (name, value) ∨ e ∈ members := by
  induction members with
  | nil => exact .inl (List.mem_singleton.mp member)
  | cons other rest ih =>
    rw [putMember] at member
    split at member
    · rcases List.mem_cons.mp member with rfl | member
      · exact .inl rfl
      · exact .inr (List.mem_cons_of_mem _ member)
    · rcases List.mem_cons.mp member with rfl | member
      · exact .inr List.mem_cons_self
      · exact (ih member).imp id (List.mem_cons_of_mem _)

/-- What holds of collected members, after each of `entries` is put to those that are there. -/
theorem putEach_induction {P : List (String × α) → Prop} {entries start : List (String × α)} (before : P start)
    (step : ∀ e ∈ entries, ∀ members, P members → P (putMember e.1 e.2 members)) :
    P (entries.foldl (fun members (name, value) => putMember name value members) start) := by
  induction entries generalizing start with
  | nil => exact before
  | cons e rest ih =>
    rw [List.forall_mem_cons] at step
    exact ih (step.1 start before) step.2

theorem nodup_collectMembers (entries : List (String × α)) : (memberNames (collectMembers entries)).Nodup :=
  putEach_induction (P := fun members => (memberNames members).Nodup) List.nodup_nil
    fun e _ _ distinct => nodup_putMember distinct e.1 e.2

theorem mem_collectMembers {entries : List (String × α)} : ∀ e ∈ collectMembers entries, e ∈ entries :=
  putEach_induction (P := fun members => ∀ e ∈ members, e ∈ entries) (fun _ member => by cases member)
    fun e inside members kept other member => by
      rcases mem_putMember member with rfl | member
      · exact inside
      · exact kept other member

theorem collectMembers_of_nodup {entries : List (String × α)} (distinct : (memberNames entries).Nodup) :
    collectMembers entries = entries := by
  have collected (start : List (String × α)) (distinct : (memberNames (start ++ entries)).Nodup) :
      entries.foldl (fun members (name, value) => putMember name value members) start = start ++ entries := by
    clear * - distinct
    induction entries generalizing start with
    | nil => simp
    | cons e rest ih =>
      obtain ⟨name, value⟩ := e
      have absent : name ∉ memberNames start := by
        intro member
        rw [memberNames, List.map_append, List.nodup_append] at distinct
        exact distinct.2.2 name member name (by simp) rfl
      have put := putMember_of_absent absent value
      simp only [List.foldl_cons, put]
      rw [ih, List.append_assoc, List.singleton_append]
      simpa using distinct
  exact collected [] distinct

/-- There are as many collected members as entries exactly where no name is repeated. -/
theorem length_collectMembers_eq_iff (entries : List (String × α)) :
    (collectMembers entries).length = entries.length ↔ (memberNames entries).Nodup := by
  constructor
  · intro same
    have names : memberNames (collectMembers entries) ⊆ memberNames entries := List.map_subset _ mem_collectMembers
    have long : (memberNames entries).length ≤ (memberNames (collectMembers entries)).length := by
      simp [memberNames, same]
    have all := ((nodup_collectMembers entries).subperm names).perm_of_length_le long
    exact all.nodup_iff.mp (nodup_collectMembers entries)
  · intro distinct
    rw [collectMembers_of_nodup distinct]

section Lookup

variable {κ : Type} [BEq κ] [LawfulBEq κ] {key : κ} {value : α} {entries : List (κ × α)}

theorem mem_of_lookup (found : entries.lookup key = some value) : (key, value) ∈ entries := by
  obtain ⟨before, after, rfl, -⟩ := List.lookup_eq_some_iff.mp found
  simp

theorem lookup_of_mem (distinct : (entries.map (·.1)).Nodup) (member : (key, value) ∈ entries) :
    entries.lookup key = some value := by
  obtain ⟨before, after, rfl⟩ := List.append_of_mem member
  refine List.lookup_eq_some_iff.mpr ⟨before, after, rfl, fun e earlier => ?_⟩
  rw [List.map_append, List.map_cons, List.nodup_append] at distinct
  simpa using (distinct.2.2 e.1 (List.mem_map_of_mem earlier) key List.mem_cons_self).symm

end Lookup

/-! ### Other values under the same names -/

variable {β : Type}

theorem map_eq_self_iff (f : α → α) (items : List α) : items.map f = items ↔ ∀ a ∈ items, f a = a := by
  induction items with
  | nil => simp
  | cons item rest ih => rw [List.map_cons, List.cons.injEq, List.forall_mem_cons, ih]

/-- Members under their names, each changed by `f`. -/
def mapEntries (f : α → β) (entries : List (String × α)) : List (String × β) :=
  entries.map fun e => (e.1, f e.2)

@[simp] theorem memberNames_mapEntries (f : α → β) (entries : List (String × α)) :
    memberNames (mapEntries f entries) = memberNames entries := by
  simp [memberNames, mapEntries]

@[simp] theorem values_mapEntries (f : α → β) (entries : List (String × α)) :
    (mapEntries f entries).map (·.2) = (entries.map (·.2)).map f := by
  simp [mapEntries]

theorem mapEntries_congr {f g : α → β} {entries : List (String × α)} (same : ∀ e ∈ entries, f e.2 = g e.2) :
    mapEntries f entries = mapEntries g entries :=
  List.map_congr_left fun e member => congrArg (e.1, ·) (same e member)

theorem mapEntries_eq_self_iff (f : α → α) (entries : List (String × α)) :
    mapEntries f entries = entries ↔ ∀ a ∈ entries.map (·.2), f a = a := by
  rw [mapEntries, map_eq_self_iff, List.forall_mem_map]
  exact forall₂_congr fun e _ => ⟨congrArg Prod.snd, congrArg (e.1, ·)⟩

theorem hasMember_mapEntries (f : α → β) (name : String) (entries : List (String × α)) :
    hasMember name (mapEntries f entries) = hasMember name entries := by
  simp [hasMember, mapEntries, List.any_map, Function.comp_def]

end StackCompiler
