import Mathlib.Data.List.Basic
import StackCompiler.Proofs.Rust.Nodes

/-!
The references of initialisers, and what making one by name does to them. All that it changes are the
identifiers that references carry (`demoteAll_eq_mapSlots`).
-/
namespace StackCompiler.Rust.Expr

theorem itemReferences_eq_flatMap (items : List Expr) : itemReferences items = items.flatMap directReferences := by
  induction items with
  | nil => rfl
  | cons item rest ih => rw [itemReferences, ih, List.flatMap_cons]

theorem fieldReferences_eq_flatMap (fields : List (String × Expr)) :
    fieldReferences fields = (fields.map (·.2)).flatMap directReferences := by
  induction fields with
  | nil => rfl
  | cons field rest ih => rw [fieldReferences, ih, List.map_cons, List.flatMap_cons]

/-- The references that are left when those through `ident` are made by name. -/
def without (ident : String) (refs : List (String × Bool)) : List (String × Bool) :=
  refs.filter (· != (ident, true))

theorem without_append (ident : String) (refs others : List (String × Bool)) :
    without ident (refs ++ others) = without ident refs ++ without ident others :=
  List.filter_append ..

theorem slot_references (ident : String) (slot : Option String) :
    (cleared ident slot).toList.map (·, true) = without ident (slot.toList.map (·, true)) := by
  cases slot with
  | none => rfl
  | some other => by_cases same : other = ident <;> simp [cleared, without, same]

theorem directReferences_ref (target : String) (slot : Option String) :
    (Expr.ref target slot).directReferences = slot.toList.map (·, true) := by
  cases slot <;> rfl

theorem directReferences_attr (target name : String) (slot : Option String) :
    (Expr.attr target name slot).directReferences = slot.toList.map (·, true) := by
  cases slot <;> rfl

mutual

theorem directReferences_demote (ident : String) :
    (e : Expr) → (e.demote ident).directReferences = without ident e.directReferences
  | .ref target slot => by
    rw [demote, directReferences_ref, directReferences_ref, slot_references]
  | .attr target name slot => by
    rw [demote, directReferences_attr, directReferences_attr, slot_references]
  | .list items => by
    rw [demote, directReferences, directReferences, itemReferences_demoteItems ident items]
  | .call _ args => by
    rw [demote, directReferences, directReferences, itemReferences_demoteItems ident args]
  | .pairs fields => by
    rw [demote, directReferences, directReferences, fieldReferences_demoteFields ident fields]
  | .struct _ fields => by
    rw [demote, directReferences, directReferences, fieldReferences_demoteFields ident fields]
  | .some inner => by
    rw [demote, directReferences, directReferences, directReferences_demote ident inner]
  | .static other => by simp [demote, directReferences, without]
  | .str _ | .literal _ | .json _ => rfl

theorem itemReferences_demoteItems (ident : String) :
    (items : List Expr) → itemReferences (demoteItems ident items) = without ident (itemReferences items)
  | [] => rfl
  | item :: rest => by
    rw [demoteItems, itemReferences, itemReferences, without_append, directReferences_demote ident item,
      itemReferences_demoteItems ident rest]

theorem fieldReferences_demoteFields (ident : String) :
    (fields : List (String × Expr)) → fieldReferences (demoteFields ident fields) = without ident (fieldReferences fields)
  | [] => rfl
  | (_, value) :: rest => by
    rw [demoteFields, fieldReferences, fieldReferences, without_append, directReferences_demote ident value,
      fieldReferences_demoteFields ident rest]

end

/-! ### The identifiers that references carry -/

mutual

/-- Changes the identifier that each reference carries, and nothing else. -/
def mapSlots (f : Option String → Option String) : Expr → Expr
  | .ref target slot => .ref target (f slot)
  | .attr target name slot => .attr target name (f slot)
  | .list items => .list (mapItemSlots f items)
  | .call func args => .call func (mapItemSlots f args)
  | .pairs fields => .pairs (mapFieldSlots f fields)
  | .struct type fields => .struct type (mapFieldSlots f fields)
  | .some inner => .some (inner.mapSlots f)
  | .str s => .str s
  | .literal scalar => .literal scalar
  | .json document => .json document
  | .static ident => .static ident

def mapItemSlots (f : Option String → Option String) : List Expr → List Expr
  | [] => []
  | item :: rest => item.mapSlots f :: mapItemSlots f rest

def mapFieldSlots (f : Option String → Option String) : List (String × Expr) → List (String × Expr)
  | [] => []
  | (name, value) :: rest => (name, value.mapSlots f) :: mapFieldSlots f rest

end

mutual

theorem mapSlots_id : (e : Expr) → e.mapSlots id = e
  | .list items => by rw [mapSlots, mapItemSlots_id items]
  | .call _ args => by rw [mapSlots, mapItemSlots_id args]
  | .pairs fields => by rw [mapSlots, mapFieldSlots_id fields]
  | .struct _ fields => by rw [mapSlots, mapFieldSlots_id fields]
  | .some inner => by rw [mapSlots, mapSlots_id inner]
  | .ref _ _ | .attr _ _ _ | .str _ | .literal _ | .json _ | .static _ => rfl

theorem mapItemSlots_id : (items : List Expr) → mapItemSlots id items = items
  | [] => rfl
  | item :: rest => by rw [mapItemSlots, mapSlots_id item, mapItemSlots_id rest]

theorem mapFieldSlots_id : (fields : List (String × Expr)) → mapFieldSlots id fields = fields
  | [] => rfl
  | (_, value) :: rest => by rw [mapFieldSlots, mapSlots_id value, mapFieldSlots_id rest]

end

theorem mapItemSlots_eq_map (f : Option String → Option String) (items : List Expr) :
    mapItemSlots f items = items.map (mapSlots f) := by
  induction items with
  | nil => rfl
  | cons item rest ih => rw [mapItemSlots, ih, List.map_cons]

theorem mapFieldSlots_eq_map (f : Option String → Option String) (fields : List (String × Expr)) :
    mapFieldSlots f fields = fields.map fun field => (field.1, field.2.mapSlots f) := by
  induction fields with
  | nil => rfl
  | cons field rest ih => rw [mapFieldSlots, ih, List.map_cons]

/-- The nodes after a change of identifiers are the nodes before it, each changed. -/
theorem everywhere_mapSlots (P : Expr → Prop) (f : Option String → Option String) (e : Expr) :
    (e.mapSlots f).Everywhere P ↔ e.Everywhere fun w => P (w.mapSlots f) := by
  induction e using node_induction with
  | step e ih =>
    cases e with
    | list items | call _ items =>
      simp only [mapSlots, mapItemSlots_eq_map, everywhere_list, everywhere_call, List.forall_mem_map]
      exact and_congr_right fun _ => forall₂_congr ih
    | pairs fields | struct _ fields =>
      simp only [mapSlots, mapFieldSlots_eq_map, everywhere_pairs, everywhere_struct, List.map_map, List.forall_mem_map]
      exact and_congr_right fun _ => forall₂_congr fun field member => ih _ (List.mem_map_of_mem member)
    | some inner =>
      rw [mapSlots, everywhere_some, everywhere_some, ih inner rfl, mapSlots]
    | ref _ _ | attr _ _ _ => simp only [mapSlots, everywhere_ref, everywhere_attr]
    | str _ | literal _ | json _ | static _ => simp [mapSlots]

/-- What does not depend on the identifiers of references is true of the same nodes. -/
theorem everywhere_mapSlots_iff {P : Expr → Prop} {f : Option String → Option String}
    (same : ∀ e : Expr, P (e.mapSlots f) ↔ P e) (e : Expr) : (e.mapSlots f).Everywhere P ↔ e.Everywhere P :=
  (everywhere_mapSlots P f e).trans (forall₂_congr fun w _ => same w)

mutual

theorem demote_mapSlots (ident : String) (f : Option String → Option String) :
    (e : Expr) → (e.mapSlots f).demote ident = e.mapSlots (cleared ident ∘ f)
  | .list items => by rw [mapSlots, mapSlots, demote, demoteItems_mapItemSlots ident f items]
  | .call _ args => by rw [mapSlots, mapSlots, demote, demoteItems_mapItemSlots ident f args]
  | .pairs fields => by rw [mapSlots, mapSlots, demote, demoteFields_mapFieldSlots ident f fields]
  | .struct _ fields => by rw [mapSlots, mapSlots, demote, demoteFields_mapFieldSlots ident f fields]
  | .some inner => by rw [mapSlots, mapSlots, demote, demote_mapSlots ident f inner]
  | .ref _ _ | .attr _ _ _ | .str _ | .literal _ | .json _ | .static _ => rfl

theorem demoteItems_mapItemSlots (ident : String) (f : Option String → Option String) :
    (items : List Expr) → demoteItems ident (mapItemSlots f items) = mapItemSlots (cleared ident ∘ f) items
  | [] => rfl
  | item :: rest => by
    rw [mapItemSlots, mapItemSlots, demoteItems, demote_mapSlots ident f item, demoteItems_mapItemSlots ident f rest]

theorem demoteFields_mapFieldSlots (ident : String) (f : Option String → Option String) :
    (fields : List (String × Expr)) → demoteFields ident (mapFieldSlots f fields) = mapFieldSlots (cleared ident ∘ f) fields
  | [] => rfl
  | (_, value) :: rest => by
    rw [mapFieldSlots, mapFieldSlots, demoteFields, demote_mapSlots ident f value, demoteFields_mapFieldSlots ident f rest]

end

/-- Making references through `targets` by name takes these identifiers from the references that carry
    them. -/
theorem demoteAll_eq_mapSlots (targets : List String) (e : Expr) :
    targets.foldl (fun e target => e.demote target) e = e.mapSlots (Option.filter (· ∉ targets)) := by
  have fold (f : Option String → Option String) : targets.foldl (fun e target => e.demote target) (e.mapSlots f) =
      e.mapSlots (Option.filter (· ∉ targets) ∘ f) := by
    induction targets generalizing f with
    | nil => exact congrArg e.mapSlots (funext fun slot => by cases carried : f slot <;> simp [carried, Option.filter_some])
    | cons target rest ih =>
      rw [List.foldl_cons, demote_mapSlots, ih]
      refine congrArg e.mapSlots (funext fun slot => ?_)
      cases carried : f slot with
      | none => simp [cleared, carried]
      | some ident => by_cases same : ident = target <;> simp [cleared, carried, same, Option.filter_some]
  have all := fold id
  rwa [mapSlots_id] at all

end StackCompiler.Rust.Expr
