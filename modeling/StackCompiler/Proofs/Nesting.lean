import Mathlib.Logic.Relation

/-!
Trees whose nodes hold further nodes, seen through the relation of standing right inside.
-/
namespace StackCompiler

variable {α : Type}

/-- What holds of every node holds of the root and of every node of its children. -/
theorem forall_node_iff {child : α → α → Prop} {P : α → Prop} (v : α) :
    (∀ w, Relation.ReflTransGen child w v → P w) ↔
      P v ∧ ∀ w, child w v → ∀ u, Relation.ReflTransGen child u w → P u := by
  constructor
  · intro all
    exact ⟨all v .refl, fun w inner u inside => all u (inside.tail inner)⟩
  · rintro ⟨here, below⟩ u inside
    rcases inside.cases_tail with same | ⟨w, upper, inner⟩
    · exact same ▸ here
    · exact below w inner u upper

theorem sizeOf_lt_of_mem_values {κ : Type} [SizeOf κ] [SizeOf α] {w : α} {members : List (κ × α)}
    (member : w ∈ members.map (·.2)) : sizeOf w < sizeOf members := by
  obtain ⟨⟨name, value⟩, found, rfl⟩ := List.mem_map.mp member
  have smaller := List.sizeOf_lt_of_mem found
  simp only [Prod.mk.sizeOf_spec] at smaller
  show sizeOf value < sizeOf members
  omega

end StackCompiler
