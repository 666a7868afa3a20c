import StackCompiler.Proofs.Value.Parts
import StackCompiler.Value.Walk

/-!
A walk through a value: the value itself, and then its parts one after the other
(`walk_eq`).
-/
namespace StackCompiler.Value

theorem walkItems_eq (base : FieldPath) (start : Nat) (items : List Value) :
    walkItems base start items = (itemParts start items).flatMap fun part => walk (base.join ⟨part.1⟩) part.2 := by
  induction items generalizing start with
  | nil => rfl
  | cons item rest ih =>
    rw [walkItems, ih]
    rfl

theorem walkMembers_eq (base : FieldPath) (members : List (String × Value)) :
    walkMembers base members = (memberParts members).flatMap fun part => walk (base.join ⟨part.1⟩) part.2 := by
  induction members with
  | nil => rfl
  | cons member rest ih =>
    rw [walkMembers, ih]
    rfl

theorem flatMap_under {α : Type} (f : FieldPath → Value → List α) (base : FieldPath) (field : String) (parts : List (List Segment × Value)) :
    (parts.map (under field)).flatMap (fun part => f (base.join ⟨part.1⟩) part.2) =
      parts.flatMap fun part => f ((base.key field).join ⟨part.1⟩) part.2 := by
  simp [List.flatMap_map, under, FieldPath.join_cons]

theorem walkArgs_eq (base : FieldPath) (call : Intrinsic Value) :
    walkArgs base call = call.args.flatMap fun part => walk (base.join ⟨part.1⟩) part.2 := by
  cases call with
  | and items | or items => rw [walkArgs, walkItems_eq, Intrinsic.args, indexed_eq_map_under, flatMap_under]
  | sub _ members | transform _ members => rw [walkArgs, walkMembers_eq, Intrinsic.args, keyed_eq_map_under, flatMap_under]
  | _ => simp [walkArgs, Intrinsic.args, FieldPath.join, FieldPath.key]

/-- A walk comes to a value first, and then to its parts one after the other. -/
theorem walk_eq (base : FieldPath) (v : Value) :
    v.walk base = (base, v) :: v.parts.flatMap fun part => part.2.walk (base.join ⟨part.1⟩) := by
  cases v with
  | arr items => rw [walk, walkItems_eq, parts]
  | obj members => rw [walk, walkMembers_eq, parts]
  | fn call => rw [walk, walkArgs_eq, parts]
  | _ => rfl

end StackCompiler.Value
