import StackCompiler.Json.Basic
import StackCompiler.Proofs.Nesting

/-!
The nodes of a document: the document itself and all that stands inside its lists and
objects. Statements about every node are proved from the children up.
-/
namespace StackCompiler.Json

/-- `w` stands right inside a document. -/
def Child (w : Json) : Json → Prop
  | .arr items => w ∈ items
  | .obj members => w ∈ members.map (·.2)
  | _ => False

/-- `w` is a node of `json`. -/
def Occurs (w json : Json) : Prop := Relation.ReflTransGen Child w json

/-- Every node of a document satisfies `P`. -/
def Everywhere (P : Json → Prop) (json : Json) : Prop := ∀ w, Occurs w json → P w

theorem everywhere_iff (P : Json → Prop) (json : Json) :
    Everywhere P json ↔ P json ∧ ∀ w, Child w json → Everywhere P w :=
  forall_node_iff json

theorem child_smaller {w json : Json} (child : Child w json) : sizeOf w < sizeOf json := by
  cases json with
  | arr items =>
    have : sizeOf w < sizeOf items := List.sizeOf_lt_of_mem child
    simp only [arr.sizeOf_spec]
    omega
  | obj members =>
    have := sizeOf_lt_of_mem_values child
    simp only [obj.sizeOf_spec]
    omega
  | null | bool _ | num _ | str _ => exact child.elim

/-- What holds of a document whenever it holds of its children holds of every document. -/
theorem node_induction {P : Json → Prop} (step : ∀ json, (∀ w, Child w json → P w) → P json) (json : Json) : P json :=
  step json fun w _ => node_induction step w
termination_by sizeOf json
decreasing_by exact child_smaller ‹_›

/-- What holds of a document whenever it holds of all nodes below it holds of every document. -/
theorem below_induction {P : Json → Prop}
    (step : ∀ json, (∀ w, Relation.TransGen Child w json → P w) → P json) (json : Json) : P json := by
  have wellFounded : WellFounded Child := Subrelation.wf child_smaller (measure sizeOf).wf
  exact wellFounded.transGen.induction json step

end StackCompiler.Json
