import StackCompiler.Proofs.Nesting
import StackCompiler.Rust.Expr

/-!
The nodes of an initialiser: the initialiser itself and all that stands inside its lists,
calls and fields.
-/
namespace StackCompiler.Rust.Expr

/-- `w` stands right inside an initialiser. -/
def Child (w : Expr) : Expr → Prop
  | .list items => w ∈ items
  | .call _ args => w ∈ args
  | .pairs fields => w ∈ fields.map (·.2)
  | .struct _ fields => w ∈ fields.map (·.2)
  | .some inner => w = inner
  | _ => False

/-- `w` is a node of `e`. -/
def Occurs (w e : Expr) : Prop := Relation.ReflTransGen Child w e

/-- Every node of an initialiser satisfies `P`. -/
def Everywhere (P : Expr → Prop) (e : Expr) : Prop := ∀ w, Occurs w e → P w

theorem child_smaller {w e : Expr} (child : Child w e) : sizeOf w < sizeOf e := by
  cases e with
  | list items | call _ items =>
    have : sizeOf w < sizeOf items := List.sizeOf_lt_of_mem child
    simp only [list.sizeOf_spec, call.sizeOf_spec]
    omega
  | pairs fields | struct _ fields =>
    have : sizeOf w < sizeOf fields := sizeOf_lt_of_mem_values child
    simp only [pairs.sizeOf_spec, struct.sizeOf_spec]
    omega
  | some inner =>
    obtain rfl : w = inner := child
    simp only [some.sizeOf_spec]
    omega
  | str _ | literal _ | json _ | static _ | ref _ _ | attr _ _ _ => exact child.elim

/-- What holds of an initialiser whenever it holds of its children holds of every initialiser. -/
theorem node_induction {P : Expr → Prop} (step : ∀ e, (∀ w, Child w e → P w) → P e) (e : Expr) : P e :=
  step e fun w _ => node_induction step w
termination_by sizeOf e
decreasing_by exact child_smaller ‹_›

variable {P : Expr → Prop}

theorem Everywhere.mono {Q : Expr → Prop} {e : Expr} (everywhere : Everywhere P e) (implies : ∀ w, P w → Q w) :
    Everywhere Q e :=
  fun w occurs => implies w (everywhere w occurs)

theorem everywhere_iff (P : Expr → Prop) (e : Expr) : Everywhere P e ↔ P e ∧ ∀ w, Child w e → Everywhere P w :=
  forall_node_iff e

/-- An initialiser without parts is its only node. -/
theorem everywhere_iff_of_childless {e : Expr} (childless : ∀ w, ¬ Child w e) : Everywhere P e ↔ P e :=
  (everywhere_iff P e).trans (and_iff_left fun w child => absurd child (childless w))

@[simp] theorem everywhere_str (s : String) : Everywhere P (.str s) ↔ P (.str s) :=
  everywhere_iff_of_childless fun _ => id

@[simp] theorem everywhere_literal (scalar : Json) : Everywhere P (.literal scalar) ↔ P (.literal scalar) :=
  everywhere_iff_of_childless fun _ => id

@[simp] theorem everywhere_json (document : Json) : Everywhere P (.json document) ↔ P (.json document) :=
  everywhere_iff_of_childless fun _ => id

@[simp] theorem everywhere_static (ident : String) : Everywhere P (.static ident) ↔ P (.static ident) :=
  everywhere_iff_of_childless fun _ => id

@[simp] theorem everywhere_ref (target : String) (slot : Option String) :
    Everywhere P (.ref target slot) ↔ P (.ref target slot) :=
  everywhere_iff_of_childless fun _ => id

@[simp] theorem everywhere_attr (target name : String) (slot : Option String) :
    Everywhere P (.attr target name slot) ↔ P (.attr target name slot) :=
  everywhere_iff_of_childless fun _ => id

@[simp] theorem everywhere_list (items : List Expr) :
    Everywhere P (.list items) ↔ P (.list items) ∧ ∀ e ∈ items, Everywhere P e :=
  everywhere_iff P _

@[simp] theorem everywhere_call (func : String) (args : List Expr) :
    Everywhere P (.call func args) ↔ P (.call func args) ∧ ∀ e ∈ args, Everywhere P e :=
  everywhere_iff P _

@[simp] theorem everywhere_pairs (fields : List (String × Expr)) :
    Everywhere P (.pairs fields) ↔ P (.pairs fields) ∧ ∀ e ∈ fields.map (·.2), Everywhere P e :=
  everywhere_iff P _

@[simp] theorem everywhere_struct (type : String) (fields : List (String × Expr)) :
    Everywhere P (.struct type fields) ↔ P (.struct type fields) ∧ ∀ e ∈ fields.map (·.2), Everywhere P e :=
  everywhere_iff P _

@[simp] theorem everywhere_some (inner : Expr) : Everywhere P (.some inner) ↔ P (.some inner) ∧ Everywhere P inner := by
  rw [everywhere_iff P (.some inner)]
  exact and_congr_right fun _ => forall_eq

end StackCompiler.Rust.Expr
