import StackCompiler.Proofs.Nesting
import StackCompiler.Value.Basic

/-!
The nodes of a value. One value stands right inside another as an item, a member or an
argument of a call (`Child`), and anywhere inside it by finitely many such steps
(`Occurs`). Statements about every node are proved from the children up
(`node_induction`, `everywhere_iff`).
-/
namespace StackCompiler

/-- The arguments of a call that are values. -/
def Intrinsic.argValues {α : Type} (call : Intrinsic α) : List α := call.args.map (·.2)

@[simp] theorem Intrinsic.indexed_values {α : Type} (field : String) (start : Nat) (items : List α) :
    (Intrinsic.indexed field start items).map (·.2) = items := by
  induction items generalizing start with
  | nil => rfl
  | cons item rest ih => simp [Intrinsic.indexed, ih]

@[simp] theorem Intrinsic.keyed_values {α : Type} (field : String) (members : List (String × α)) :
    (Intrinsic.keyed field members).map (·.2) = members.map (·.2) := by
  simp [Intrinsic.keyed]

namespace Value

theorem asFn?_eq_some {v : Value} {call : Intrinsic Value} (found : v.asFn? = some call) : v = .fn call := by
  cases v <;> simp_all [asFn?]

/-- `w` stands right inside a value. -/
def Child (w : Value) : Value → Prop
  | .arr items => w ∈ items
  | .obj members => w ∈ members.map (·.2)
  | .fn call => w ∈ call.argValues
  | _ => False

/-- `w` is a node of `v`: the value itself or a node of one of its children. -/
def Occurs (w v : Value) : Prop := Relation.ReflTransGen Child w v

/-- Every node of a value satisfies `P`. -/
def Everywhere (P : Value → Prop) (v : Value) : Prop := ∀ w, Occurs w v → P w

theorem everywhere_iff (P : Value → Prop) (v : Value) :
    Everywhere P v ↔ P v ∧ ∀ w, Child w v → Everywhere P w :=
  forall_node_iff v

/-- The children of a choice are its branches. -/
theorem forall_child_cond {P : Value → Prop} (condition : String) (ifTrue ifFalse : Value) :
    (∀ w, Child w (.fn (.cond condition ifTrue ifFalse)) → P w) ↔ P ifTrue ∧ P ifFalse := by
  simp [Child, Intrinsic.argValues, Intrinsic.args]

/-! ### Induction from the children up -/

private theorem arg_smaller {w : Value} {call : Intrinsic Value} (member : w ∈ call.argValues) :
    sizeOf w < sizeOf call := by
  unfold Intrinsic.argValues at member
  cases call with
  | sub template bindings =>
    rw [Intrinsic.args, Intrinsic.keyed_values] at member
    have := sizeOf_lt_of_mem_values member
    simp only [Intrinsic.sub.sizeOf_spec]
    omega
  | transform name parameters =>
    rw [Intrinsic.args, Intrinsic.keyed_values] at member
    have := sizeOf_lt_of_mem_values member
    simp only [Intrinsic.transform.sizeOf_spec]
    omega
  | and conditions =>
    rw [Intrinsic.args, Intrinsic.indexed_values] at member
    have := List.sizeOf_lt_of_mem member
    simp only [Intrinsic.and.sizeOf_spec]
    omega
  | or conditions =>
    rw [Intrinsic.args, Intrinsic.indexed_values] at member
    have := List.sizeOf_lt_of_mem member
    simp only [Intrinsic.or.sizeOf_spec]
    omega
  | ref _ | getAtt _ | condition _ | verbatim _ _ => simp [Intrinsic.args] at member
  | _ =>
    simp only [Intrinsic.args, List.map_cons, List.map_nil, List.mem_cons, List.not_mem_nil, or_false] at member
    grind

theorem child_smaller {w v : Value} (child : Child w v) : sizeOf w < sizeOf v := by
  cases v with
  | arr items =>
    have : sizeOf w < sizeOf items := List.sizeOf_lt_of_mem child
    simp only [arr.sizeOf_spec]
    omega
  | obj members =>
    have := sizeOf_lt_of_mem_values child
    simp only [obj.sizeOf_spec]
    omega
  | fn call =>
    have := arg_smaller child
    simp only [fn.sizeOf_spec]
    omega
  | null | bool _ | num _ | str _ => exact child.elim

/-- What holds of a value whenever it holds of its children holds of every value. -/
theorem node_induction {P : Value → Prop} (step : ∀ v, (∀ w, Child w v → P w) → P v) (v : Value) : P v :=
  step v fun w _ => node_induction step w
termination_by sizeOf v
decreasing_by exact child_smaller ‹_›

/-! ### Calls inside calls -/

mutual

/-- The most calls of a value that stand inside one another. What a call keeps as it was written
    holds none. -/
def callDepth : Value → Nat
  | .arr items => itemsCallDepth items
  | .obj members => membersCallDepth members
  | .fn call => argsCallDepth call + 1
  | .null | .bool _ | .num _ | .str _ => 0

def itemsCallDepth : List Value → Nat
  | [] => 0
  | item :: rest => max (callDepth item) (itemsCallDepth rest)

def membersCallDepth : List (String × Value) → Nat
  | [] => 0
  | (_, value) :: rest => max (callDepth value) (membersCallDepth rest)

def argsCallDepth : Intrinsic Value → Nat
  | .ref _ | .getAtt _ | .condition _ | .verbatim _ _ => 0
  | .sub _ bindings => membersCallDepth bindings
  | .transform _ parameters => membersCallDepth parameters
  | .and conditions => itemsCallDepth conditions
  | .or conditions => itemsCallDepth conditions
  | .join _ a | .not a | .split _ a | .base64 a | .importValue a | .getAZs a => callDepth a
  | .select a b | .cond _ a b | .equals a b => max (callDepth a) (callDepth b)
  | .cidr a b c | .findInMap a b c => max (callDepth a) (max (callDepth b) (callDepth c))

end

theorem itemsCallDepth_le_iff (items : List Value) (n : Nat) :
    itemsCallDepth items ≤ n ↔ ∀ w ∈ items, callDepth w ≤ n := by
  induction items with
  | nil => simp [itemsCallDepth]
  | cons item rest ih => simp only [itemsCallDepth, Nat.max_le, ih, List.forall_mem_cons]

theorem membersCallDepth_le_iff (members : List (String × Value)) (n : Nat) :
    membersCallDepth members ≤ n ↔ ∀ w ∈ members.map (·.2), callDepth w ≤ n := by
  induction members with
  | nil => simp [membersCallDepth]
  | cons member rest ih => simp only [membersCallDepth, Nat.max_le, ih, List.map_cons, List.forall_mem_cons]

theorem argsCallDepth_le_iff (call : Intrinsic Value) (n : Nat) :
    argsCallDepth call ≤ n ↔ ∀ w ∈ call.argValues, callDepth w ≤ n := by
  unfold Intrinsic.argValues
  cases call with
  | ref _ | getAtt _ | condition _ | verbatim _ _ => simp [argsCallDepth, Intrinsic.args]
  | sub _ _ | transform _ _ => rw [argsCallDepth, membersCallDepth_le_iff, Intrinsic.args, Intrinsic.keyed_values]
  | and _ | or _ => rw [argsCallDepth, itemsCallDepth_le_iff, Intrinsic.args, Intrinsic.indexed_values]
  | _ =>
    simp only [argsCallDepth, Nat.max_le, Intrinsic.args, List.map_cons, List.map_nil, List.forall_mem_cons,
      List.not_mem_nil, false_implies, implies_true, and_true]

/-- A value that is no call nests calls as deep as its children do. -/
theorem callDepth_le_iff_of_plain {v : Value} (plain : v.asFn? = none) (n : Nat) :
    callDepth v ≤ n ↔ ∀ w, Child w v → callDepth w ≤ n := by
  cases v with
  | arr items => exact itemsCallDepth_le_iff items n
  | obj members => exact membersCallDepth_le_iff members n
  | fn call => simp [asFn?] at plain
  | _ => simp [callDepth, Child]

/-- A call nests one call more than its arguments do. -/
theorem callDepth_fn_le_iff (call : Intrinsic Value) (n : Nat) :
    callDepth (.fn call) ≤ n ↔ 0 < n ∧ ∀ w, Child w (.fn call) → callDepth w ≤ n - 1 := by
  have step : callDepth (.fn call) ≤ n ↔ 0 < n ∧ argsCallDepth call ≤ n - 1 := by
    rw [callDepth]
    omega
  rw [step, argsCallDepth_le_iff]
  rfl

end Value

end StackCompiler
