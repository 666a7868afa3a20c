import Mathlib.Data.List.Forall2
import StackCompiler.Import.Progress

/-!
What the moves of a run do. No move leads a resource back or out of a final stage
(`Stage.Forward`), so no run does. What becomes of one resource depends on the moves that are made
for it and on those of all resources (`Move.on`).
-/
namespace StackCompiler.Import

/-- The same stage, or a later one after a stage that is not final. -/
def Stage.Forward (before after : Stage) : Prop :=
  after = before ∨ before.isFinal = false ∧ before.rank < after.rank

theorem Stage.moved_forward (current next : Stage) : current.Forward (current.moved next) := by
  unfold moved
  split
  case isTrue => exact .inl rfl
  case isFalse free =>
    rw [Bool.or_eq_true, not_or, Bool.not_eq_true, decide_eq_true_eq, Nat.not_le] at free
    exact .inr free

/-- A move of one resource, or of all that are at a stage. -/
inductive Move where
  | one (name : String) (next : Stage)
  | all (stage next : Stage)

/-- The stage to which a move leads the resource `name`. -/
def Move.on (name : String) (current : Stage) : Move → Stage
  | one other next => if name = other then current.moved next else current
  | all stage next => if current = stage then current.moved next else current

theorem Move.on_forward (name : String) (current : Stage) (move : Move) : current.Forward (move.on name current) := by
  cases move with
  | one other next =>
    rw [Move.on]
    split
    · exact current.moved_forward next
    · exact .inl rfl
  | all stage next =>
    rw [Move.on]
    split
    · exact current.moved_forward next
    · exact .inl rfl

namespace Progress

def apply (p : Progress) : Move → Progress
  | .one name next => p.advance name next
  | .all stage next => p.advanceAll stage next

theorem apply_stages (p : Progress) (move : Move) :
    (p.apply move).stages = p.stages.map fun e => (e.1, move.on e.1 e.2) := by
  cases move <;> refine List.map_congr_left fun e _ => ?_ <;> dsimp only [Move.on] <;> split <;> rfl

/-- Every resource is where it was or further. -/
def Forward (before after : Progress) : Prop :=
  List.Forall₂ (fun e f => f.1 = e.1 ∧ e.2.Forward f.2) before.stages after.stages

theorem apply_forward (p : Progress) (move : Move) : p.Forward (p.apply move) := by
  rw [Forward, apply_stages, List.forall₂_map_right_iff, List.forall₂_same]
  exact fun e _ => ⟨rfl, move.on_forward e.1 e.2⟩

/-- How far resources are before the first of some moves, and after each of them. -/
def history (p : Progress) : List Move → List Progress
  | [] => [p]
  | move :: rest => p :: (p.apply move).history rest

theorem history_forward (p : Progress) (moves : List Move) : (p.history moves).IsChain Forward := by
  induction moves generalizing p with
  | nil => exact .singleton p
  | cons move rest ih =>
    have later := ih (p.apply move)
    have step := p.apply_forward move
    cases rest <;> exact .cons_cons step later

theorem getLast?_history (p : Progress) (moves : List Move) :
    (p.history moves).getLast? = some (moves.foldl apply p) := by
  induction moves generalizing p with
  | nil => rfl
  | cons move rest ih =>
    rw [history, List.getLast?_cons, ih]
    rfl

theorem foldl_apply_stages (p : Progress) (moves : List Move) :
    (moves.foldl apply p).stages = p.stages.map fun e => (e.1, moves.foldl (Move.on e.1) e.2) := by
  induction moves generalizing p with
  | nil => simp
  | cons move rest ih => simp [ih, apply_stages]

end Progress

end StackCompiler.Import
