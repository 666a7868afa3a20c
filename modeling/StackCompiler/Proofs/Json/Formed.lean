import StackCompiler.Proofs.Json.Nodes
import StackCompiler.Proofs.Members

/-!
Well-formed documents: those that can come from a text. Their numbers are finite, the
members of each object have distinct names, and they nest to a bounded depth.
-/
namespace StackCompiler

def Number.Finite : Number → Prop
  | .int _ => True
  | .float x => x.isFinite = true

namespace Json

def NodeFormed : Json → Prop
  | .num n => n.Finite
  | .obj members => (memberNames members).Nodup
  | _ => True

/-- A document is well formed and has at most `depth` levels below its own. -/
def Fits : (depth : Nat) → Json → Prop
  | 0, json => NodeFormed json ∧ ∀ w, ¬ Child w json
  | depth + 1, json => NodeFormed json ∧ ∀ w, Child w json → Fits depth w

theorem fits_iff (n : Nat) (json : Json) :
    Fits n json ↔ NodeFormed json ∧ ∀ w, Child w json → 0 < n ∧ Fits (n - 1) w := by
  cases n with
  | zero => simp [Fits]
  | succ n => simp [Fits]

theorem Fits.formed {n : Nat} {json : Json} (fits : Fits n json) : NodeFormed json :=
  ((fits_iff n json).mp fits).1

theorem Fits.child {n : Nat} {w json : Json} (fits : Fits n json) (child : Child w json) : 0 < n ∧ Fits (n - 1) w :=
  ((fits_iff n json).mp fits).2 w child

theorem Fits.mono {n m : Nat} {json : Json} (fits : Fits n json) (le : n ≤ m) : Fits m json := by
  induction json using node_induction generalizing n m with
  | step json ih =>
    refine (fits_iff m json).mpr ⟨fits.formed, fun w child => ?_⟩
    obtain ⟨room, below⟩ := fits.child child
    exact ⟨by omega, ih w child below (by omega)⟩

@[simp] theorem fits_null (n : Nat) : Fits n .null := (fits_iff n _).mpr ⟨trivial, fun _ child => child.elim⟩

@[simp] theorem fits_bool (n : Nat) (b : Bool) : Fits n (.bool b) :=
  (fits_iff n _).mpr ⟨trivial, fun _ child => child.elim⟩

@[simp] theorem fits_num (n : Nat) (x : Number) : Fits n (.num x) ↔ x.Finite := by
  rw [fits_iff]
  exact and_iff_left fun _ child => child.elim

@[simp] theorem fits_str (n : Nat) (s : String) : Fits n (.str s) :=
  (fits_iff n _).mpr ⟨trivial, fun _ child => child.elim⟩

theorem fits_arr (n : Nat) (items : List Json) :
    Fits n (.arr items) ↔ ∀ w ∈ items, 0 < n ∧ Fits (n - 1) w := by
  rw [fits_iff]
  exact and_iff_right trivial

theorem fits_obj (n : Nat) (members : List (String × Json)) :
    Fits n (.obj members) ↔
      (memberNames members).Nodup ∧ ∀ w ∈ members.map (·.2), 0 < n ∧ Fits (n - 1) w :=
  fits_iff n _

@[simp] theorem fits_single (n : Nat) (name : String) (json : Json) :
    Fits n (.obj [(name, json)]) ↔ 0 < n ∧ Fits (n - 1) json := by
  simp [fits_obj, memberNames]

end Json

end StackCompiler
