import Mathlib.Algebra.Order.Field.Power
import Mathlib.Order.Monotone.Basic
import Mathlib.Tactic.FieldSimp
import Mathlib.Tactic.Linarith
import Mathlib.Tactic.Positivity
import Mathlib.Tactic.Ring
import StackCompiler.Number.Decimal

/-!
The reals that round to a double-precision number. They lie between the midpoints to the numbers
before and after it (`neighbourhood_low`, `neighbourhood_high`), and a midpoint belongs to the even
one of the two. So no real rounds to two numbers (`magnitude_eq_of_holds`).
-/
namespace StackCompiler

theorem twoPow_succ (k : Nat) : twoPow (k + 1) = 2 * twoPow k := Nat.pow_succ'

theorem twoPow_pos (k : Nat) : 0 < twoPow k := Nat.pow_pos (by decide)

/-- The numbers of a binade, for the arithmetic of magnitudes. -/
theorem twoPow_52 : twoPow 52 = 4503599627370496 := rfl

namespace Binary64

/-! ### Sizes of magnitudes -/

/-- How far a magnitude is from the next one, over `2 ^ 1074`. -/
def gap (m : Nat) : Nat := twoPow (m / twoPow 52 - 1)

/-- The number with a magnitude, over `2 ^ 1074`. -/
def size (m : Nat) : Nat :=
  if m / twoPow 52 = 0 then m % twoPow 52 else (twoPow 52 + m % twoPow 52) * gap m

theorem gap_pos (m : Nat) : 0 < gap m := twoPow_pos _

theorem scale_eq (x : Binary64) : twoPow x.decompose.scale = gap x.magnitude := by
  rw [decompose, gap]
  split
  · rename_i first
    rw [first]
  · rfl

theorem significand_eq (x : Binary64) : x.decompose.significand * gap x.magnitude = size x.magnitude := by
  rw [decompose, size]
  split
  · rename_i first
    rw [gap, first]
    exact Nat.mul_one _
  · rfl

/-- Stepping to the next magnitude stays in its binade or begins the next one. -/
theorem magnitude_succ (m : Nat) : (m + 1) / twoPow 52 = m / twoPow 52 ∧ (m + 1) % twoPow 52 = m % twoPow 52 + 1 ∨
    (m + 1) / twoPow 52 = m / twoPow 52 + 1 ∧ (m + 1) % twoPow 52 = 0 ∧ m % twoPow 52 + 1 = twoPow 52 := by
  rw [twoPow_52]
  omega

theorem gap_within {m : Nat} (same : (m + 1) / twoPow 52 = m / twoPow 52) : gap (m + 1) = gap m := by
  rw [gap, same, gap]

/-- Where a binade begins, the gap doubles, but not at the first two. -/
theorem gap_begins {m : Nat} (begins : (m + 1) / twoPow 52 = m / twoPow 52 + 1) :
    gap (m + 1) = if m / twoPow 52 = 0 then gap m else 2 * gap m := by
  rw [gap, begins, gap]
  split
  · rename_i first
    rw [first]
  · rename_i later
    rw [← twoPow_succ, Nat.add_sub_cancel, Nat.sub_add_cancel (Nat.pos_of_ne_zero later)]

theorem size_succ (m : Nat) : size (m + 1) = size m + gap m := by
  rcases magnitude_succ m with ⟨same, next⟩ | ⟨begins, zero, full⟩
  · rw [size, size, same, next, gap_within same]
    split
    · rename_i first
      rw [gap, first]
      rfl
    · rw [← Nat.add_assoc, Nat.succ_mul]
  · have beyond : (m + 1) / twoPow 52 ≠ 0 := begins ▸ Nat.succ_ne_zero _
    rw [size, size, if_neg beyond, zero, gap_begins begins, Nat.add_zero]
    split
    · rename_i first
      have one : gap m = 1 := by rw [gap, first]; rfl
      rw [one, Nat.mul_one, full]
    · calc twoPow 52 * (2 * gap m) = (twoPow 52 + twoPow 52) * gap m := by ring
        _ = (twoPow 52 + (m % twoPow 52 + 1)) * gap m := by rw [full]
        _ = (twoPow 52 + m % twoPow 52) * gap m + gap m := by ring

theorem size_strictMono : StrictMono size :=
  strictMono_nat_of_lt_succ fun m => size_succ m ▸ Nat.lt_add_of_pos_right (gap_pos m)

end Binary64

namespace Decimal

open Binary64

variable {x : Binary64} {m : Nat}

theorem neighbourhood_mid (here : x.magnitude = m) : (neighbourhood x).mid = 4 * size m := by
  subst here
  rw [← significand_eq, ← scale_eq, ← Nat.mul_assoc]
  rfl

theorem neighbourhood_high (here : x.magnitude = m) : (neighbourhood x).high = 2 * (size m + size (m + 1)) := by
  have high : (neighbourhood x).high = (neighbourhood x).mid + 2 * twoPow x.decompose.scale := rfl
  rw [high, neighbourhood_mid here, scale_eq, here, size_succ]
  ring

/-- Below the first number of a binade the gap is half of what it is above. -/
theorem below_eq (here : x.magnitude = m + 1) :
    (if x.decompose.significand = twoPow 52 && x.decompose.scale != 0 then gap (m + 1) else 2 * gap (m + 1)) =
      2 * gap m := by
  rw [decompose, here]
  rcases magnitude_succ m with ⟨same, next⟩ | ⟨begins, zero, -⟩
  · rw [gap_within same, next]
    split <;> simp
  · rw [gap_begins begins, zero, begins, if_neg (Nat.succ_ne_zero _)]
    by_cases first : m / twoPow 52 = 0 <;> simp [first]

/-- Half the way down to the number before it. -/
theorem neighbourhood_low (here : x.magnitude = m + 1) : (neighbourhood x).low = 2 * (size m + size (m + 1)) := by
  have low : (neighbourhood x).low = (neighbourhood x).mid -
      if x.decompose.significand = twoPow 52 && x.decompose.scale != 0 then twoPow x.decompose.scale
      else 2 * twoPow x.decompose.scale := rfl
  rw [low, scale_eq, here, below_eq here, neighbourhood_mid here, size_succ]
  omega

theorem neighbourhood_closed (here : x.magnitude = m) : (neighbourhood x).closed = true ↔ m % 2 = 0 := by
  have closed : (neighbourhood x).closed = decide (x.decompose.significand % 2 = 0) := rfl
  rw [closed, decide_eq_true_iff, decompose, here, twoPow_52]
  split <;> dsimp only <;> omega

/-! ### Rounding -/

/-- The number that a numeral names. -/
def value (d : Decimal) : ℚ := d.digits * 10 ^ d.exponent

namespace Neighbourhood

/-- Whether a number rounds to the one in the middle. -/
def Holds (n : Neighbourhood) (q : ℚ) : Prop :=
  if n.closed then n.low ≤ q * unit ∧ q * unit ≤ n.high else n.low < q * unit ∧ q * unit < n.high

variable {n : Neighbourhood} {q : ℚ}

theorem Holds.between (holds : n.Holds q) : n.low ≤ q * unit ∧ q * unit ≤ n.high := by
  unfold Holds at holds
  split at holds
  · exact holds
  · exact holds.imp le_of_lt le_of_lt

/-- Only even numbers hold the ends. -/
theorem Holds.closed (holds : n.Holds q) (ends : q * unit = n.low ∨ q * unit = n.high) : n.closed = true := by
  by_contra opened
  rw [Holds, if_neg opened] at holds
  rcases ends with low | high
  · exact holds.1.ne' low
  · exact holds.2.ne high

end Neighbourhood

variable {y : Binary64} {q : ℚ}

/-- The lesser of two numbers holds nothing that the greater holds: where they meet, one of them is odd. -/
theorem not_holds_of_lt (less : x.magnitude < y.magnitude) (holds : (neighbourhood x).Holds q) :
    ¬ (neighbourhood y).Holds q := by
  intro also
  obtain ⟨k, there⟩ := Nat.exists_eq_succ_of_ne_zero (Nat.ne_zero_of_lt less)
  have high := neighbourhood_high (x := x) rfl
  have low := neighbourhood_low there
  have ends : (neighbourhood y).low ≤ (neighbourhood x).high := by
    exact_mod_cast also.between.1.trans holds.between.2
  have next : k = x.magnitude := by
    refine Nat.le_antisymm (Nat.le_of_not_lt fun later => ?_) (Nat.le_of_lt_succ (there ▸ less))
    have first := size_strictMono later
    have second : size (x.magnitude + 1) < size (k + 1) := size_strictMono (Nat.succ_lt_succ later)
    omega
  subst next
  have midpoint : q * unit = (neighbourhood x).high :=
    le_antisymm holds.between.2 (high.trans low.symm ▸ also.between.1)
  have even := (neighbourhood_closed rfl).mp (holds.closed (.inr midpoint))
  have evenToo := (neighbourhood_closed there).mp (also.closed (.inl (by rw [midpoint, high, low])))
  omega

theorem magnitude_eq_of_holds (holds : (neighbourhood x).Holds q) (also : (neighbourhood y).Holds q) :
    x.magnitude = y.magnitude := by
  rcases Nat.lt_trichotomy x.magnitude y.magnitude with less | same | greater
  · exact absurd also (not_holds_of_lt less holds)
  · exact same
  · exact absurd holds (not_holds_of_lt greater also)

end Decimal

end StackCompiler
