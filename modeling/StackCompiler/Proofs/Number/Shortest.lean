import StackCompiler.Proofs.Number.Neighbourhood

/-!
The shortest numeral of a number rounds to the number (`shortest_holds`): on the grid of seventeen
digits a step is less than the neighbourhood is wide, so that one of the two grid points next to the
number is inside it. Hence the numeral tells the number (`magnitude_eq_of_value`).
-/
namespace StackCompiler.Decimal

open Binary64

/-! ### Comparing with multiples of powers of ten -/

theorem cast_tenPow (k : Nat) : ((tenPow k : Nat) : ℚ) = 10 ^ (k : ℤ) := by
  rw [zpow_natCast]
  exact_mod_cast rfl

theorem unit_pos : 0 < unit := twoPow_pos 1076

theorem scaled_den (v w : Nat) (e : Int) : (scaled v e).2 = (scaled w e).2 := by
  cases e <;> rfl

theorem scaled_den_pos (v : Nat) (e : Int) : 0 < (scaled v e).2 := by
  cases e with
  | ofNat k =>
    rw [scaled]
    exact Nat.mul_pos unit_pos (Nat.pow_pos (by decide))
  | negSucc k =>
    rw [scaled]
    dsimp only
    exact unit_pos

/-- The fraction is the value over the unit and the power of ten. -/
theorem scaled_eq (v : Nat) (e : Int) : ((scaled v e).1 : ℚ) * (10 ^ e * unit) = v * (scaled v e).2 := by
  cases e with
  | ofNat k =>
    rw [scaled, Nat.cast_mul, cast_tenPow, Int.ofNat_eq_natCast]
    ring
  | negSucc k =>
    rw [scaled, Nat.cast_mul, cast_tenPow, Int.negSucc_eq, zpow_neg]
    have power : (10 : ℚ) ^ ((k + 1 : Nat) : ℤ) ≠ 0 := zpow_ne_zero _ (by norm_num)
    rw [Nat.cast_succ] at power ⊢
    rw [← mul_assoc, mul_inv_cancel_right₀ power]

section Compare

variable (v d : Nat) (e : Int)

theorem grid_pos : (0 : ℚ) < 10 ^ e * unit :=
  mul_pos (zpow_pos (by norm_num) e) (Nat.cast_pos.mpr unit_pos)

theorem mul_den_eq : (d : ℚ) * (scaled v e).2 * (10 ^ e * unit) = d * 10 ^ e * unit * (scaled v e).2 := by
  ring

theorem scaled_le_iff : (scaled v e).1 ≤ d * (scaled v e).2 ↔ (v : ℚ) ≤ d * 10 ^ e * unit := by
  have den : (0 : ℚ) < (scaled v e).2 := Nat.cast_pos.mpr (scaled_den_pos v e)
  rw [← Nat.cast_le (α := ℚ), Nat.cast_mul, ← mul_le_mul_iff_of_pos_right (grid_pos e), scaled_eq, mul_den_eq,
    mul_le_mul_iff_of_pos_right den]

theorem le_scaled_iff : d * (scaled v e).2 ≤ (scaled v e).1 ↔ (d : ℚ) * 10 ^ e * unit ≤ v := by
  have den : (0 : ℚ) < (scaled v e).2 := Nat.cast_pos.mpr (scaled_den_pos v e)
  rw [← Nat.cast_le (α := ℚ), Nat.cast_mul, ← mul_le_mul_iff_of_pos_right (grid_pos e), scaled_eq, mul_den_eq,
    mul_le_mul_iff_of_pos_right den]

theorem scaled_lt_iff : (scaled v e).1 < d * (scaled v e).2 ↔ (v : ℚ) < d * 10 ^ e * unit := by
  rw [← not_le, le_scaled_iff, not_le]

theorem lt_scaled_iff : d * (scaled v e).2 < (scaled v e).1 ↔ (d : ℚ) * 10 ^ e * unit < v := by
  rw [← not_le, scaled_le_iff, not_le]

end Compare

theorem readsBack_iff (n : Neighbourhood) (d : Nat) (e : Int) : readsBack n d e = true ↔ n.Holds (d * 10 ^ e) := by
  have den := scaled_den n.low n.high e
  rw [readsBack, Neighbourhood.Holds]
  dsimp only
  split
  · rw [Bool.and_eq_true, decide_eq_true_iff, decide_eq_true_iff, scaled_le_iff, den, le_scaled_iff]
  · rw [Bool.and_eq_true, decide_eq_true_iff, decide_eq_true_iff, scaled_lt_iff, den, lt_scaled_iff]

/-! ### The number of digits before the point -/

theorem tenPow_le_twoPow : tenPow 1233 ≤ twoPow 4096 := by decide +kernel

theorem twoPow_le_tenPow : twoPow 4096 ≤ tenPow 1234 := by decide +kernel

theorem cast_twoPow (k : Nat) : ((twoPow k : Nat) : ℚ) = 2 ^ (k : ℤ) := by
  rw [zpow_natCast]
  exact_mod_cast rfl

theorem ten_zpow_le : (10 : ℚ) ^ (1233 : ℤ) ≤ 2 ^ (4096 : ℤ) := by
  have cast : ((tenPow 1233 : Nat) : ℚ) ≤ (twoPow 4096 : Nat) := Nat.cast_le.mpr tenPow_le_twoPow
  rwa [cast_tenPow, cast_twoPow] at cast

theorem two_zpow_le : (2 : ℚ) ^ (4096 : ℤ) ≤ 10 ^ (1234 : ℤ) := by
  have cast : ((twoPow 4096 : Nat) : ℚ) ≤ (tenPow 1234 : Nat) := Nat.cast_le.mpr twoPow_le_tenPow
  rwa [cast_tenPow, cast_twoPow] at cast

/-- `1233 / 4096` is a little less than the logarithm of two, so what it estimates is not too large, and not
    much too small either. -/
theorem pow_logarithm_le {k : Int} (lower : -8192 ≤ k) : (10 : ℚ) ^ (k * 1233 / 4096 - 2) ≤ 2 ^ k := by
  have floor : k * 1233 / 4096 * 4096 ≤ k * 1233 := Int.ediv_mul_le _ (by decide)
  generalize k * 1233 / 4096 = q at floor
  have ten : (0 : ℚ) < 10 := by norm_num
  have raised : ((10 : ℚ) ^ (q - 2)) ^ (4096 : ℤ) ≤ (2 ^ k) ^ (4096 : ℤ) := by
    rw [← zpow_mul, ← zpow_mul, mul_comm k, zpow_mul 2]
    rcases le_or_gt 0 k with positive | negative
    · calc (10 : ℚ) ^ ((q - 2) * 4096) ≤ 10 ^ (1233 * k) := zpow_le_zpow_right₀ (by norm_num) (by omega)
        _ = (10 ^ (1233 : ℤ)) ^ k := zpow_mul _ _ _
        _ ≤ (2 ^ (4096 : ℤ)) ^ k := zpow_le_zpow_left₀ positive (zpow_pos ten _).le ten_zpow_le
    · obtain ⟨j, rfl⟩ : ∃ j, k = -j := ⟨-k, (neg_neg k).symm⟩
      have powers : ((2 : ℚ) ^ (4096 : ℤ)) ^ j ≤ (10 ^ (1234 : ℤ)) ^ j :=
        zpow_le_zpow_left₀ (by omega) (zpow_pos (by norm_num) _).le two_zpow_le
      calc (10 : ℚ) ^ ((q - 2) * 4096) ≤ 10 ^ (1234 * -j) := zpow_le_zpow_right₀ (by norm_num) (by omega)
        _ = ((10 ^ (1234 : ℤ)) ^ j)⁻¹ := by rw [zpow_mul, zpow_neg]
        _ ≤ ((2 ^ (4096 : ℤ)) ^ j)⁻¹ := inv_anti₀ (zpow_pos (zpow_pos (by norm_num) _) _) powers
        _ = (2 ^ (4096 : ℤ)) ^ (-j) := (zpow_neg _ _).symm
  exact (zpow_le_zpow_iff_left₀ (zpow_pos ten _).le (zpow_pos (by norm_num) _).le (by decide)).mp raised

/-- Ten to the power before the one that is guessed does not exceed the value. -/
theorem guess_le {v : Nat} (positive : v ≠ 0) :
    (10 : ℚ) ^ (((v.log2 : Int) - 1076) * 1233 / 4096 - 1 - 1) * unit ≤ v := by
  have binary : (unit : ℚ) = 2 ^ (1076 : ℤ) := cast_twoPow 1076
  have power : (2 : ℚ) ^ (v.log2 : ℤ) ≤ v := by
    rw [zpow_natCast]
    exact_mod_cast Nat.log2_self_le positive
  calc (10 : ℚ) ^ (((v.log2 : Int) - 1076) * 1233 / 4096 - 1 - 1) * unit
      ≤ 2 ^ ((v.log2 : ℤ) - 1076) * unit :=
        mul_le_mul_of_nonneg_right (sub_sub _ (1 : ℤ) 1 ▸ pow_logarithm_le (by omega)) (Nat.cast_nonneg _)
    _ = 2 ^ (v.log2 : ℤ) := by rw [binary, ← zpow_add₀ two_ne_zero, sub_add_cancel]
    _ ≤ v := power

theorem magnitude10_le {v : Nat} (positive : v ≠ 0) : (10 : ℚ) ^ (magnitude10 v - 1) * unit ≤ v := by
  obtain ⟨u, whole⟩ : ∃ u : ℚ, u = unit := ⟨_, rfl⟩
  have misfit {p : Int} (beyond : ¬ (scaled v p).1 < (scaled v p).2) : (10 : ℚ) ^ p * u ≤ v := by
    have le := (le_scaled_iff v 1 p).mp (by rw [Nat.one_mul]; exact Nat.le_of_not_lt beyond)
    rwa [Nat.cast_one, one_mul, ← whole] at le
  have guess := guess_le positive
  rw [← whole] at guess ⊢
  rw [magnitude10]
  generalize ((v.log2 : Int) - 1076) * 1233 / 4096 - 1 = g at guess
  -- The power before the first that fits does not fit, unless the guess fits already.
  by_cases first : (scaled v g).1 < (scaled v g).2
  · simpa [first] using guess
  by_cases second : (scaled v (g + 1)).1 < (scaled v (g + 1)).2
  · simpa [first, second] using misfit first
  by_cases third : (scaled v (g + 2)).1 < (scaled v (g + 2)).2
  · simpa [first, second, third, add_sub_assoc] using misfit second
  by_cases fourth : (scaled v (g + 3)).1 < (scaled v (g + 3)).2
  · simpa [first, second, third, fourth, add_sub_assoc] using misfit third
  · simpa [first, second, third, fourth, add_sub_assoc] using misfit fourth

/-! ### Grids -/

theorem readsBack_of_onGrid? {n : Neighbourhood} {e : Int} {d : Decimal} (found : onGrid? n e = some d) :
    readsBack n d.digits d.exponent = true := by
  rw [onGrid?] at found
  dsimp only at found
  split at found
  · rename_i down up
    obtain rfl := Option.some.inj found
    dsimp only
    split
    · exact down
    · exact up
  · rename_i down _
    obtain rfl := Option.some.inj found
    exact down
  · rename_i _ up
    obtain rfl := Option.some.inj found
    exact up
  · cases found

/-- Of two numbers on the two sides of the middle that are nearer to one another than the ends are, one is inside. -/
theorem holds_or_holds {n : Neighbourhood} {a b : ℚ} (low : n.low < n.mid) (high : n.mid < n.high)
    (below : a * unit ≤ n.mid) (above : n.mid ≤ b * unit) (near : b * unit - a * unit < n.high - n.low) :
    n.Holds a ∨ n.Holds b := by
  have low : (n.low : ℚ) < n.mid := Nat.cast_lt.mpr low
  have high : (n.mid : ℚ) < n.high := Nat.cast_lt.mpr high
  rw [Neighbourhood.Holds, Neighbourhood.Holds]
  by_contra outside
  rw [not_or] at outside
  obtain ⟨first, second⟩ := outside
  split at first <;> rename_i closed
  · rw [if_pos closed] at second
    have left : a * unit < n.low := not_le.mp fun inside => first ⟨inside, by linarith⟩
    have right : n.high < b * unit := not_le.mp fun inside => second ⟨by linarith, inside⟩
    linarith
  · rw [if_neg closed] at second
    have left : a * unit ≤ n.low := not_lt.mp fun inside => first ⟨inside, by linarith⟩
    have right : n.high ≤ b * unit := not_lt.mp fun inside => second ⟨by linarith, inside⟩
    linarith

theorem onGrid?_isSome {n : Neighbourhood} {e : Int} (low : n.low < n.mid) (high : n.mid < n.high)
    (fine : 10 ^ e * (unit : ℚ) < n.high - n.low) : (onGrid? n e).isSome = true := by
  obtain ⟨down, floor⟩ : ∃ down, down = (scaled n.mid e).1 / (scaled n.mid e).2 := ⟨_, rfl⟩
  have below : (down : ℚ) * 10 ^ e * unit ≤ n.mid := (le_scaled_iff _ _ _).mp (floor ▸ Nat.div_mul_le_self _ _)
  have above : (n.mid : ℚ) < (down + 1 : Nat) * 10 ^ e * unit :=
    (scaled_lt_iff _ _ _).mp ((Nat.div_lt_iff_lt_mul (scaled_den_pos _ _)).mp (floor ▸ Nat.lt_succ_self _))
  have step : ((down + 1 : Nat) : ℚ) * 10 ^ e * unit - down * 10 ^ e * unit = 10 ^ e * unit := by
    push_cast
    ring
  rw [onGrid?]
  dsimp only
  rw [← floor]
  rcases holds_or_holds low high below above.le (step ▸ fine) with inside | inside
  · rw [(readsBack_iff n down e).mpr inside]
    cases readsBack n (down + 1) e <;> rfl
  · rw [(readsBack_iff n (down + 1) e).mpr inside]
    cases readsBack n down e <;> rfl

/-! ### Shortest numerals -/

theorem carried_value (d : Decimal) : d.carried.value = d.value := by
  rw [carried]
  split
  · rename_i ten
    rw [value, value, ten, zpow_add_one₀ (by norm_num)]
    push_cast
    ring
  · rfl

theorem size_lt (m : Nat) : size m < 2 * twoPow 52 * gap m := by
  have small : m % twoPow 52 < twoPow 52 := Nat.mod_lt _ (twoPow_pos 52)
  rw [size]
  split
  · calc m % twoPow 52 < twoPow 52 := small
      _ ≤ 2 * twoPow 52 := Nat.le_mul_of_pos_left _ (by decide)
      _ ≤ 2 * twoPow 52 * gap m := Nat.le_mul_of_pos_right _ (gap_pos m)
  · exact Nat.mul_lt_mul_of_pos_right (by omega) (gap_pos m)

/-- The neighbourhood is wider than the number divided by `10 ^ 16`. -/
theorem size_lt_width (m : Nat) : 4 * size (m + 1) < 10000000000000000 * (2 * (gap m + gap (m + 1))) := by
  have positive := gap_pos (m + 1)
  rcases magnitude_succ m with ⟨same, -⟩ | ⟨begins, zero, -⟩
  · have gaps := gap_within same
    have less := size_lt (m + 1)
    rw [twoPow_52] at less
    omega
  · have first : size (m + 1) = twoPow 52 * gap (m + 1) := by
      rw [size, zero, if_neg (begins ▸ Nat.succ_ne_zero _), Nat.add_zero]
    rw [twoPow_52] at first
    omega

section Positive

variable {x : Binary64} (positive : x.magnitude ≠ 0)

include positive

theorem neighbourhood_ordered : (neighbourhood x).low < (neighbourhood x).mid ∧
    (neighbourhood x).mid < (neighbourhood x).high ∧
    (neighbourhood x).mid + 10000000000000000 * (neighbourhood x).low < 10000000000000000 * (neighbourhood x).high := by
  obtain ⟨m, here⟩ := Nat.exists_eq_add_one_of_ne_zero positive
  rw [neighbourhood_low here, neighbourhood_mid here, neighbourhood_high here]
  have width := size_lt_width m
  have before := size_succ m
  have after := size_succ (m + 1)
  have gaps := gap_pos m
  have gapsToo := gap_pos (m + 1)
  omega

/-- Seventeen digits suffice. -/
theorem onGrid?_seventeen :
    (onGrid? (neighbourhood x) (magnitude10 (neighbourhood x).mid - (16 : Nat) - 1)).isSome = true := by
  obtain ⟨low, high, width⟩ := neighbourhood_ordered positive
  refine onGrid?_isSome low high ?_
  have top := magnitude10_le (Nat.ne_zero_of_lt low)
  generalize magnitude10 (neighbourhood x).mid = p at top
  have digits : (10 : ℚ) ^ (p - 1) = 10 ^ (p - (16 : Nat) - 1) * 10000000000000000 := by
    rw [show p - 1 = p - (16 : Nat) - 1 + 16 by omega, zpow_add₀ (by norm_num)]
    norm_num
  have width : ((neighbourhood x).mid : ℚ) + 10000000000000000 * (neighbourhood x).low <
      10000000000000000 * (neighbourhood x).high := by exact_mod_cast width
  rw [digits] at top
  linarith

theorem exists_onGrid? : ∃ e d, onGrid? (neighbourhood x) e = some d ∧ shortest x = d.carried := by
  have enough : ((List.range 17).findSome? fun (places : Nat) =>
      onGrid? (neighbourhood x) (magnitude10 (neighbourhood x).mid - places - 1)).isSome = true := by
    rw [List.findSome?_isSome_iff]
    exact ⟨16, by decide, onGrid?_seventeen positive⟩
  obtain ⟨d, found⟩ := Option.isSome_iff_exists.mp enough
  obtain ⟨places, -, here⟩ := List.exists_of_findSome?_eq_some found
  refine ⟨_, d, here, ?_⟩
  rw [shortest, if_neg positive]
  dsimp only
  rw [found]

end Positive

/-- The shortest numeral of a number rounds to the number. -/
theorem shortest_holds (x : Binary64) : (neighbourhood x).Holds (shortest x).value := by
  by_cases zero : x.magnitude = 0
  · have low : (neighbourhood x).low = 0 := by
      have mid := neighbourhood_mid zero
      exact Nat.le_zero.mp (Nat.le_trans (Nat.sub_le _ _) (Nat.le_of_eq mid))
    rw [shortest, if_pos zero, value, Neighbourhood.Holds, if_pos ((neighbourhood_closed zero).mpr rfl), low,
      Nat.cast_zero, zero_mul, zero_mul]
    exact ⟨le_refl 0, Nat.cast_nonneg _⟩
  · obtain ⟨e, d, found, same⟩ := exists_onGrid? zero
    rw [same, carried_value, value]
    exact (readsBack_iff _ _ _).mp (readsBack_of_onGrid? found)

/-- The shortest numeral tells the number, but for its sign. -/
theorem magnitude_eq_of_value {x y : Binary64} (same : (shortest x).value = (shortest y).value) :
    x.magnitude = y.magnitude :=
  magnitude_eq_of_holds (shortest_holds x) (same ▸ shortest_holds y)

end StackCompiler.Decimal
