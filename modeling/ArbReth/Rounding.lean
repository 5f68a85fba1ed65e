import Mathlib.Data.Int.Init
import Mathlib.Tactic.Ring

/-!
# `ArbReth.Rounding`: truncated and Euclidean quotients

The truncated quotient `x.tdiv y` rounds toward zero. The Euclidean one, `x / y`, rounds
down for a positive divisor. They differ, by one, exactly when the dividend is negative
and not a multiple of the divisor (`RoundsUp`).

The second part compares the truncated quotient of a dividend that is off by a step `u`
with the Euclidean quotient of the dividend itself. This is what an earlier rounding
difference does to a later quotient. The step is at most the divisor.
-/

set_option autoImplicit false

namespace ArbReth.Rounding

variable {x y a m u : Int}

/-- Truncation rounds the quotient up. -/
def RoundsUp (x y : Int) : Prop := x < 0 ∧ ¬y ∣ x

instance (x y : Int) : Decidable (RoundsUp x y) := inferInstanceAs (Decidable (_ ∧ _))

/-- The truncated quotient less the Euclidean one. -/
def excess (x y : Int) : Int := if RoundsUp x y then 1 else 0

/-- A quotient by a positive divisor, truncated. -/
theorem tdiv_eq_ediv_add_excess (x : Int) (hy : 0 < y) : x.tdiv y = x / y + excess x y := by
  rw [Int.tdiv_eq_ediv, Int.sign_eq_one_of_pos hy]
  by_cases hx : 0 ≤ x
  · rw [if_pos (.inl hx), excess, if_neg fun h => absurd h.1 (not_lt.mpr hx)]
  · by_cases hdvd : y ∣ x
    · rw [if_pos (.inr hdvd), excess, if_neg fun h => h.2 hdvd]
    · rw [if_neg (by simp [hx, hdvd]), excess, if_pos ⟨not_le.mp hx, hdvd⟩]

/-- The truncated quotient of a negative dividend is the negated quotient of its magnitude. -/
theorem tdiv_eq_neg_ediv (hx : x ≤ 0) : x.tdiv y = -(-x / y) := by
  rw [← Int.tdiv_eq_ediv_of_nonneg (by omega : 0 ≤ -x), Int.neg_tdiv, Int.neg_neg]

/-- A truncated quotient is at most zero exactly for a dividend below the divisor. -/
theorem tdiv_le_zero_iff (x : Int) (hy : 0 < y) : x.tdiv y ≤ 0 ↔ x < y := by
  rcases le_or_gt 0 x with hx | hx
  · rw [Int.tdiv_eq_ediv_of_nonneg hx, Int.ediv_le_iff_le_mul hy]
    omega
  · have hquot : 0 ≤ -x / y := Int.ediv_nonneg (by omega) hy.le
    rw [tdiv_eq_neg_ediv hx.le]
    omega

/-- A truncated quotient reaches a negative bound exactly when the dividend does. -/
theorem tdiv_le_neg_iff (x : Int) (hy : 0 < y) {k : Int} (hk : 0 < k) :
    x.tdiv y ≤ -k ↔ x ≤ -(k * y) := by
  have hmul : 0 < k * y := Int.mul_pos hk hy
  rcases le_or_gt 0 x with hx | hx
  · have hquot : 0 ≤ x.tdiv y := Int.tdiv_nonneg hx hy.le
    omega
  · rw [tdiv_eq_neg_ediv hx.le, Int.neg_le_neg_iff, Int.le_ediv_iff_mul_le hy]
    omega

/-- A bound at zero hides the difference of the quotients when the truncated one reaches
it. -/
theorem max_add_tdiv_eq_iff (p x : Int) (hy : 0 < y) :
    max 0 (p + x.tdiv y) = max 0 (p + x / y) ↔ ¬RoundsUp x y ∨ p + x.tdiv y ≤ 0 := by
  have hquot := tdiv_eq_ediv_add_excess x hy
  unfold excess at hquot
  split at hquot <;> rename_i hup
  · simp only [hup, not_true_eq_false, false_or]
    omega
  · simp only [hup, not_false_eq_true, true_or, iff_true]
    omega

/-! ### A dividend that is off by a step -/

/-- The truncated quotient of a dividend that is split into a multiple and a remainder. -/
theorem tdiv_of_split {q r : Int} (h : m = a * q + r) (hr : 0 ≤ r) (hlt : r < a) :
    m.tdiv a = q + if m < 0 ∧ r ≠ 0 then 1 else 0 := by
  have hquot : m / a = q := by
    rw [h, Int.add_comm, Int.add_mul_ediv_left _ _ (by omega), Int.ediv_eq_zero_of_lt hr hlt,
      Int.zero_add]
  have hrem : m % a = r := by
    rw [h, Int.add_comm, Int.add_mul_emod_self_left, Int.emod_eq_of_lt hr hlt]
  rw [tdiv_eq_ediv_add_excess m (by omega), hquot]
  simp only [excess, RoundsUp, Int.dvd_iff_emod_eq_zero, hrem, ne_eq]

/-- Without a step, the quotients agree unless truncation rounds up. -/
theorem tdiv_eq_ediv_iff (m : Int) (ha : 0 < a) : m.tdiv a = m / a ↔ 0 ≤ m ∨ m % a = 0 := by
  rw [tdiv_of_split (Int.mul_ediv_add_emod m a).symm (Int.emod_nonneg m (by omega))
    (Int.emod_lt_of_pos m ha)]
  split <;> omega

/-- After a step up. The remainder with the step may reach the divisor. -/
theorem add_tdiv_eq_ediv_iff (m : Int) (hu : 0 < u) (hua : u ≤ a) :
    (m + u).tdiv a = m / a ↔ 0 ≤ m + u ∧ m % a + u < a := by
  have hsplit := Int.mul_ediv_add_emod m a
  have hnonneg := Int.emod_nonneg m (show a ≠ 0 by omega)
  have hlt := Int.emod_lt_of_pos m (show 0 < a by omega)
  rcases lt_or_ge (m % a + u) a with hfit | hover
  · rw [tdiv_of_split (show m + u = a * (m / a) + (m % a + u) by omega) (by omega) hfit]
    split <;> omega
  · have hnext : a * (m / a + 1) = a * (m / a) + a := by ring
    rw [tdiv_of_split (show m + u = a * (m / a + 1) + (m % a + u - a) by omega) (by omega)
      (by omega)]
    split <;> omega

/-- After a step down. The remainder less the step may fall below zero. -/
theorem sub_tdiv_eq_ediv_iff (m : Int) (hu : 0 < u) (hua : u ≤ a) :
    (m - u).tdiv a = m / a
      ↔ (0 ≤ m - u ∧ u ≤ m % a) ∨ (m - u < 0 ∧ m % a ≤ u ∧ (0 < m % a ∨ u < a)) := by
  have hsplit := Int.mul_ediv_add_emod m a
  have hnonneg := Int.emod_nonneg m (show a ≠ 0 by omega)
  have hlt := Int.emod_lt_of_pos m (show 0 < a by omega)
  rcases le_or_gt u (m % a) with hfit | hunder
  · rw [tdiv_of_split (show m - u = a * (m / a) + (m % a - u) by omega) (by omega) (by omega)]
    split <;> omega
  · have hprev : a * (m / a - 1) = a * (m / a) - a := by ring
    rw [tdiv_of_split (show m - u = a * (m / a - 1) + (m % a - u + a) by omega) (by omega)
      (by omega)]
    split <;> omega

end ArbReth.Rounding
