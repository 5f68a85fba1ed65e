import Mathlib.Algebra.BigOperators.Group.List.Basic
import Mathlib.Algebra.Order.Monoid.Canonical.Defs
import Mathlib.Algebra.Order.Monoid.Unbundled.MinMax

/-!
# `ArbReth.Clamp`: sums that are clamped after every addend

A counter that saturates keeps `min (counter + x) bound` after an addend `x`. Without
negative addends, a clamp on the way loses nothing that the last clamp would have kept.
`foldl_clamped` says so of a run of steps on an arbitrary state, for a number that is read
off the state. The result depends on the addends only through their sum, so the order of
the steps does not matter (`foldl_clamped_perm`).
-/

set_option autoImplicit false

namespace ArbReth.Clamp

variable {M : Type*} [AddCommMonoid M] [LinearOrder M] [IsOrderedAddMonoid M]
  [CanonicallyOrderedAdd M]

/-- A clamp before an addend is lost in the clamp after it. -/
theorem min_min_add (a x bound : M) : min (min a bound + x) bound = min (a + x) bound := by
  rw [← min_add_add_right, min_assoc, min_eq_right (le_self_add : bound ≤ bound + x)]

variable {S C : Type*} {step : S → C → S} (reading : S → M) {amount : C → M} {bound : M}

/-- Every step adds its amount to the reading, clamped. Then a run adds the sum of the
amounts, clamped. -/
theorem foldl_clamped
    (hstep : ∀ s c, reading (step s c) = min (reading s + amount c) bound)
    (steps : List C) (s : S) (hs : reading s ≤ bound) :
    reading (steps.foldl step s) = min (reading s + (steps.map amount).sum) bound := by
  induction steps generalizing s with
  | nil => simpa using hs
  | cons c steps ih =>
    -- the clamp of the first step meets the clamp of the rest
    have hle : reading (step s c) ≤ bound := by
      rw [hstep]
      exact min_le_right _ _
    rw [List.foldl_cons, ih _ hle, hstep, min_min_add, List.map_cons, List.sum_cons, add_assoc]

/-- The order of the steps does not change the reading. -/
theorem foldl_clamped_perm
    (hstep : ∀ s c, reading (step s c) = min (reading s + amount c) bound)
    {steps steps' : List C} (h : steps.Perm steps') (s : S) (hs : reading s ≤ bound) :
    reading (steps.foldl step s) = reading (steps'.foldl step s) := by
  rw [foldl_clamped reading hstep _ _ hs, foldl_clamped reading hstep _ _ hs, (h.map amount).sum_eq]

end ArbReth.Clamp
