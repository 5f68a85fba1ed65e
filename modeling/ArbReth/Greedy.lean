import Mathlib.Algebra.BigOperators.Group.List.Basic
import Mathlib.Algebra.GroupWithZero.Nat

/-!
# `ArbReth.Greedy`: claims that are served in order

A list of claimants is served from a fund, one after another. Each takes what it claims, as
far as the fund goes. `shares` lists who takes how much. All shares together are the fund or
all claims, whichever is less (`total_shares`), so a claim that is cut short has used up the
fund (`total_eq_of_short`).

The shares go to the payees of the claimants, and one payee can have several. `received` is
what a payee gets from a list of shares.
-/

set_option autoImplicit false

namespace ArbReth.Greedy

variable {ι α : Type*}

/-- The claimants with their shares, when they are served in order from a fund. -/
def shares (claim : ι → Nat) : List ι → (left : Nat) → List (ι × Nat)
  | [], _ => []
  | i :: is, left => (i, min (claim i) left) :: shares claim is (left - min (claim i) left)

/-- All that is taken. -/
def total (ps : List (ι × Nat)) : Nat := (ps.map Prod.snd).sum

/-- No payments come to nothing. -/
@[simp] theorem total_nil : total ([] : List (ι × Nat)) = 0 := rfl

/-- The first payment and the rest. -/
@[simp] theorem total_cons (i : ι) (s : Nat) (ps : List (ι × Nat)) :
    total ((i, s) :: ps) = s + total ps := by
  simp [total]

section
variable (claim : ι → Nat)

/-- Every claimant is served once. -/
@[simp] theorem map_fst_shares (is : List ι) (left : Nat) :
    (shares claim is left).map Prod.fst = is := by
  induction is generalizing left with
  | nil => rfl
  | cons i is ih => rw [shares, List.map_cons, ih]

/-- All shares are the fund or all claims, whichever is less. -/
theorem total_shares (is : List ι) (left : Nat) :
    total (shares claim is left) = min (is.map claim).sum left := by
  induction is generalizing left with
  | nil => simp [shares]
  | cons i is ih =>
      rw [shares, total_cons, ih, List.map_cons, List.sum_cons]
      omega

/-- The shares come to no more than what is left to share. -/
theorem total_shares_le (is : List ι) (left : Nat) : total (shares claim is left) ≤ left := by
  rw [total_shares]
  exact Nat.min_le_right _ _

/-- A claim that is cut short has used up the fund. -/
theorem total_eq_of_short {is : List ι} {left : Nat} {i : ι} {s : Nat}
    (h : (i, s) ∈ shares claim is left) (hshort : s < claim i) :
    total (shares claim is left) = left := by
  induction is generalizing left with
  | nil => cases h
  | cons j is ih =>
      rw [shares, total_cons]
      rcases List.mem_cons.mp h with heq | h
      · -- the first one took all, and nothing is left for the rest
        cases heq
        have hrest := total_shares_le claim is (left - min (claim i) left)
        omega
      · rw [ih h]
        omega

/-- The shares depend on the claims of the claimants only. -/
theorem shares_congr {claim claim' : ι → Nat} {is : List ι} (h : ∀ i ∈ is, claim i = claim' i)
    (left : Nat) : shares claim is left = shares claim' is left := by
  induction is generalizing left with
  | nil => rfl
  | cons i is ih =>
      rw [shares, shares, h i List.mem_cons_self,
        ih fun j hj => h j (List.mem_cons_of_mem _ hj)]

end

section
variable [DecidableEq α] (payee : ι → α)

/-- What a payee gets from the shares. -/
def received (ps : List (ι × Nat)) (a : α) : Nat :=
  (ps.map fun x => if payee x.1 = a then x.2 else 0).sum

/-- Nobody gets anything of no payments. -/
@[simp] theorem received_nil (a : α) : received payee [] a = 0 := rfl

/-- The payee of the first payment gets it, besides the rest. -/
@[simp] theorem received_cons (i : ι) (s : Nat) (ps : List (ι × Nat)) (a : α) :
    received payee ((i, s) :: ps) a = (if payee i = a then s else 0) + received payee ps a := by
  simp [received]

end

end ArbReth.Greedy
