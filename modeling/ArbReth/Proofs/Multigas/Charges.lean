import ArbReth.Burn
import ArbReth.Clamp

/-!
# `ArbReth.Proofs.Multigas.Charges`: the order of the charges

A system burner takes charges of two forms. `burn` adds an amount to one kind and to the
total, and `burnMultiGas` adds all the numbers of a `MultiGas`. Each number of the record
is clamped on its own.

`Charge.gas`, `Charge.total` and `Charge.refund` are what a charge adds to each number.
The step lemmas `toNat_gas_apply`, `toNat_total_apply` and `toNat_refund_apply` say that it
adds this and clamps. `Clamp.foldl_clamped` then gives the numbers after a list of charges
from the sums over the list, and `charges_perm` states the result.
-/

set_option autoImplicit false

namespace ArbReth

/-- A charge to a burner. -/
inductive Charge where
  | burn (kind : ResourceKind) (amount : U64)
  | burnMultiGas (amount : MultiGas)

namespace Charge

/-- The burner after the charge. -/
def apply (self : SystemBurner) : Charge → SystemBurner
  | .burn kind amount => self.burn kind amount
  | .burnMultiGas amount => self.burnMultiGas amount

/-- The burner after a list of charges. -/
def applyAll (self : SystemBurner) (charges : List Charge) : SystemBurner :=
  charges.foldl apply self

/-- What the charge adds to the amount of a kind. -/
def gas (kind : ResourceKind) : Charge → Nat
  | .burn kind' amount => if kind' = kind then amount.toNat else 0
  | .burnMultiGas amount => (amount.get kind).toNat

/-- What the charge adds to the total. -/
def total : Charge → Nat
  | .burn _ amount => amount.toNat
  | .burnMultiGas amount => amount.total.toNat

/-- What the charge adds to the refund. -/
def refund : Charge → Nat
  | .burn _ _ => 0
  | .burnMultiGas amount => amount.refund.toNat

/-! ### One charge -/

/-- A 64-bit word is at most the largest one. -/
theorem toNat_le (x : U64) : x.toNat ≤ 2 ^ 64 - 1 := Nat.le_pred_of_lt x.isLt

/-- A charge adds to the amount of a kind, clamped. -/
theorem toNat_gas_apply (self : SystemBurner) (c : Charge) (kind : ResourceKind) :
    ((apply self c).gasBurnt.get kind).toNat
      = min ((self.gasBurnt.get kind).toNat + c.gas kind) (2 ^ 64 - 1) := by
  cases c with
  | burn kind' amount =>
    show (Function.update self.gasBurnt.gas kind' _ kind).toNat = _
    by_cases heq : kind' = kind
    · subst heq
      rw [Function.update_self, toNat_saturatingAdd, gas, if_pos rfl]
      rfl
    · -- another kind keeps its amount, which is below the clamp
      rw [Function.update_of_ne (Ne.symm heq), gas, if_neg heq, Nat.add_zero]
      exact (Nat.min_eq_left (toNat_le _)).symm
  | burnMultiGas amount => exact toNat_saturatingAdd _ _

/-- A charge adds to the total, clamped. -/
theorem toNat_total_apply (self : SystemBurner) (c : Charge) :
    (apply self c).gasBurnt.total.toNat
      = min (self.gasBurnt.total.toNat + c.total) (2 ^ 64 - 1) := by
  cases c with
  | burn kind amount => exact toNat_saturatingAdd _ _
  | burnMultiGas amount => exact toNat_saturatingAdd _ _

/-- A charge adds to the refund, clamped. -/
theorem toNat_refund_apply (self : SystemBurner) (c : Charge) :
    (apply self c).gasBurnt.refund.toNat
      = min (self.gasBurnt.refund.toNat + c.refund) (2 ^ 64 - 1) := by
  cases c with
  | burn kind amount =>
    -- a single kind refunds nothing
    exact (Nat.min_eq_left (toNat_le _)).symm
  | burnMultiGas amount => exact toNat_saturatingAdd _ _

/-- The refund comes off the total, down to zero. -/
theorem toNat_burned (self : SystemBurner) :
    self.burned.toNat = self.gasBurnt.total.toNat - self.gasBurnt.refund.toNat :=
  toNat_saturatingSub _ _

/-! ### A list of charges -/

section Runs
variable (self : SystemBurner) {charges charges' : List Charge}

/-- Charges add up in each kind, clamped once. -/
theorem toNat_gas_applyAll (kind : ResourceKind) :
    ((applyAll self charges).gasBurnt.get kind).toNat
      = min ((self.gasBurnt.get kind).toNat + (charges.map (gas kind)).sum) (2 ^ 64 - 1) :=
  Clamp.foldl_clamped (fun s : SystemBurner => (s.gasBurnt.get kind).toNat)
    (fun s c => toNat_gas_apply s c kind) charges self (toNat_le _)

/-- Charges add up in the total, clamped once. -/
theorem toNat_total_applyAll :
    (applyAll self charges).gasBurnt.total.toNat
      = min (self.gasBurnt.total.toNat + (charges.map total).sum) (2 ^ 64 - 1) :=
  Clamp.foldl_clamped (fun s : SystemBurner => s.gasBurnt.total.toNat) toNat_total_apply
    charges self (toNat_le _)

/-- Charges add up in the refund, clamped once. -/
theorem toNat_refund_applyAll :
    (applyAll self charges).gasBurnt.refund.toNat
      = min (self.gasBurnt.refund.toNat + (charges.map refund).sum) (2 ^ 64 - 1) :=
  Clamp.foldl_clamped (fun s : SystemBurner => s.gasBurnt.refund.toNat) toNat_refund_apply
    charges self (toNat_le _)

/-- The record does not depend on the order of the charges. -/
theorem gasBurnt_applyAll_perm (h : charges.Perm charges') :
    (applyAll self charges).gasBurnt = (applyAll self charges').gasBurnt := by
  -- each number of the record is a clamped counter of its own
  have hgas (kind : ResourceKind) := Clamp.foldl_clamped_perm
    (fun s : SystemBurner => (s.gasBurnt.get kind).toNat)
    (fun s c => toNat_gas_apply s c kind) h self (toNat_le _)
  have htotal := Clamp.foldl_clamped_perm (fun s : SystemBurner => s.gasBurnt.total.toNat)
    toNat_total_apply h self (toNat_le _)
  have hrefund := Clamp.foldl_clamped_perm (fun s : SystemBurner => s.gasBurnt.refund.toNat)
    toNat_refund_apply h self (toNat_le _)
  ext1
  · funext kind
    exact BitVec.eq_of_toNat_eq (hgas kind)
  · exact BitVec.eq_of_toNat_eq htotal
  · exact BitVec.eq_of_toNat_eq hrefund

end Runs

/-- Take a list of charges to a new system burner. Every order of them leaves the same
record and the same `burned`. Each amount, the total and the refund are the sums of what
the charges add, clamped once, and `burned` is the total less the refund, at least zero. -/
theorem charges_perm (readOnly : Bool) {charges charges' : List Charge}
    (h : charges.Perm charges') :
    (applyAll (.new readOnly) charges').gasBurnt = (applyAll (.new readOnly) charges).gasBurnt
      ∧ (applyAll (.new readOnly) charges').burned = (applyAll (.new readOnly) charges).burned
      ∧ (∀ kind, ((applyAll (.new readOnly) charges).gasBurnt.get kind).toNat
          = min (2 ^ 64 - 1) (charges.map (gas kind)).sum)
      ∧ (applyAll (.new readOnly) charges).gasBurnt.total.toNat
          = min (2 ^ 64 - 1) (charges.map total).sum
      ∧ (applyAll (.new readOnly) charges).gasBurnt.refund.toNat
          = min (2 ^ 64 - 1) (charges.map refund).sum
      ∧ (applyAll (.new readOnly) charges).burned.toNat
          = min (2 ^ 64 - 1) (charges.map total).sum
            - min (2 ^ 64 - 1) (charges.map refund).sum := by
  have hrecord := gasBurnt_applyAll_perm (.new readOnly) h
  -- a new burner starts from zero in every number
  have hgas : ∀ kind, ((applyAll (.new readOnly) charges).gasBurnt.get kind).toNat
      = min (2 ^ 64 - 1) (charges.map (gas kind)).sum := by
    intro kind
    rw [toNat_gas_applyAll, min_comm]
    exact congrArg _ (Nat.zero_add _)
  have htotal : (applyAll (.new readOnly) charges).gasBurnt.total.toNat
      = min (2 ^ 64 - 1) (charges.map total).sum := by
    rw [toNat_total_applyAll, min_comm]
    exact congrArg _ (Nat.zero_add _)
  have hrefund : (applyAll (.new readOnly) charges).gasBurnt.refund.toNat
      = min (2 ^ 64 - 1) (charges.map refund).sum := by
    rw [toNat_refund_applyAll, min_comm]
    exact congrArg _ (Nat.zero_add _)
  refine ⟨hrecord.symm, congrArg MultiGas.singleGas hrecord.symm, hgas, htotal, hrefund, ?_⟩
  rw [toNat_burned, htotal, hrefund]

/-- A full kind between two other charges, and the charges in another order. -/
theorem charges_perm_sample :
    (applyAll (.new false) [.burn .computation 5, .burnMultiGas (.withRefund
        (.new .computation (BitVec.allOnes 64)) 7), .burn .storageAccess 3]).burned.toNat
      = 2 ^ 64 - 8 := by
  have h := (charges_perm false (List.Perm.swap (.burn .computation 5) (.burnMultiGas
    (.withRefund (.new .computation (BitVec.allOnes 64)) 7))
    [.burn .storageAccess 3])).2.1
  rw [h]
  decide

end Charge

end ArbReth
