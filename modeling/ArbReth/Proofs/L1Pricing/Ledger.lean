import ArbReth.L1Pricing.Ledger

/-!
# `ArbReth.Proofs.L1Pricing.Ledger`: facts about the ledger of the L1 pricer

The facts about single stages that all results about the update use: an accepted
update takes no more units than there are, the funds cover every payment, and a
payment of nothing is never refused and changes nothing.
-/

set_option autoImplicit false

namespace ArbReth

open ArbReth.Program

namespace L1Ledger
variable {L : L1Ledger}

/-! ### The registration -/

/-- The account that the payments for a poster go to: a new poster is paid itself. -/
def payee (L : L1Ledger) (p : Address) : Address := if L.IsPoster p then L.payTo p else p

/-- The amount due to a poster, which is nothing for a new one. -/
def dueTo (L : L1Ledger) (p : Address) : I256 := if L.IsPoster p then L.fundsDue p else I256.zero

/-- The registration writes the table only. -/
theorem register_toL1Scalars (L : L1Ledger) (p : Address) :
    (L.register p).toL1Scalars = L.toL1Scalars := by
  unfold register
  split <;> rfl

/-- The registration moves no balance. -/
theorem register_balance (L : L1Ledger) (p : Address) : (L.register p).balance = L.balance := by
  unfold register
  split <;> rfl

/-- The registration of a poster keeps the total. -/
theorem register_totalFundsDue (L : L1Ledger) (p : Address) :
    (L.register p).totalFundsDue = L.totalFundsDue := by
  unfold register
  split <;> rfl

/-- After the registration the poster has its payee. -/
theorem register_payTo_self (L : L1Ledger) (p : Address) :
    (L.register p).payTo p = L.payee p := by
  unfold register payee
  split
  · rfl
  · exact Function.update_self _ _ _

/-- After the registration the poster has its amount due. -/
theorem register_fundsDue_self (L : L1Ledger) (p : Address) :
    (L.register p).fundsDue p = L.dueTo p := by
  unfold register dueTo
  split
  · rfl
  · exact Function.update_self _ _ _

/-- The record of another poster is not written. -/
theorem register_of_ne (L : L1Ledger) {p q : Address} (h : q ≠ p) :
    (L.register p).fundsDue q = L.fundsDue q ∧ (L.register p).payTo q = L.payTo q := by
  unfold register
  split
  · exact ⟨rfl, rfl⟩
  · exact ⟨Function.update_of_ne h _ _, Function.update_of_ne h _ _⟩

/-! ### The allocation -/

/-- An accepted update takes no more units than there are. -/
theorem allocated_le {updateTime currentTime : U64} (h : L.TimeOk updateTime currentTime) :
    L.allocated updateTime currentTime ≤ L.unitsSinceUpdate := by
  obtain ⟨h₁, h₂⟩ := h
  unfold allocated
  generalize L.lastTime updateTime = last at h₁ h₂
  rw [BitVec.le_def] at h₁ h₂ ⊢
  have hnum : (updateTime - last).toNat = updateTime.toNat - last.toNat :=
    BitVec.toNat_sub_of_le h₁
  have hden : (currentTime - last).toNat = currentTime.toNat - last.toNat :=
    BitVec.toNat_sub_of_le (by rw [BitVec.le_def]; omega)
  rw [BitVec.toNat_udiv, toNat_saturatingMul]
  split
  · have hone : (1 : U64).toNat = 1 := rfl
    rw [hone]
    omega
  · rename_i hne
    have hpos : 0 < (currentTime - last).toNat :=
      Nat.pos_of_ne_zero fun h => hne (BitVec.eq_of_toNat_eq h)
    have hmul : L.unitsSinceUpdate.toNat * (updateTime - last).toNat
        ≤ L.unitsSinceUpdate.toNat * (currentTime - last).toNat :=
      Nat.mul_le_mul_left _ (by omega)
    calc min (L.unitsSinceUpdate.toNat * (updateTime - last).toNat) (2 ^ 64 - 1)
            / (currentTime - last).toNat
        ≤ L.unitsSinceUpdate.toNat * (currentTime - last).toNat / (currentTime - last).toNat :=
          Nat.div_le_div_right (by omega)
      _ = L.unitsSinceUpdate.toNat := Nat.mul_div_cancel _ hpos

/-! ### The payments -/

/-- A payment of nothing leaves the ledger as it is. -/
theorem pay_zero (L : L1Ledger) (f : Funding) (dst : Address) : L.pay f dst 0 = L := by
  unfold pay
  rw [movedBalance_zero]
  cases f
  case counter => rw [show L.l1FeesAvailable - 0 = L.l1FeesAvailable from BitVec.sub_zero _]
  case pool => rfl

/-- A call of `transfer` that is accepted is a payment. -/
theorem transferred_of_accepted {dst : Address} {amount : U256}
    (hok : L.refusal dst amount = none) : L.transferred dst amount = L.pay .pool dst amount := by
  rw [transferred, pay, transferBalance_of_accepted hok]

/-- A payment that is refused is a payment of something. -/
theorem ne_zero_of_refused {dst : Address} {amount : U256} {e : TransferError}
    (hrefused : L.refusal dst amount = some e) : amount ≠ 0 := by
  rintro rfl
  rw [refusal, transferRefusal_zero] at hrefused
  cases hrefused

/-- A payment that the pool account covers and the recipient can hold is accepted. -/
theorem refusal_eq_none {dst : Address} {amount : U256}
    (hle : amount ≤ L.balance l1PricerFundsPoolAddress)
    (hfit : dst ≠ l1PricerFundsPoolAddress → (L.balance dst).toNat + amount.toNat < 2 ^ 256) :
    L.refusal dst amount = none := by
  rw [refusal, transferRefusal, if_neg (BitVec.not_lt.mpr hle), if_neg]
  rintro ⟨hne, hover⟩
  have := hfit hne.symm
  omega

/-- The balances after a payment to another account. -/
theorem toNat_balance_pay (L : L1Ledger) (f : Funding) {dst : Address} {amount : U256}
    (hdst : dst ≠ l1PricerFundsPoolAddress) (hle : amount ≤ L.balance l1PricerFundsPoolAddress)
    (hfit : (L.balance dst).toNat + amount.toNat < 2 ^ 256) :
    ((L.pay f dst amount).balance l1PricerFundsPoolAddress).toNat + amount.toNat
        = (L.balance l1PricerFundsPoolAddress).toNat
      ∧ ∀ a, a ≠ l1PricerFundsPoolAddress → ((L.pay f dst amount).balance a).toNat
        = (L.balance a).toNat + if a = dst then amount.toNat else 0 := by
  constructor
  · show (movedBalance _ _ _ _ _).toNat + _ = _
    rw [movedBalance, if_neg hdst.symm, if_pos rfl, BitVec.toNat_sub_of_le hle]
    rw [BitVec.le_def] at hle
    omega
  · intro a ha
    show (movedBalance _ _ _ _ _).toNat = _
    rw [movedBalance, if_neg hdst.symm, if_neg ha]
    split
    · rename_i h
      rw [h, BitVec.toNat_add, Nat.mod_eq_of_lt hfit]
    · rfl

/-- The reward for the units is a product of two 64-bit numbers. -/
theorem perUnitReward_mul_lt (L : L1Ledger) (units : U64) :
    L.perUnitReward.toNat * units.toNat < 2 ^ 64 * 2 ^ 64 :=
  Nat.mul_lt_mul'' L.perUnitReward.isLt units.isLt

/-- The reward for the units saturates nothing. -/
theorem toNat_owedReward (L : L1Ledger) (units : U64) :
    (L.owedReward units).toNat = L.perUnitReward.toNat * units.toNat := by
  have hlt := L.perUnitReward_mul_lt units
  rw [owedReward, toNat_saturatingMul, U256.toNat_ofU64, U256.toNat_ofU64]
  omega

/-- The funds cover the payment of rewards. -/
theorem rewardPayment_le (L : L1Ledger) (f : Funding) (units : U64) :
    L.rewardPayment f units ≤ L.funds f := by
  unfold rewardPayment
  split
  · exact BitVec.le_refl _
  · rename_i h
    exact BitVec.not_lt.mp h

/-- A positive amount due is paid as far as the funds go. -/
theorem posterPayment_of_isPositive {f : Funding} {p : Address}
    (h : (L.fundsDue p).isPositive = true) :
    L.posterPayment f p = minWord (L.funds f) (L.fundsDue p).toU256 := if_pos h

/-- A poster to whom nothing is due is not paid. -/
theorem posterPayment_of_not_isPositive {f : Funding} {p : Address}
    (h : ¬(L.fundsDue p).isPositive = true) : L.posterPayment f p = 0 := if_neg h

/-- The funds cover the payment to the poster. -/
theorem posterPayment_le (L : L1Ledger) (f : Funding) (p : Address) :
    L.posterPayment f p ≤ L.funds f := by
  unfold posterPayment
  rw [BitVec.le_def]
  split
  · rw [toNat_minWord]
    exact Nat.min_le_left _ _
  · exact Nat.zero_le _

/-! ### The end of the update -/

/-- The end of the update writes the time, the surplus and the price only. -/
theorem finish_frame (L : L1Ledger) (f : Funding) (arbosVersion updateTime units : U64) :
    (L.finish f arbosVersion updateTime units).toPosterTable = L.toPosterTable
      ∧ (L.finish f arbosVersion updateTime units).balance = L.balance
      ∧ (L.finish f arbosVersion updateTime units).l1FeesAvailable = L.l1FeesAvailable
      ∧ (L.finish f arbosVersion updateTime units).fundsDueForRewards = L.fundsDueForRewards := by
  unfold finish adjustPrice
  split <;> exact ⟨rfl, rfl, rfl, rfl⟩

/-! ### The ways the payments end -/

section
variable {f : Funding} {arbosVersion updateTime units : U64} {p : Address} {e : TransferError}

/-- The ledger after the rewards are paid. -/
def paidRewards (L : L1Ledger) (f : Funding) (units : U64) : L1Ledger :=
  (L.debitRewards (L.rewardPayment f units)).pay f L.payRewardsTo (L.rewardPayment f units)

/-- The payment of rewards is refused. -/
theorem payRewards_of_refused
    (h : (L.debitRewards (L.rewardPayment f units)).refusal L.payRewardsTo
      (L.rewardPayment f units) = some e) :
    L.payRewards f units = (some e, (L.debitRewards (L.rewardPayment f units)).transferred
      L.payRewardsTo (L.rewardPayment f units)) := by
  unfold payRewards
  simp only [h, show (L.debitRewards (L.rewardPayment f units)).payRewardsTo = L.payRewardsTo
    from rfl]

/-- The update ends with the panic of the refusal. -/
theorem settle_of_rewards_refused
    (h : (L.debitRewards (L.rewardPayment f units)).refusal L.payRewardsTo
      (L.rewardPayment f units) = some e) :
    L.settle f arbosVersion updateTime units p
      = (.panic (f.rewardsRefused ++ e.debug),
        (L.debitRewards (L.rewardPayment f units)).transferred
          L.payRewardsTo (L.rewardPayment f units)) := by
  rw [settle, payRewards_of_refused h]

/-- The payment of rewards is accepted. -/
theorem payRewards_of_accepted
    (h : (L.debitRewards (L.rewardPayment f units)).refusal L.payRewardsTo
      (L.rewardPayment f units) = none) :
    L.payRewards f units = (none, L.paidRewards f units) := by
  unfold payRewards paidRewards
  simp only [h, show (L.debitRewards (L.rewardPayment f units)).payRewardsTo = L.payRewardsTo
    from rfl]

/-- The payment to the poster is refused. -/
theorem settle_of_poster_refused
    (h : (L.debitRewards (L.rewardPayment f units)).refusal L.payRewardsTo
      (L.rewardPayment f units) = none)
    (h' : (L.paidRewards f units).refusal (L.payTo p) ((L.paidRewards f units).posterPayment f p)
      = some e) :
    L.settle f arbosVersion updateTime units p
      = (.panic (f.posterRefused ++ e.debug), (L.paidRewards f units).transferred (L.payTo p)
          ((L.paidRewards f units).posterPayment f p)) := by
  have hpay : (L.paidRewards f units).payPoster f p = (some e, (L.paidRewards f units).transferred
      (L.payTo p) ((L.paidRewards f units).posterPayment f p)) := by
    unfold payPoster
    simp only [h', show (L.paidRewards f units).payTo p = L.payTo p from rfl]
  rw [settle, payRewards_of_accepted h]
  simp only [hpay]

/-- Both payments are accepted. -/
theorem settle_of_accepted
    (h : (L.debitRewards (L.rewardPayment f units)).refusal L.payRewardsTo
      (L.rewardPayment f units) = none)
    (h' : (L.paidRewards f units).refusal (L.payTo p) ((L.paidRewards f units).posterPayment f p)
      = none) :
    L.settle f arbosVersion updateTime units p
      = (.ok (), ((L.paidRewards f units).settlePoster f p
          ((L.paidRewards f units).posterPayment f p)).finish f arbosVersion updateTime units) := by
  have hpay : (L.paidRewards f units).payPoster f p
      = (none, (L.paidRewards f units).settlePoster f p
        ((L.paidRewards f units).posterPayment f p)) := by
    unfold payPoster
    simp only [h', show (L.paidRewards f units).payTo p = L.payTo p from rfl]
  rw [settle, payRewards_of_accepted h]
  simp only [hpay]

end

/-! ### The update that succeeds -/

/-- The registration keeps the last update time. -/
theorem register_lastTime (L : L1Ledger) (p : Address) (updateTime : U64) :
    (L.register p).lastTime updateTime = L.lastTime updateTime := by
  rw [lastTime, lastTime, congrArg L1Scalars.lastUpdateTime (register_toL1Scalars L p)]

/-- The registration does not change the allocation. -/
theorem register_allocated (L : L1Ledger) (p : Address) (updateTime currentTime : U64) :
    (L.register p).allocated updateTime currentTime = L.allocated updateTime currentTime := by
  rw [allocated, allocated, register_lastTime,
    congrArg L1Scalars.unitsSinceUpdate (register_toL1Scalars L p)]

/-- The ledger after both payments, before the end of the update. -/
def settled (L : L1Ledger) (f : Funding) (arbosVersion units : U64) (p : Address)
    (weiSpent l1Basefee : U256) : L1Ledger :=
  let L₁ := ((L.register p).account arbosVersion units p weiSpent l1Basefee).paidRewards f units
  L₁.settlePoster f p (L₁.posterPayment f p)

/-- An update that succeeds has made both payments. -/
theorem spend_of_ok {f : Funding} {arbosVersion updateTime currentTime : U64} {p : Address}
    {weiSpent l1Basefee : U256}
    (h : (L.spend f arbosVersion updateTime currentTime p weiSpent l1Basefee).1 = .ok ()) :
    (L.spend f arbosVersion updateTime currentTime p weiSpent l1Basefee).2
      = (L.settled f arbosVersion (L.allocated updateTime currentTime) p weiSpent
          l1Basefee).finish f arbosVersion updateTime (L.allocated updateTime currentTime) := by
  have hunits := register_allocated L p updateTime currentTime
  unfold settled
  unfold spend at h ⊢
  by_cases hfull : ¬L.IsPoster p ∧ L.count = BitVec.allOnes 64
  · rw [if_pos hfull] at h
    cases h
  rw [if_neg hfull] at h ⊢
  by_cases htime : (L.register p).TimeOk updateTime currentTime
  swap
  · simp only [htime, not_false_eq_true, if_true] at h
    cases h
  simp only [htime, not_true_eq_false, if_false, hunits] at h ⊢
  generalize L.allocated updateTime currentTime = units at h ⊢
  generalize (L.register p).account arbosVersion units p weiSpent l1Basefee = L₁ at h ⊢
  cases hrewards : (L₁.debitRewards (L₁.rewardPayment f units)).refusal L₁.payRewardsTo
      (L₁.rewardPayment f units) with
  | some e =>
      rw [settle_of_rewards_refused hrewards] at h
      cases h
  | none =>
      cases hposter : (L₁.paidRewards f units).refusal (L₁.payTo p)
          ((L₁.paidRewards f units).posterPayment f p) with
      | some e =>
          rw [settle_of_poster_refused hrewards hposter] at h
          cases h
      | none => rw [settle_of_accepted hrewards hposter]

/-- The scalars that the price adjustment reads, but for the amounts of the surplus. -/
def priceScalars (L : L1Ledger) : U256 × I256 × U256 × U64 :=
  (L.pricePerUnit, L.lastSurplus, L.equilibrationUnits, L.inertia)

/-- The registration keeps the cells of the price. -/
theorem register_priceScalars (L : L1Ledger) (p : Address) :
    (L.register p).priceScalars = L.priceScalars := by
  unfold register
  split <;> rfl

/-- The accounting keeps the cells of the price. -/
theorem account_priceScalars (L : L1Ledger) (arbosVersion units : U64) (p : Address)
    (weiSpent l1Basefee : U256) :
    (L.account arbosVersion units p weiSpent l1Basefee).priceScalars = L.priceScalars := rfl

/-- The reward keeps the cells of the price. -/
theorem paidRewards_priceScalars (L : L1Ledger) (f : Funding) (units : U64) :
    (L.paidRewards f units).priceScalars = L.priceScalars := rfl

/-- The payment to the poster keeps the cells of the price. -/
theorem settlePoster_priceScalars (L : L1Ledger) (f : Funding) (p : Address) (amount : U256) :
    (L.settlePoster f p amount).priceScalars = L.priceScalars := by
  unfold settlePoster
  split <;> rfl

/-- The payments do not change what the price adjustment reads. -/
theorem settled_priceScalars (L : L1Ledger) (f : Funding) (arbosVersion units : U64) (p : Address)
    (weiSpent l1Basefee : U256) :
    (L.settled f arbosVersion units p weiSpent l1Basefee).priceScalars = L.priceScalars := by
  rw [settled, settlePoster_priceScalars, paidRewards_priceScalars, account_priceScalars,
    register_priceScalars]

end L1Ledger

end ArbReth
