import ArbReth.Proofs.L1Pricing.Initial
import ArbReth.Proofs.L1Pricing.Update
import Mathlib.Tactic.Linarith

/-!
# `ArbReth.Proofs.L1Pricing.Effect`: the exact effect of an update on the ledger

`exactWei`, `exactReward`, `exactRewardPaid`, `exactDue` and `exactDuePaid` are the exact
amounts of an update, over the natural numbers and the integers: the wei that are
accounted for, the reward, and the two payments. `update_effect` says that an accepted
update from version 10 on moves exactly these, when no exact result leaves the range of
its type (`L1Ledger.Fits`). The stages of the update are taken one by one: `Credited`
after the debts are recorded, `Rewarded` after the rewards are paid, and `Effect` after
the poster is paid.
-/

set_option autoImplicit false

namespace ArbReth

open ArbReth.Program

namespace L1Ledger

/-! ### The exact amounts -/

section
variable (L : L1Ledger) (units : U64) (p : Address) (weiSpent l1Basefee : U256)

/-- The wei that are accounted for: at most the amortized cost cap, when there is one. -/
def exactWei : Nat :=
  if L.amortizedCostCapBips = 0 then weiSpent.toNat
  else min (l1Basefee.toNat * units.toNat * L.amortizedCostCapBips.toNat / 10000) weiSpent.toNat

/-- The reward for the units. -/
def exactReward : Nat := units.toNat * L.perUnitReward.toNat

/-- The reward that is paid. -/
def exactRewardPaid : Nat := min L.l1FeesAvailable.toNat (L.exactReward units)

/-- The amount due to the poster with the wei accounted for. -/
def exactDue : Int := (L.dueTo p).toInt + L.exactWei units weiSpent l1Basefee

/-- The payment to the poster. -/
def exactDuePaid : Nat :=
  min (L.l1FeesAvailable.toNat - L.exactRewardPaid units)
    (L.exactDue units p weiSpent l1Basefee).toNat

/-- No exact result of the update leaves the range of its type. -/
structure Fits : Prop where
  room : L.IsPoster p ∨ L.count ≠ BitVec.allOnes 64
  cap : l1Basefee.toNat * units.toNat * L.amortizedCostCapBips.toNat < 2 ^ 256
  wei : L.exactWei units weiSpent l1Basefee < 2 ^ 255
  due : I256.InRange (L.exactDue units p weiSpent l1Basefee)
  totalRaised : I256.InRange (L.totalFundsDue.toInt + L.exactDue units p weiSpent l1Basefee)
  total : I256.InRange (L.totalFundsDue.toInt + L.exactWei units weiSpent l1Basefee)
  rewards : I256.InRange (L.fundsDueForRewards.toInt + L.exactReward units)
  totalSettled : I256.InRange (L.totalFundsDue.toInt + L.exactWei units weiSpent l1Basefee
    + (L.exactDue units p weiSpent l1Basefee - L.exactDuePaid units p weiSpent l1Basefee))
  totalPaid : I256.InRange (L.totalFundsDue.toInt + L.exactWei units weiSpent l1Basefee
    - L.exactDuePaid units p weiSpent l1Basefee)
  rewardReceived : (L.balance L.payRewardsTo).toNat + L.exactRewardPaid units < 2 ^ 256
  dueReceived : (L.balance (L.payee p)).toNat
    + (if L.payee p = L.payRewardsTo then L.exactRewardPaid units else 0)
    + L.exactDuePaid units p weiSpent l1Basefee < 2 ^ 256

/-- The exact effect of the update: the ledger `L'` is reached from `L`. -/
structure Effect (L' : L1Ledger) : Prop where
  fees : L'.l1FeesAvailable.toNat + L.exactRewardPaid units
    + L.exactDuePaid units p weiSpent l1Basefee = L.l1FeesAvailable.toNat
  rewards : L'.fundsDueForRewards.toInt
    = L.fundsDueForRewards.toInt + L.exactReward units - L.exactRewardPaid units
  due : (L'.fundsDue p).toInt
    = L.exactDue units p weiSpent l1Basefee - L.exactDuePaid units p weiSpent l1Basefee
  total : L'.totalFundsDue.toInt = L.totalFundsDue.toInt + L.exactWei units weiSpent l1Basefee
    - L.exactDuePaid units p weiSpent l1Basefee
  pool : (L'.balance l1PricerFundsPoolAddress).toNat + L.exactRewardPaid units
    + L.exactDuePaid units p weiSpent l1Basefee = (L.balance l1PricerFundsPoolAddress).toNat
  received : ∀ a, a ≠ l1PricerFundsPoolAddress → (L'.balance a).toNat = (L.balance a).toNat
    + (if a = L.payRewardsTo then L.exactRewardPaid units else 0)
    + (if a = L.payee p then L.exactDuePaid units p weiSpent l1Basefee else 0)
  payTo : L'.payTo p = L.payee p
  others : ∀ q, q ≠ p → L'.fundsDue q = L.fundsDue q ∧ L'.payTo q = L.payTo q

end

/-! ### The stages -/

section
variable {L : L1Ledger} {units : U64} {p : Address} {weiSpent l1Basefee : U256}

/-- Where the product fits, the wei accounted for are the exact ones. -/
theorem toNat_accounted {v : U64} (hv : arbosVersion3 ≤ v)
    (hcap : l1Basefee.toNat * units.toNat * L.amortizedCostCapBips.toNat < 2 ^ 256) :
    (L.accounted v units weiSpent l1Basefee).toNat = L.exactWei units weiSpent l1Basefee := by
  unfold accounted exactWei
  by_cases hzero : L.amortizedCostCapBips = 0
  · rw [if_neg fun h => h.2 hzero, if_pos hzero]
  rw [if_pos ⟨hv, hzero⟩, if_neg hzero]
  have hpos : 0 < L.amortizedCostCapBips.toNat :=
    Nat.pos_of_ne_zero fun h => hzero (BitVec.eq_of_toNat_eq h)
  have hle : l1Basefee.toNat * units.toNat
      ≤ l1Basefee.toNat * units.toNat * L.amortizedCostCapBips.toNat :=
    Nat.le_mul_of_pos_right _ hpos
  have hcost : (L.costCap units l1Basefee).toNat
      = l1Basefee.toNat * units.toNat * L.amortizedCostCapBips.toNat / 10000 := by
    rw [costCap, BitVec.toNat_udiv, toNat_saturatingMul, toNat_saturatingMul, U256.toNat_ofU64,
      U256.toNat_ofU64, show ((10000 : U256).toNat) = 10000 from rfl]
    rw [Nat.min_eq_left (show l1Basefee.toNat * units.toNat ≤ 2 ^ 256 - 1 by omega),
      Nat.min_eq_left (by omega)]
  rw [← hcost]
  split <;> rename_i h <;> rw [BitVec.lt_def] at h <;> omega

/-- The total moves by the change of the one amount. -/
theorem toInt_totalFundsDue_setFundsDue {val : I256} {total due prev : Int}
    (htotal : L.totalFundsDue.toInt = total) (hval : val.toInt = due)
    (hprev : (L.fundsDue p).toInt = prev) (hraised : I256.InRange (total + due))
    (hmoved : I256.InRange (total + due - prev)) :
    (L.setFundsDue p val).totalFundsDue.toInt = total + due - prev := by
  show (I256.clamp ((I256.clamp _).toInt - _)).toInt = _
  rw [htotal, hval, hprev, I256.toInt_clamp_of_inRange hraised, I256.toInt_clamp_of_inRange hmoved]

/-- The setter changes the amount of its poster. -/
theorem fundsDue_setFundsDue_self (L : L1Ledger) (p : Address) (val : I256) :
    (L.setFundsDue p val).fundsDue p = val := Function.update_self _ _ _

/-- The setter keeps the amounts of the others. -/
theorem fundsDue_setFundsDue_of_ne (L : L1Ledger) {p q : Address} (h : q ≠ p) (val : I256) :
    (L.setFundsDue p val).fundsDue q = L.fundsDue q := Function.update_of_ne h _ _

/-- What the ledger `L₂` has in common with `L` when a registered poster is credited and
the reward is accrued. -/
structure Credited (L : L1Ledger) (units : U64) (p : Address) (weiSpent l1Basefee : U256)
    (L₂ : L1Ledger) : Prop where
  fees : L₂.l1FeesAvailable = L.l1FeesAvailable
  payRewardsTo : L₂.payRewardsTo = L.payRewardsTo
  perUnitReward : L₂.perUnitReward = L.perUnitReward
  balance : L₂.balance = L.balance
  payTo : L₂.payTo p = L.payee p
  rewards : L₂.fundsDueForRewards.toInt = L.fundsDueForRewards.toInt + L.exactReward units
  due : (L₂.fundsDue p).toInt = L.exactDue units p weiSpent l1Basefee
  total : L₂.totalFundsDue.toInt = L.totalFundsDue.toInt + L.exactWei units weiSpent l1Basefee
  others : ∀ q, q ≠ p → L₂.fundsDue q = L.fundsDue q ∧ L₂.payTo q = L.payTo q

/-- Where all values fit, the accounting credits the exact amounts. -/
theorem credited_account {v : U64} (hv : arbosVersion3 ≤ v)
    (hfits : L.Fits units p weiSpent l1Basefee) :
    L.Credited units p weiSpent l1Basefee
      ((L.register p).account v units p weiSpent l1Basefee) := by
  have hscalars := register_toL1Scalars L p
  have hdue : (L.register p).fundsDue p = L.dueTo p := register_fundsDue_self L p
  have htotal := register_totalFundsDue L p
  have hothers := fun q (h : q ≠ p) => register_of_ne L h
  have hbalance := register_balance L p
  have hpayTo := register_payTo_self L p
  -- The registered ledger agrees with `L` on all that the stages read.
  generalize L.register p = L₁ at hscalars hdue htotal hothers hbalance hpayTo
  have hbips : L₁.amortizedCostCapBips = L.amortizedCostCapBips :=
    congrArg L1Scalars.amortizedCostCapBips hscalars
  have hperUnit : L₁.perUnitReward = L.perUnitReward := congrArg L1Scalars.perUnitReward hscalars
  have hrewards : L₁.fundsDueForRewards = L.fundsDueForRewards :=
    congrArg L1Scalars.fundsDueForRewards hscalars
  -- The wei are below `2 ^ 255`, so the cast to a signed word is exact.
  have hwei : (I256.ofU256 ((L₁.takeUnits units).accounted v units weiSpent l1Basefee)).toInt
      = L.exactWei units weiSpent l1Basefee := by
    have hcap : l1Basefee.toNat * units.toNat
        * (L₁.takeUnits units).amortizedCostCapBips.toNat < 2 ^ 256 := by
      show _ * L₁.amortizedCostCapBips.toNat < _
      rw [hbips]
      exact hfits.cap
    have hexact : (L₁.takeUnits units).exactWei units weiSpent l1Basefee
        = L.exactWei units weiSpent l1Basefee := by
      show (if L₁.amortizedCostCapBips = 0 then _
        else min (_ * L₁.amortizedCostCapBips.toNat / _) _) = _
      rw [hbips]
      rfl
    have hlt := hfits.wei
    rw [I256.toInt_ofU256, toNat_accounted hv hcap, hexact]
    omega
  -- The amount due to the poster, with the wei.
  have hval : ((L₁.fundsDue p).saturatingAdd
      (I256.ofU256 ((L₁.takeUnits units).accounted v units weiSpent l1Basefee))).toInt
      = L.exactDue units p weiSpent l1Basefee := by
    show (I256.clamp _).toInt = _
    rw [hwei, hdue]
    exact I256.toInt_clamp_of_inRange hfits.due
  -- The product of two 64-bit numbers saturates nothing.
  have hreward : ((I256.ofU256 (U256.ofU64 units)).saturatingMul
      (I256.ofU256 (U256.ofU64 L₁.perUnitReward))).toInt = L.exactReward units := by
    have hu := units.isLt
    have hr := L.perUnitReward.isLt
    have hmul : units.toNat * L.perUnitReward.toNat ≤ 2 ^ 64 * 2 ^ 64 :=
      Nat.mul_le_mul hu.le hr.le
    show (I256.clamp _).toInt = _
    rw [I256.toInt_ofU256_ofU64, I256.toInt_ofU256_ofU64, hperUnit, ← Int.natCast_mul]
    exact I256.toInt_clamp_of_inRange ⟨by omega, by omega⟩
  exact
    { fees := show L₁.l1FeesAvailable = _ from congrArg L1Scalars.l1FeesAvailable hscalars
      payRewardsTo := show L₁.payRewardsTo = _ from congrArg L1Scalars.payRewardsTo hscalars
      perUnitReward := hperUnit
      balance := hbalance
      payTo := hpayTo
      rewards := by
        show (I256.clamp (L₁.fundsDueForRewards.toInt
          + ((I256.ofU256 (U256.ofU64 units)).saturatingMul
          (I256.ofU256 (U256.ofU64 L₁.perUnitReward))).toInt)).toInt = _
        rw [hreward, hrewards]
        exact I256.toInt_clamp_of_inRange hfits.rewards
      due := by
        show (((L₁.takeUnits units).setFundsDue p _).fundsDue p).toInt = _
        rw [fundsDue_setFundsDue_self]
        exact hval
      total := by
        -- the amount due rises by the wei, and so does the total
        have hchange : L.totalFundsDue.toInt + L.exactDue units p weiSpent l1Basefee
            - (L.dueTo p).toInt = L.totalFundsDue.toInt + L.exactWei units weiSpent l1Basefee := by
          unfold exactDue
          omega
        rw [← hchange]
        exact toInt_totalFundsDue_setFundsDue (L := L₁.takeUnits units)
          (congrArg I256.toInt htotal) hval (congrArg I256.toInt hdue) hfits.totalRaised
          (hchange ▸ hfits.total)
      others := fun q h => ⟨(fundsDue_setFundsDue_of_ne _ h _).trans (hothers q h).1,
        (hothers q h).2⟩ }

/-- The reward that is paid is the exact one. -/
theorem toNat_rewardPayment {L₂ : L1Ledger} (hc : L.Credited units p weiSpent l1Basefee L₂) :
    (L₂.rewardPayment .counter units).toNat = L.exactRewardPaid units := by
  have howed : (L₂.owedReward units).toNat = L.exactReward units := by
    rw [toNat_owedReward, hc.perUnitReward, exactReward, Nat.mul_comm]
  have hfunds : (L₂.funds .counter).toNat = L.l1FeesAvailable.toNat :=
    congrArg BitVec.toNat hc.fees
  rw [rewardPayment, exactRewardPaid, ← howed, ← hfunds]
  split <;> rename_i h <;> rw [BitVec.lt_def] at h <;> omega

/-- The payment to the poster is the exact one, when `L₃` holds what is left of the funds
and the exact amount due. -/
theorem toNat_posterPayment {L₃ : L1Ledger}
    (hfees : L₃.l1FeesAvailable.toNat = L.l1FeesAvailable.toNat - L.exactRewardPaid units)
    (hdue : (L₃.fundsDue p).toInt = L.exactDue units p weiSpent l1Basefee) :
    (L₃.posterPayment .counter p).toNat = L.exactDuePaid units p weiSpent l1Basefee := by
  rw [exactDuePaid, ← hfees, ← hdue]
  by_cases hpos : (L₃.fundsDue p).isPositive = true
  -- a positive amount is the word that the payment is bounded by
  · have hnonneg : 0 ≤ (L₃.fundsDue p).toInt := by
      rw [I256.isPositive_iff] at hpos
      omega
    have htoU256 := I256.toNat_toU256 hnonneg
    rw [posterPayment_of_isPositive hpos, toNat_minWord]
    show min L₃.l1FeesAvailable.toNat _ = _
    omega
  -- nothing is paid, and the exact payment is zero too
  · rw [posterPayment_of_not_isPositive hpos]
    rw [I256.isPositive_iff] at hpos
    have hzero : (0 : U256).toNat = 0 := rfl
    omega

/-- What the ledger `L₃` has in common with `L` when in addition the rewards are paid. -/
structure Rewarded (L : L1Ledger) (units : U64) (p : Address) (weiSpent l1Basefee : U256)
    (L₃ : L1Ledger) : Prop where
  fees : L₃.l1FeesAvailable.toNat = L.l1FeesAvailable.toNat - L.exactRewardPaid units
  rewards : L₃.fundsDueForRewards.toInt
    = L.fundsDueForRewards.toInt + L.exactReward units - L.exactRewardPaid units
  due : (L₃.fundsDue p).toInt = L.exactDue units p weiSpent l1Basefee
  total : L₃.totalFundsDue.toInt = L.totalFundsDue.toInt + L.exactWei units weiSpent l1Basefee
  payTo : L₃.payTo p = L.payee p
  pool : (L₃.balance l1PricerFundsPoolAddress).toNat + L.exactRewardPaid units
    = (L.balance l1PricerFundsPoolAddress).toNat
  received : ∀ a, a ≠ l1PricerFundsPoolAddress → (L₃.balance a).toNat
    = (L.balance a).toNat + if a = L.payRewardsTo then L.exactRewardPaid units else 0
  others : ∀ q, q ≠ p → L₃.fundsDue q = L.fundsDue q ∧ L₃.payTo q = L.payTo q

/-- The payment of the rewards. -/
theorem rewarded_paidRewards {L₂ : L1Ledger} (hc : L.Credited units p weiSpent l1Basefee L₂)
    (hsolvent : L.l1FeesAvailable ≤ L.balance l1PricerFundsPoolAddress)
    (hrewards : L.payRewardsTo ≠ l1PricerFundsPoolAddress)
    (hfits : L.Fits units p weiSpent l1Basefee) :
    (L₂.debitRewards (L₂.rewardPayment .counter units)).refusal L₂.payRewardsTo
        (L₂.rewardPayment .counter units) = none
      ∧ L.Rewarded units p weiSpent l1Basefee (L₂.paidRewards .counter units) := by
  have hamount := toNat_rewardPayment hc
  have hle : L₂.rewardPayment .counter units ≤ L.l1FeesAvailable := by
    rw [← hc.fees]
    exact L₂.rewardPayment_le .counter units
  have hcover : L₂.rewardPayment .counter units
      ≤ (L₂.debitRewards (L₂.rewardPayment .counter units)).balance l1PricerFundsPoolAddress := by
    show _ ≤ L₂.balance l1PricerFundsPoolAddress
    rw [hc.balance]
    exact BitVec.le_trans hle hsolvent
  have hfit : ((L₂.debitRewards (L₂.rewardPayment .counter units)).balance L₂.payRewardsTo).toNat
      + (L₂.rewardPayment .counter units).toNat < 2 ^ 256 := by
    show (L₂.balance L₂.payRewardsTo).toNat + _ < _
    rw [hamount, hc.balance, hc.payRewardsTo]
    exact hfits.rewardReceived
  have hdst : L₂.payRewardsTo ≠ l1PricerFundsPoolAddress := by rwa [hc.payRewardsTo]
  have hbalance := toNat_balance_pay (L₂.debitRewards (L₂.rewardPayment .counter units)) .counter
    hdst hcover hfit
  have hbefore : (L₂.debitRewards (L₂.rewardPayment .counter units)).balance = L.balance :=
    hc.balance
  have hpaid : (L₂.debitRewards (L₂.rewardPayment .counter units)).pay .counter L₂.payRewardsTo
      (L₂.rewardPayment .counter units) = L₂.paidRewards .counter units := rfl
  rw [hpaid, hamount, hbefore, hc.payRewardsTo] at hbalance
  refine ⟨refusal_eq_none hcover fun _ => hfit, ?_⟩
  exact
    { fees := by
        show (L₂.l1FeesAvailable - L₂.rewardPayment .counter units).toNat = _
        rw [hc.fees, BitVec.toNat_sub_of_le hle, hamount]
      rewards := by
        -- at most the accrued reward is taken back, so nothing saturates
        have hexact : L.exactRewardPaid units ≤ L.exactReward units := Nat.min_le_right _ _
        have hmul : L.exactReward units ≤ 2 ^ 64 * 2 ^ 64 :=
          Nat.mul_le_mul units.isLt.le L.perUnitReward.isLt.le
        have hlow := L.fundsDueForRewards.le_toInt
        have hhigh := hfits.rewards.2
        show (I256.clamp (L₂.fundsDueForRewards.toInt - (I256.ofU256 _).toInt)).toInt = _
        rw [hc.rewards, I256.toInt_ofU256, hamount, min_eq_left (by omega)]
        exact I256.toInt_clamp_of_inRange ⟨by omega, by omega⟩
      due := hc.due
      total := hc.total
      payTo := hc.payTo
      pool := hbalance.1
      received := hbalance.2
      others := hc.others }

/-- The payment to the poster. -/
theorem effect_settlePoster {L₃ : L1Ledger} (hr : L.Rewarded units p weiSpent l1Basefee L₃)
    (hsolvent : L.l1FeesAvailable ≤ L.balance l1PricerFundsPoolAddress)
    (hposter : L.payee p ≠ l1PricerFundsPoolAddress)
    (hfits : L.Fits units p weiSpent l1Basefee) :
    L₃.refusal (L₃.payTo p) (L₃.posterPayment .counter p) = none
      ∧ L.Effect units p weiSpent l1Basefee
        (L₃.settlePoster .counter p (L₃.posterPayment .counter p)) := by
  have hamount := toNat_posterPayment hr.fees hr.due
  have hle : L₃.posterPayment .counter p ≤ L₃.l1FeesAvailable := L₃.posterPayment_le .counter p
  generalize L₃.posterPayment .counter p = amount at hamount hle
  have hleNat := BitVec.le_def.mp hle
  have hfeesLe : L.exactRewardPaid units ≤ L.l1FeesAvailable.toNat := Nat.min_le_left _ _
  -- The pool account covers the counter, and both have paid the same reward.
  have hcover : amount ≤ L₃.balance l1PricerFundsPoolAddress := by
    have hpool := hr.pool
    have hfees := hr.fees
    rw [BitVec.le_def] at hsolvent ⊢
    omega
  have hfit : (L₃.balance (L₃.payTo p)).toNat + amount.toNat < 2 ^ 256 := by
    rw [hr.payTo, hr.received _ hposter, hamount]
    exact hfits.dueReceived
  refine ⟨refusal_eq_none hcover fun _ => hfit, ?_⟩
  have hdst : L₃.payTo p ≠ l1PricerFundsPoolAddress := by rwa [hr.payTo]
  unfold settlePoster
  split
  · -- Nothing is paid.
    rename_i hzero
    have hnothing : L.exactDuePaid units p weiSpent l1Basefee = 0 := by
      rw [← hamount, hzero]
      rfl
    have hpool := hr.pool
    have hfees := hr.fees
    have hdue := hr.due
    have htotal := hr.total
    refine ⟨?_, hr.rewards, ?_, ?_, ?_, ?_, hr.payTo, hr.others⟩
    · omega
    · omega
    · omega
    · omega
    · intro a ha
      rw [hr.received a ha, hnothing, ite_self, Nat.add_zero]
  · -- The payment is taken off the amount due.
    have hbalance := toNat_balance_pay L₃ .counter hdst hcover hfit
    have hval : ((L₃.fundsDue p).saturatingSub (I256.ofU256 amount)).toInt
        = L.exactDue units p weiSpent l1Basefee - L.exactDuePaid units p weiSpent l1Basefee := by
      obtain ⟨hlow, hhigh⟩ := hfits.due
      have hpaidLe : L.exactDuePaid units p weiSpent l1Basefee
          ≤ (L.exactDue units p weiSpent l1Basefee).toNat := Nat.min_le_right _ _
      show (I256.clamp (_ - (I256.ofU256 amount).toInt)).toInt = _
      rw [hr.due, I256.toInt_ofU256, hamount, min_eq_left (by omega)]
      exact I256.toInt_clamp_of_inRange ⟨by omega, by omega⟩
    exact
      { fees := by
          have hfees := hr.fees
          show (L₃.l1FeesAvailable - amount).toNat + _ + _ = _
          rw [BitVec.toNat_sub_of_le hle]
          omega
        rewards := hr.rewards
        due := by
          rw [fundsDue_setFundsDue_self]
          exact hval
        total := by
          -- the total falls by the payment, as the amount due does
          have hchange : L.totalFundsDue.toInt + L.exactWei units weiSpent l1Basefee
              + (L.exactDue units p weiSpent l1Basefee - L.exactDuePaid units p weiSpent l1Basefee)
              - L.exactDue units p weiSpent l1Basefee
              = L.totalFundsDue.toInt + L.exactWei units weiSpent l1Basefee
                - L.exactDuePaid units p weiSpent l1Basefee := by omega
          rw [← hchange]
          exact toInt_totalFundsDue_setFundsDue (L := L₃.pay .counter (L₃.payTo p) amount)
            hr.total hval hr.due hfits.totalSettled (hchange ▸ hfits.totalPaid)
        pool := by
          have hpool := hr.pool
          have hpaid := hbalance.1
          show ((L₃.pay .counter (L₃.payTo p) amount).balance l1PricerFundsPoolAddress).toNat
            + _ + _ = _
          omega
        received := by
          intro a ha
          have hpaid := hbalance.2 a ha
          show ((L₃.pay .counter (L₃.payTo p) amount).balance a).toNat = _
          rw [hpaid, hr.received a ha, hr.payTo, hamount]
        payTo := hr.payTo
        others := fun q h => ⟨(fundsDue_setFundsDue_of_ne _ h _).trans (hr.others q h).1,
          (hr.others q h).2⟩ }

/-- The end of the update does not touch what the effect is about. -/
theorem Effect.finish {L' : L1Ledger} (h : L.Effect units p weiSpent l1Basefee L')
    (f : Funding) (v updateTime : U64) :
    L.Effect units p weiSpent l1Basefee (L'.finish f v updateTime units) := by
  obtain ⟨htable, hbalance, hfees, hrewards⟩ := finish_frame L' f v updateTime units
  have hdue := congrArg PosterTable.fundsDue htable
  have hpayTo := congrArg PosterTable.payTo htable
  exact
    { fees := by
        rw [hfees]
        exact h.fees
      rewards := by
        rw [hrewards]
        exact h.rewards
      due := by
        rw [hdue]
        exact h.due
      total := by
        rw [congrArg PosterTable.totalFundsDue htable]
        exact h.total
      pool := by
        rw [hbalance]
        exact h.pool
      received := by
        rw [hbalance]
        exact h.received
      payTo := by
        rw [hpayTo]
        exact h.payTo
      others := by
        rw [hdue, hpayTo]
        exact h.others }

/-- An accepted update has the exact effect. -/
theorem spend_effect {v updateTime currentTime : U64} (hv : arbosVersion3 ≤ v)
    (htime : L.TimeOk updateTime currentTime)
    (hsolvent : L.l1FeesAvailable ≤ L.balance l1PricerFundsPoolAddress)
    (hrewards : L.payRewardsTo ≠ l1PricerFundsPoolAddress)
    (hposter : L.payee p ≠ l1PricerFundsPoolAddress)
    (hfits : L.Fits (L.allocated updateTime currentTime) p weiSpent l1Basefee) :
    ∃ L', L.spend .counter v updateTime currentTime p weiSpent l1Basefee = (.ok (), L')
      ∧ L.Effect (L.allocated updateTime currentTime) p weiSpent l1Basefee L' := by
  have hroom : ¬(¬L.IsPoster p ∧ L.count = BitVec.allOnes 64) := by
    rw [not_and_or, not_not]
    exact hfits.room
  have htime' : (L.register p).TimeOk updateTime currentTime := by
    rw [TimeOk, register_lastTime]
    exact htime
  unfold spend
  rw [if_neg hroom]
  simp only [htime', not_true_eq_false, if_false, register_allocated]
  have hc := credited_account hv hfits
  obtain ⟨haccept, hr⟩ := rewarded_paidRewards hc hsolvent hrewards hfits
  obtain ⟨haccept', heffect⟩ := effect_settlePoster hr hsolvent hposter hfits
  exact ⟨_, settle_of_accepted haccept haccept', heffect.finish _ _ _⟩

end

end L1Ledger

namespace L1Pricing
variable [Keccak]

/-- An accepted update from version 10 on, in a state where the pool account covers the
counter and no payment goes to the pool account itself, has exactly the effect of
`L1Ledger.Effect`. -/
theorem update_effect {sto : Storage} {A : Set Address}
    (hslots : (layout sto).Apart (L1Key.Among A)) {w : World} {L : L1Ledger}
    (hR : Represents sto A w L) (version : U64)
    {arbosVersion : U64} (hversion : arbosVersion10 ≤ arbosVersion) {updateTime currentTime : U64}
    (htime : L.TimeOk updateTime currentTime) {p : Address} (hp : p ∈ A) (weiSpent l1Basefee : U256)
    (hsolvent : L.l1FeesAvailable ≤ L.balance l1PricerFundsPoolAddress)
    (hrewards : L.payRewardsTo ≠ l1PricerFundsPoolAddress)
    (hposter : L.payee p ≠ l1PricerFundsPoolAddress)
    (hfits : L.Fits (L.allocated updateTime currentTime) p weiSpent l1Basefee) :
    ∃ w' L', World.run ((openL1PricingState sto version).updateForBatchPosterSpending arbosVersion
          updateTime currentTime p weiSpent l1Basefee) w = (.ok (), w')
      ∧ Represents sto A w' L'
      ∧ L.Effect (L.allocated updateTime currentTime) p weiSpent l1Basefee L' := by
  have hthree : arbosVersion3 ≤ arbosVersion := BitVec.le_trans (by decide) hversion
  obtain ⟨L', hspend, heffect⟩ := L1Ledger.spend_effect hthree htime hsolvent hrewards hposter hfits
  obtain ⟨w', hrun, hR'⟩ := updateForBatchPosterSpending_realizes hslots version L hversion
    updateTime currentTime hp weiSpent l1Basefee w hR
  rw [hspend] at hrun hR'
  exact ⟨w', L', hrun, hR', heffect⟩

end L1Pricing

namespace L1Pricing
attribute [local instance] sampleHash

/-- A new poster spends 50 wei on four units. The reward of 40 wei is paid in full, and
50 wei go to the poster. -/
theorem update_effect_sample :
    ∃ w' L', World.run ((openL1PricingState sampleRoot 10).updateForBatchPosterSpending 10 5 5 7
          50 0) sampleWorld = (.ok (), w')
      ∧ Represents sampleRoot Set.univ w' L'
      ∧ sampleLedger.Effect (sampleLedger.allocated 5 5) 7 50 0 L' :=
  update_effect sampleRoot_layout_apart sampleWorld_represents 10 (by decide)
    (by decide +kernel) (Set.mem_univ 7) 50 0 (by decide +kernel) (by decide +kernel)
    (by decide +kernel)
    { room := by decide +kernel
      cap := by decide +kernel
      wei := by decide +kernel
      due := by decide +kernel
      totalRaised := by decide +kernel
      total := by decide +kernel
      rewards := by decide +kernel
      totalSettled := by decide +kernel
      totalPaid := by decide +kernel
      rewardReceived := by decide +kernel
      dueReceived := by decide +kernel }

end L1Pricing

end ArbReth
