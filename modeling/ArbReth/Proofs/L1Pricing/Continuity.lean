import ArbReth.Proofs.L1Pricing.Initial
import ArbReth.Proofs.L1Pricing.Update

/-!
# `ArbReth.Proofs.L1Pricing.Continuity`: the upgrade from version 9 to version 10

The upgrade to version 10 sets the counter `l1FeesAvailable` to the balance of the pool
account (`Synced`). From then on the update pays from the counter, where it paid from the
balance before. `upgrade_continuity` compares the two updates on one state: they end
alike and in the same ledger, but for the counter, which the older one does not touch.

The comparison is made stage by stage. `withFees` is the ledger with another counter. All
stages before the payments commute with it. The payments do while the ledger is synced
and neither recipient is the pool account, because then both sources of the funds shrink
by each payment.

A ledger that is synced can pay what the update pays. So a payment is refused only when the
recipient would overflow (`OverflowRefused`). Then both updates panic, and the pool account
is debited without the counter: this is the one way in which the ledger ends unsynced.
-/

set_option autoImplicit false

namespace ArbReth

open ArbReth.Program

namespace L1Ledger

/-- The ledger with another counter. -/
def withFees (L : L1Ledger) (fees : U256) : L1Ledger := { L with l1FeesAvailable := fees }

/-- The update from version 10 on has panicked because the recipient of a payment would
overflow. Both of its payments have one message. -/
def OverflowRefused (r : Outcome UpdateSpendingError Unit) : Prop :=
  r = .panic (Funding.counter.posterRefused ++ TransferError.overflowPayment.debug)

/-- An update that returns is not refused. -/
theorem not_overflowRefused_ok : ¬OverflowRefused (.ok ()) := fun h => by cases h

/-- An update that fails with an error is not refused. -/
theorem not_overflowRefused_err (e : UpdateSpendingError) : ¬OverflowRefused (.err e) :=
  fun h => by cases h

/-- The counter equals the balance of the pool account. -/
def Synced (L : L1Ledger) : Prop := L.l1FeesAvailable = L.balance l1PricerFundsPoolAddress

instance (L : L1Ledger) : Decidable L.Synced := inferInstanceAs (Decidable (_ = _))

variable {L : L1Ledger} {fees : U256} {p : Address}

/-! ### The stages before the payments -/

/-- The registration does not read the counter. -/
theorem register_withFees : (L.withFees fees).register p = (L.register p).withFees fees := by
  unfold register
  split <;> rename_i h
  · rw [if_pos (show L.IsPoster p from h)]
  · rw [if_neg (show ¬L.IsPoster p from h)]
    rfl

/-- The registration keeps the counter synced. -/
theorem Synced.register (h : L.Synced) : (L.register p).Synced := by
  have hfees : (L.register p).l1FeesAvailable = L.l1FeesAvailable :=
    congrArg L1Scalars.l1FeesAvailable (register_toL1Scalars L p)
  rw [Synced, hfees, register_balance]
  exact h

/-- From version 3 on, the cap is imposed in all versions. -/
theorem account_withFees {v v' : U64} (hv : arbosVersion7 ≤ v) (hv' : arbosVersion7 ≤ v')
    (units : U64) (weiSpent l1Basefee : U256) :
    (L.withFees fees).account v units p weiSpent l1Basefee
      = (L.account v' units p weiSpent l1Basefee).withFees fees := by
  have hthree : ∀ x : U64, arbosVersion7 ≤ x → arbosVersion3 ≤ x := fun x hx =>
    BitVec.le_trans (by decide) hx
  have haccounted : ((L.withFees fees).takeUnits units).accounted v units weiSpent l1Basefee
      = (L.takeUnits units).accounted v' units weiSpent l1Basefee := by
    unfold accounted
    simp only [hthree v hv, hthree v' hv', true_and]
    rfl
  unfold account
  dsimp only
  rw [haccounted]
  rfl

/-! ### The payments -/

/-- Both sources hold the same funds. -/
theorem Synced.funds (h : L.Synced) : (L.withFees fees).funds .pool = L.funds .counter := h.symm

/-- A payment to another account keeps the ledger synced. -/
theorem Synced.pay (h : L.Synced) {dst : Address} (hdst : dst ≠ l1PricerFundsPoolAddress)
    (amount : U256) : (L.pay .counter dst amount).Synced := by
  show L.l1FeesAvailable - amount = movedBalance L.balance _ dst amount _
  rw [movedBalance, if_neg hdst.symm, if_pos rfl, h]

/-- A payment that the counter covers is refused only when the recipient would overflow. -/
theorem Synced.eq_overflowPayment (h : L.Synced) {dst : Address} {amount : U256}
    (hle : amount ≤ L.l1FeesAvailable) {e : TransferError}
    (hrefused : L.refusal dst amount = some e) :
    e = .overflowPayment := by
  rw [h] at hle
  rw [refusal, transferRefusal, if_neg (BitVec.not_lt.mpr hle)] at hrefused
  split at hrefused
  · exact (Option.some.inj hrefused).symm
  · cases hrefused

/-- A refused payment leaves the pool account debited, and the counter as it was. -/
theorem Synced.not_transferred (h : L.Synced) {dst : Address} {amount : U256}
    (hrefused : L.refusal dst amount = some .overflowPayment) :
    ¬(L.transferred dst amount).Synced := by
  intro hsynced
  have hbalance : (L.transferred dst amount).balance l1PricerFundsPoolAddress
      = L.balance l1PricerFundsPoolAddress - amount := by
    rw [refusal] at hrefused
    simp only [transferred, transferBalance, hrefused, if_pos]
  have hcounter : L.l1FeesAvailable = L.balance l1PricerFundsPoolAddress - amount :=
    hsynced.trans hbalance
  have hsame : L.balance l1PricerFundsPoolAddress - amount = L.balance l1PricerFundsPoolAddress :=
    hcounter.symm.trans h
  refine ne_zero_of_refused hrefused ?_
  bv_omega

/-- Both paths pay the same reward. -/
theorem Synced.rewardPayment (h : L.Synced) (units : U64) :
    (L.withFees fees).rewardPayment .pool units = L.rewardPayment .counter units := by
  unfold L1Ledger.rewardPayment
  rw [h.funds]
  rfl

/-- Both paths pay the poster the same. -/
theorem Synced.posterPayment (h : L.Synced) :
    (L.withFees fees).posterPayment .pool p = L.posterPayment .counter p := by
  unfold L1Ledger.posterPayment
  rw [h.funds]
  rfl

/-- A reward paid elsewhere lowers the counter and the pool alike. -/
theorem Synced.paidRewards (h : L.Synced) (hdst : L.payRewardsTo ≠ l1PricerFundsPoolAddress)
    (units : U64) : (L.paidRewards .counter units).Synced :=
  Synced.pay (L := L.debitRewards _) h hdst _

/-- Both paths have the same ledger after the reward, but for the counter. -/
theorem Synced.paidRewards_withFees (h : L.Synced) (units : U64) :
    (L.withFees fees).paidRewards .pool units = (L.paidRewards .counter units).withFees fees := by
  unfold L1Ledger.paidRewards
  rw [h.rewardPayment]
  rfl

/-- Both paths settle the poster alike, but for the counter. -/
theorem settlePoster_withFees (amount : U256) :
    (L.withFees fees).settlePoster .pool p amount
      = (L.settlePoster .counter p amount).withFees fees := by
  unfold settlePoster
  split <;> rfl

/-- A payment to a poster lowers the counter and the pool alike. -/
theorem Synced.settlePoster (h : L.Synced) (hdst : L.payTo p ≠ l1PricerFundsPoolAddress)
    (amount : U256) : (L.settlePoster .counter p amount).Synced := by
  unfold L1Ledger.settlePoster
  split
  · exact h
  · exact h.pay hdst amount

/-! ### The end of the update -/

/-- Both paths write the same surplus and the same price. -/
theorem Synced.finish_withFees (h : L.Synced) {v v' : U64} (hv : arbosVersion7 ≤ v)
    (hv' : arbosVersion7 ≤ v') (updateTime units : U64) :
    (L.withFees fees).finish .pool v updateTime units
      = (L.finish .counter v' updateTime units).withFees fees := by
  -- From version 7 on the surplus is stored with its sign.
  have hstored : ∀ s : I256, storedSurplus v s = storedSurplus v' s := by
    intro s
    rw [storedSurplus, storedSurplus, if_neg (BitVec.not_lt.mpr hv), if_neg (BitVec.not_lt.mpr hv')]
  unfold finish
  have hfunds : ({ L.withFees fees with lastUpdateTime := updateTime } : L1Ledger).funds .pool
      = ({ L with lastUpdateTime := updateTime } : L1Ledger).funds .counter := h.symm
  have hsurplus : ({ L.withFees fees with lastUpdateTime := updateTime } : L1Ledger).surplus .pool
      = ({ L with lastUpdateTime := updateTime } : L1Ledger).surplus .counter := by
    unfold surplus
    rw [hfunds]
    rfl
  unfold adjustPrice
  split
  · rw [hsurplus, hstored]
    rfl
  · rfl

/-- The surplus and the price do not touch the counter. -/
theorem Synced.finish (h : L.Synced) (v updateTime units : U64) :
    (L.finish .counter v updateTime units).Synced := by
  unfold L1Ledger.finish L1Ledger.adjustPrice
  split <;> exact h

/-- The payments and the end of the two updates, from one synced ledger. Both updates pay the
same amounts from the same balances, so each of the two payments is refused in both or in
none. -/
theorem Synced.settle_withFees (h : L.Synced) (hrewards : L.payRewardsTo ≠ l1PricerFundsPoolAddress)
    (hposter : L.payTo p ≠ l1PricerFundsPoolAddress) {v v' : U64} (hv : arbosVersion7 ≤ v)
    (hv' : arbosVersion7 ≤ v') (updateTime units : U64) :
    ((L.withFees fees).settle .pool v updateTime units p).1.Alike
        (L.settle .counter v' updateTime units p).1
      ∧ ((L.withFees fees).settle .pool v updateTime units p).2
        = (L.settle .counter v' updateTime units p).2.withFees fees
      ∧ ((L.settle .counter v' updateTime units p).2.Synced
        ↔ ¬OverflowRefused (L.settle .counter v' updateTime units p).1) := by
  have hpay : (L.withFees fees).rewardPayment .pool units = L.rewardPayment .counter units :=
    h.rewardPayment units
  have hpaid := h.paidRewards hrewards units
  have hpaid' : (L.withFees fees).paidRewards .pool units
      = (L.paidRewards .counter units).withFees fees := h.paidRewards_withFees units
  have hdue : ((L.paidRewards .counter units).withFees fees).posterPayment .pool p
      = (L.paidRewards .counter units).posterPayment .counter p := hpaid.posterPayment
  cases hr : (L.debitRewards (L.rewardPayment .counter units)).refusal L.payRewardsTo
      (L.rewardPayment .counter units) with
  | some e =>
      have hr' : ((L.withFees fees).debitRewards
          ((L.withFees fees).rewardPayment .pool units)).refusal (L.withFees fees).payRewardsTo
          ((L.withFees fees).rewardPayment .pool units) = some e := by
        rw [hpay]
        exact hr
      have hdebited : (L.debitRewards (L.rewardPayment .counter units)).Synced := h
      obtain rfl := hdebited.eq_overflowPayment (L.rewardPayment_le .counter units) hr
      rw [settle_of_rewards_refused hr, settle_of_rewards_refused hr', hpay]
      exact ⟨trivial, rfl, iff_of_false (hdebited.not_transferred hr) fun hn => hn rfl⟩
  | none =>
      have hr' : ((L.withFees fees).debitRewards
          ((L.withFees fees).rewardPayment .pool units)).refusal (L.withFees fees).payRewardsTo
          ((L.withFees fees).rewardPayment .pool units) = none := by
        rw [hpay]
        exact hr
      cases hp : (L.paidRewards .counter units).refusal (L.payTo p)
          ((L.paidRewards .counter units).posterPayment .counter p) with
      | some e =>
          have hp' : ((L.withFees fees).paidRewards .pool units).refusal ((L.withFees fees).payTo p)
              (((L.withFees fees).paidRewards .pool units).posterPayment .pool p) = some e := by
            rw [hpaid', hdue]
            exact hp
          obtain rfl := hpaid.eq_overflowPayment (posterPayment_le _ .counter p) hp
          rw [settle_of_poster_refused hr hp, settle_of_poster_refused hr' hp', hpaid', hdue]
          exact ⟨trivial, rfl, iff_of_false (hpaid.not_transferred hp) fun hn => hn rfl⟩
      | none =>
          have hp' : ((L.withFees fees).paidRewards .pool units).refusal ((L.withFees fees).payTo p)
              (((L.withFees fees).paidRewards .pool units).posterPayment .pool p) = none := by
            rw [hpaid', hdue]
            exact hp
          have hsettled := hpaid.settlePoster (p := p) hposter
            ((L.paidRewards .counter units).posterPayment .counter p)
          rw [settle_of_accepted hr hp, settle_of_accepted hr' hp', hpaid', hdue,
            settlePoster_withFees, hsettled.finish_withFees hv hv']
          exact ⟨rfl, rfl, iff_of_true (hsettled.finish _ _ _) not_overflowRefused_ok⟩

/-! ### The whole update -/

variable (fees) in
/-- The two updates, from one synced ledger. -/
theorem Synced.spend_withFees (h : L.Synced) (hrewards : L.payRewardsTo ≠ l1PricerFundsPoolAddress)
    (hposter : L.payee p ≠ l1PricerFundsPoolAddress) {v v' : U64} (hv : arbosVersion7 ≤ v)
    (hv' : arbosVersion7 ≤ v') (updateTime currentTime : U64) (weiSpent l1Basefee : U256) :
    ((L.withFees fees).spend .pool v updateTime currentTime p weiSpent l1Basefee).1.Alike
        (L.spend .counter v' updateTime currentTime p weiSpent l1Basefee).1
      ∧ ((L.withFees fees).spend .pool v updateTime currentTime p weiSpent l1Basefee).2
        = (L.spend .counter v' updateTime currentTime p weiSpent l1Basefee).2.withFees fees
      ∧ ((L.spend .counter v' updateTime currentTime p weiSpent l1Basefee).2.Synced
        ↔ ¬OverflowRefused
          (L.spend .counter v' updateTime currentTime p weiSpent l1Basefee).1) := by
  unfold spend
  by_cases hfull : ¬L.IsPoster p ∧ L.count = BitVec.allOnes 64
  -- a new poster does not fit: both panic in the same state
  · have hfull' : ¬(L.withFees fees).IsPoster p
        ∧ (L.withFees fees).count = BitVec.allOnes 64 := hfull
    rw [if_pos hfull, if_pos hfull']
    have hother : ("attempt to add with overflow" : String)
        ≠ Funding.counter.posterRefused ++ TransferError.overflowPayment.debug := by decide
    exact ⟨trivial, rfl, iff_of_true h fun hr => hother (Outcome.panic.inj hr)⟩
  have hfull' : ¬(¬(L.withFees fees).IsPoster p
      ∧ (L.withFees fees).count = BitVec.allOnes 64) := hfull
  rw [if_neg hfull, if_neg hfull', register_withFees]
  have hsync : (L.register p).Synced := h.register
  have hto : (L.register p).payRewardsTo ≠ l1PricerFundsPoolAddress := by
    rwa [congrArg L1Scalars.payRewardsTo (register_toL1Scalars L p)]
  have hdue : (L.register p).payTo p ≠ l1PricerFundsPoolAddress := by
    rwa [register_payTo_self]
  generalize L.register p = L₁ at hsync hto hdue
  by_cases htime : L₁.TimeOk updateTime currentTime
  · have htime' : (L₁.withFees fees).TimeOk updateTime currentTime := htime
    simp only [htime, htime', not_true_eq_false, if_false]
    have hallocated : (L₁.withFees fees).allocated updateTime currentTime
        = L₁.allocated updateTime currentTime := rfl
    rw [hallocated, account_withFees hv hv']
    exact Synced.settle_withFees (L := L₁.account v' (L₁.allocated updateTime currentTime) p
      weiSpent l1Basefee) hsync hto hdue hv hv' _ _
  · have htime' : ¬(L₁.withFees fees).TimeOk updateTime currentTime := htime
    simp only [htime, htime', not_false_eq_true, if_true]
    exact ⟨rfl, trivial, iff_of_true hsync (not_overflowRefused_err _)⟩

end L1Ledger

namespace L1Pricing
variable [Keccak] {sto : Storage} {A : Set Address}

/-- In a state where the counter equals the balance of the pool account and neither
recipient is the pool account, the update of version 7, 8 or 9 and that of version 10
end alike, in the same ledger but for the counter. The version 10 update keeps the
counter equal to the balance, unless it panics because a recipient would overflow. -/
theorem upgrade_continuity (hslots : (layout sto).Apart (L1Key.Among A)) {w : World}
    {L : L1Ledger} (hR : Represents sto A w L) (hsync : L.Synced)
    (hrewards : L.payRewardsTo ≠ l1PricerFundsPoolAddress) {p : Address}
    (hp : p ∈ A) (hposter : L.payee p ≠ l1PricerFundsPoolAddress) {v : U64}
    (hv : v = 7 ∨ v = 8 ∨ v = 9) (updateTime currentTime : U64) (weiSpent l1Basefee : U256) :
    let old := World.run ((openL1PricingState sto v).updateForBatchPosterSpending v updateTime
      currentTime p weiSpent l1Basefee) w
    let new := World.run ((openL1PricingState sto 10).updateForBatchPosterSpending 10 updateTime
      currentTime p weiSpent l1Basefee) w
    old.1.Alike new.1 ∧ ∃ L', Represents sto A new.2 L'
      ∧ Represents sto A old.2 (L'.withFees L.l1FeesAvailable)
      ∧ (L'.Synced ↔ ¬L1Ledger.OverflowRefused new.1) := by
  have hseven : arbosVersion7 ≤ v := by rcases hv with rfl | rfl | rfl <;> decide
  have htwo : arbosVersion2 ≤ v := BitVec.le_trans (by decide) hseven
  have hpool : Funding.ofVersion v = .pool := by rcases hv with rfl | rfl | rfl <;> decide
  obtain ⟨w₁, hold, hR₁⟩ := update_realizes hslots v L htwo updateTime currentTime hp weiSpent
    l1Basefee w hR
  rw [hpool] at hold hR₁
  obtain ⟨w₂, hnew, hR₂⟩ := updateForBatchPosterSpending_realizes hslots 10 L
    (show arbosVersion10 ≤ 10 by decide) updateTime currentTime hp weiSpent l1Basefee w hR
  obtain ⟨halike, hledger, hsynced⟩ := hsync.spend_withFees L.l1FeesAvailable
    hrewards hposter hseven (show arbosVersion7 ≤ 10 by decide) updateTime currentTime
    weiSpent l1Basefee
  have hself : L.withFees L.l1FeesAvailable = L := rfl
  rw [hself] at halike hledger
  intro old new
  have hold' : old = _ := hold
  have hnew' : new = _ := hnew
  rw [hold', hnew']
  exact ⟨halike, _, hR₂, hledger ▸ hR₁, hsynced⟩

end L1Pricing

namespace L1Pricing
attribute [local instance] sampleHash

/-- The funds of the sample state are synced, and no recipient is the pool account. -/
theorem upgrade_continuity_sample :
    let old := World.run ((openL1PricingState sampleRoot 9).updateForBatchPosterSpending 9 5 5 7
      50 0) sampleWorld
    let new := World.run ((openL1PricingState sampleRoot 10).updateForBatchPosterSpending 10 5 5 7
      50 0) sampleWorld
    old.1.Alike new.1 ∧ ∃ L', Represents sampleRoot Set.univ new.2 L'
      ∧ Represents sampleRoot Set.univ old.2 (L'.withFees sampleLedger.l1FeesAvailable)
      ∧ (L'.Synced ↔ ¬L1Ledger.OverflowRefused new.1) :=
  upgrade_continuity sampleRoot_layout_apart sampleWorld_represents (by decide +kernel)
    (by decide +kernel) (Set.mem_univ 7) (by decide +kernel) (.inr (.inr rfl)) 5 5 50 0

/-- The account that is paid the rewards holds the largest word. The funds are synced and no
recipient is the pool account, but the reward of 40 is refused after the pool account has been
debited: the counter is 100, and the balance is 60. -/
theorem upgrade_unsynced_sample :
    Represents sampleRoot Set.univ richWorld richLedger
    ∧ richLedger.Synced
    ∧ richLedger.payRewardsTo ≠ l1PricerFundsPoolAddress
    ∧ richLedger.payee 7 ≠ l1PricerFundsPoolAddress
    ∧ ∃ next, World.run ((openL1PricingState sampleRoot 10).updateForBatchPosterSpending 10 5 5 7
        50 0) richWorld = (.panic ("transfer_from_l1_fees_available: EVM balance transfer failed: "
          ++ TransferError.overflowPayment.debug), next)
      ∧ World.run (openL1PricingState sampleRoot 10).l1FeesAvailable next = (.ok 100, next)
      ∧ World.run (Exec.loadBalance l1PricerFundsPoolAddress) next = (.ok 60, next) := by
  refine ⟨richWorld_represents, by decide +kernel, by decide +kernel, by decide +kernel, ?_⟩
  obtain ⟨w', hrun, hR'⟩ := updateForBatchPosterSpending_realizes sampleRoot_layout_apart 10
    richLedger (show arbosVersion10 ≤ 10 by decide) 5 5 (Set.mem_univ 7) 50 0 richWorld
    richWorld_represents
  have hpanic : (richLedger.spend .counter 10 5 5 7 50 0).1
      = .panic ("transfer_from_l1_fees_available: EVM balance transfer failed: "
        ++ TransferError.overflowPayment.debug) := by
    decide +kernel
  have hcounter : (richLedger.spend .counter 10 5 5 7 50 0).2.l1FeesAvailable = 100 := by
    decide +kernel
  have hpool : (richLedger.spend .counter 10 5 5 7 50 0).2.balance l1PricerFundsPoolAddress
      = 60 := by
    decide +kernel
  refine ⟨w', ?_, ?_, ?_⟩
  · rw [← hpanic]
    exact hrun
  · rw [← hcounter]
    exact StorageBackedBigUint.run_get _ (hR'.scalar .l1FeesAvailable)
  · rw [← hpool, ← hR'.balance]
    rfl

end L1Pricing

end ArbReth
