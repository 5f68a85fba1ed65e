import ArbReth.Proofs.L1Pricing.Spending

/-!
# `ArbReth.Proofs.L1Pricing.Update`: the update realizes `L1Ledger.spend`

The two generations of the update are assembled from their stages.
`updateForBatchPosterSpending_realizes` is for the versions from 10 on, with the stored
counter as the source of the funds. `preVersion10_realizes` is for the versions 2 to 9,
with the balance of the pool account. The panics of a refused payment and of a set of
posters that is full are part of `spend`.
-/

set_option autoImplicit false

namespace ArbReth

open ArbReth.Program

namespace L1Pricing
variable [Keccak]

section
variable {sto : Storage} {A : Set Address} (hslots : (layout sto).Apart (L1Key.Among A))
  (version : U64) (L : L1Ledger)
include hslots

/-- The poster of an update is opened, and registered when it is new. -/
theorem openForSpending_realizes (context : String) {p : Address} (hp : p ∈ A)
    (hroom : L.IsPoster p ∨ L.count ≠ BitVec.allOnes 64) :
    Realizes World.handle (Represents sto A)
      ((openL1PricingState sto version).openForSpending context p) L (.ok (record sto p))
      (L.register p) :=
  .handleErr (openPoster_realizes hslots L hp hroom)

/-- A new poster is too much for a list of the largest length. -/
theorem openForSpending_panics (context : String) {p : Address} (hp : p ∈ A)
    (hnew : ¬L.IsPoster p) (hfull : L.count = BitVec.allOnes 64) :
    Realizes World.handle (Represents sto A)
      ((openL1PricingState sto version).openForSpending context p) L
      (.panic "attempt to add with overflow") (L.enroll p) :=
  .handleErr_panic (openPoster_panics hslots L hp hnew hfull)

omit [Keccak] hslots in
/-- A poster for which registration does not panic. -/
theorem room_of_not_full {L : L1Ledger} {p : Address}
    (hfull : ¬(¬L.IsPoster p ∧ L.count = BitVec.allOnes 64)) :
    L.IsPoster p ∨ L.count ≠ BitVec.allOnes 64 := by
  rwa [not_and_or, not_not] at hfull

/-- The update from version 10 on, from the payments to the end. -/
theorem settle_realizes (arbosVersion updateTime units : U64) {p : Address} (hp : p ∈ A) :
    Realizes World.handle (Represents sto A)
      (do
        ((openL1PricingState sto version).setFundsDueForRewards
          (L.fundsDueForRewards.saturatingSub
            (I256.ofU256 (L.rewardPayment .counter units)))).mapErr UpdateSpendingError.db
        let payRewardsTo ← (openL1PricingState sto version).payRewardsTo.mapErr .db
        let l1FeesAvailable ← ((openL1PricingState sto version).transferFromL1FeesAvailable
          payRewardsTo (L.rewardPayment .counter units)).mapErr .db
        let l1FeesAvailable ← ((openL1PricingState sto version).settlePoster (record sto p)
          l1FeesAvailable).mapErr .db
        ((openL1PricingState sto version).setLastUpdateTime updateTime).mapErr .db
        ((openL1PricingState sto version).adjustPrice (pure l1FeesAvailable) arbosVersion
          units).mapErr .db)
      L (L.settle .counter arbosVersion updateTime units p).1
      (L.settle .counter arbosVersion updateTime units p).2 := by
  refine .bind (.mapErr (setFundsDueForRewards_realizes hslots version L _)) ?_
  refine .bind (.mapErr (payRewardsTo_realizes version _)) ?_
  have hle : L.rewardPayment .counter units ≤ L.l1FeesAvailable := L.rewardPayment_le .counter units
  cases hrewards : (L.debitRewards (L.rewardPayment .counter units)).refusal L.payRewardsTo
      (L.rewardPayment .counter units) with
  | some e =>
      rw [L1Ledger.settle_of_rewards_refused hrewards]
      exact .bind_panic (.mapErr_panic (transferFromL1FeesAvailable_refused version hrewards))
  | none =>
      have hpaid : Realizes World.handle (Represents sto A)
          ((openL1PricingState sto version).transferFromL1FeesAvailable L.payRewardsTo
            (L.rewardPayment .counter units)) (L.debitRewards (L.rewardPayment .counter units))
          (.ok (L.paidRewards .counter units).l1FeesAvailable) (L.paidRewards .counter units) :=
        transferFromL1FeesAvailable_realizes version hslots hrewards hle
      refine .bind (.mapErr hpaid) ?_
      cases hposter : (L.paidRewards .counter units).refusal (L.payTo p)
          ((L.paidRewards .counter units).posterPayment .counter p) with
      | some e =>
          rw [L1Ledger.settle_of_poster_refused hrewards hposter]
          exact .bind_panic (.mapErr_panic (settlePoster_refused version hposter))
      | none =>
          rw [L1Ledger.settle_of_accepted hrewards hposter]
          refine .bind (.mapErr (settlePoster_realizes version hslots hp hposter)) ?_
          generalize (L.paidRewards .counter units).settlePoster .counter p _ = L₂
          refine .bind (.mapErr (setLastUpdateTime_realizes hslots version _ _)) ?_
          generalize hL₃ : ({ L₂ with lastUpdateTime := updateTime } : L1Ledger) = L₃
          have hfunds : L₃.funds .counter = L₂.l1FeesAvailable := by
            rw [← hL₃]
            rfl
          rw [← hfunds, L1Ledger.finish, hL₃]
          exact .mapErr (adjustPrice_realizes version L₃ hslots (.pure _) _ _)

/-- The older update, from the payments to the end. -/
theorem preVersion10Settle_realizes (arbosVersion updateTime units : U64) {p : Address}
    (hp : p ∈ A) :
    Realizes World.handle (Represents sto A)
      (do
        ((openL1PricingState sto version).setFundsDueForRewards
          (L.fundsDueForRewards.saturatingSub
            (I256.ofU256 (L.rewardPayment .pool units)))).mapErr UpdateSpendingError.db
        let payRewardsTo ← (openL1PricingState sto version).payRewardsTo.mapErr .db
        (L1PricingState.payFromPool "pre_version10: rewards transfer failed: " payRewardsTo
          (L.rewardPayment .pool units)).mapErr .db
        (L1PricingState.preVersion10SettlePoster (record sto p)).mapErr .db
        ((openL1PricingState sto version).setLastUpdateTime updateTime).mapErr .db
        ((openL1PricingState sto version).adjustPrice L1PricingState.poolBalance arbosVersion
          units).mapErr .db)
      L (L.settle .pool arbosVersion updateTime units p).1
      (L.settle .pool arbosVersion updateTime units p).2 := by
  refine .bind (.mapErr (setFundsDueForRewards_realizes hslots version L _)) ?_
  refine .bind (.mapErr (payRewardsTo_realizes version _)) ?_
  cases hrewards : (L.debitRewards (L.rewardPayment .pool units)).refusal L.payRewardsTo
      (L.rewardPayment .pool units) with
  | some e =>
      rw [L1Ledger.settle_of_rewards_refused hrewards]
      exact .bind_panic (.mapErr_panic (payFromPool_refused _ hrewards))
  | none =>
      have hpaid : Realizes World.handle (Represents sto A)
          (L1PricingState.payFromPool "pre_version10: rewards transfer failed: " L.payRewardsTo
            (L.rewardPayment .pool units)) (L.debitRewards (L.rewardPayment .pool units))
          (.ok ()) (L.paidRewards .pool units) :=
        payFromPool_realizes _ hrewards
      refine .bind (.mapErr hpaid) ?_
      cases hposter : (L.paidRewards .pool units).refusal (L.payTo p)
          ((L.paidRewards .pool units).posterPayment .pool p) with
      | some e =>
          rw [L1Ledger.settle_of_poster_refused hrewards hposter]
          exact .bind_panic (.mapErr_panic (preVersion10SettlePoster_refused hposter))
      | none =>
          rw [L1Ledger.settle_of_accepted hrewards hposter]
          refine .bind (.mapErr (preVersion10SettlePoster_realizes hslots hp hposter)) ?_
          generalize (L.paidRewards .pool units).settlePoster .pool p _ = L₂
          refine .bind (.mapErr (setLastUpdateTime_realizes hslots version _ _)) ?_
          rw [L1Ledger.finish]
          exact .mapErr (adjustPrice_realizes version _ hslots (poolBalance_realizes _) _ _)

/-- The update from version 10 on, for every ledger and all arguments. -/
theorem updateForBatchPosterSpending_realizes {arbosVersion : U64}
    (hversion : arbosVersion10 ≤ arbosVersion) (updateTime currentTime : U64) {p : Address}
    (hp : p ∈ A) (weiSpent l1Basefee : U256) :
    Realizes World.handle (Represents sto A)
      ((openL1PricingState sto version).updateForBatchPosterSpending arbosVersion updateTime
        currentTime p weiSpent l1Basefee) L
      (L.spend .counter arbosVersion updateTime currentTime p weiSpent l1Basefee).1
      (L.spend .counter arbosVersion updateTime currentTime p weiSpent l1Basefee).2 := by
  refine .ite_neg (BitVec.not_lt.mpr hversion) ?_
  unfold L1Ledger.spend
  by_cases hfull : ¬L.IsPoster p ∧ L.count = BitVec.allOnes 64
  · rw [if_pos hfull]
    exact .bind_panic (openForSpending_panics hslots version L _ hp hfull.1 hfull.2)
  rw [if_neg hfull]
  refine .bind (openForSpending_realizes hslots version L _ hp (room_of_not_full hfull)) ?_
  -- From here on the poster is registered.
  generalize L.register p = L₁
  refine .bind (.mapErr (fundsDueForRewards_realizes version L₁)) ?_
  refine .bind (.mapErr (l1FeesAvailable_realizes version L₁)) ?_
  by_cases htime : L₁.TimeOk updateTime currentTime
  swap
  · simp only [if_pos htime]
    exact .bind_err (allocateUnits_rejects version L₁ htime)
  simp only [htime, not_true_eq_false, if_false]
  refine .bind (allocateUnits_realizes version L₁ hslots htime) ?_
  refine .bind (.mapErr (imposeCostCap_realizes version _ _ _ _ _)) ?_
  refine .bind (.mapErr (creditPoster_realizes _ hslots hp _)) ?_
  refine .bind (.mapErr (accrueRewards_realizes version _ hslots _)) ?_
  exact settle_realizes hslots version (L₁.account _ _ _ _ _) _ _ _ hp

/-- The update for the versions 2 to 9, for every ledger and all arguments. -/
theorem preVersion10_realizes {arbosVersion : U64} (htwo : arbosVersion2 ≤ arbosVersion)
    (updateTime currentTime : U64) {p : Address} (hp : p ∈ A) (weiSpent l1Basefee : U256) :
    Realizes World.handle (Represents sto A)
      ((openL1PricingState sto version).preVersion10UpdateForBatchPosterSpending arbosVersion
        updateTime currentTime p weiSpent l1Basefee) L
      (L.spend .pool arbosVersion updateTime currentTime p weiSpent l1Basefee).1
      (L.spend .pool arbosVersion updateTime currentTime p weiSpent l1Basefee).2 := by
  refine .ite_neg (BitVec.not_lt.mpr htwo) ?_
  unfold L1Ledger.spend
  by_cases hfull : ¬L.IsPoster p ∧ L.count = BitVec.allOnes 64
  · rw [if_pos hfull]
    exact .bind_panic (openForSpending_panics hslots version L _ hp hfull.1 hfull.2)
  rw [if_neg hfull]
  refine .bind (openForSpending_realizes hslots version L _ hp (room_of_not_full hfull)) ?_
  generalize L.register p = L₁
  refine .bind (.mapErr (fundsDueForRewards_realizes version L₁)) ?_
  by_cases htime : L₁.TimeOk updateTime currentTime
  swap
  · simp only [if_pos htime]
    exact .bind_err (allocateUnits_rejects version L₁ htime)
  simp only [htime, not_true_eq_false, if_false]
  refine .bind (allocateUnits_realizes version L₁ hslots htime) ?_
  refine .bind (.mapErr (imposeCostCap_realizes version _ _ _ _ _)) ?_
  refine .bind (.mapErr (creditPoster_realizes _ hslots hp _)) ?_
  refine .bind (.mapErr (accrueRewards_realizes version _ hslots _)) ?_
  refine .bind (.mapErr (poolBalance_realizes _)) ?_
  exact preVersion10Settle_realizes hslots version (L₁.account _ _ _ _ _) _ _ _ hp

/-- The update in every version from 2 on. The versions 2 to 9 are delegated. -/
theorem update_realizes {arbosVersion : U64} (htwo : arbosVersion2 ≤ arbosVersion)
    (updateTime currentTime : U64) {p : Address} (hp : p ∈ A) (weiSpent l1Basefee : U256) :
    Realizes World.handle (Represents sto A)
      ((openL1PricingState sto version).updateForBatchPosterSpending arbosVersion updateTime
        currentTime p weiSpent l1Basefee) L
      (L.spend (.ofVersion arbosVersion) arbosVersion updateTime currentTime p weiSpent
        l1Basefee).1
      (L.spend (.ofVersion arbosVersion) arbosVersion updateTime currentTime p weiSpent
        l1Basefee).2 := by
  by_cases hten : arbosVersion < arbosVersion10
  · rw [Funding.ofVersion, if_pos hten]
    exact .ite_pos hten (preVersion10_realizes hslots version L htwo _ _ hp _ _)
  · rw [Funding.ofVersion, if_neg hten]
    exact updateForBatchPosterSpending_realizes hslots version L (BitVec.not_lt.mp hten) _ _ hp _ _

end

end L1Pricing

end ArbReth
