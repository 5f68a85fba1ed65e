import ArbReth.L1Pricing.State

/-!
# `ArbReth.L1Pricing.Spending`: the update for the spending of a batch poster

The source has three versions of the update: `updateForBatchPosterSpending` for
versions from 10 on, `preVersion10UpdateForBatchPosterSpending` for the versions
2 to 9, and `preVersion2UpdateForBatchPosterSpending`.

The first two share six stages word for word, which are definitions of their own
here: `openForSpending` (but for the text of the panic), `allocateUnits`,
`imposeCostCap`, `creditPoster`, `accrueRewards` and `adjustPrice`. They differ in
where the available funds come from. The version 10 update threads the stored
counter `l1FeesAvailable` through its locals and pays with
`transferFromL1FeesAvailable`. The older one reads the balance of the pool account
before each use and pays from the pool account, when there is something to pay.

`adjustPrice` takes the program that supplies the funds as a parameter. Its
arithmetic is `priceChange` and `applyPriceChange`.
-/

set_option autoImplicit false

namespace ArbReth

open ArbReth.Program

namespace L1PricingState
variable [Keccak]

/-! ### The stages -/

/-- Open the record of the poster, and register the poster if it is new. -/
def openForSpending (self : L1PricingState) (context : String) (batchPoster : Address) :
    Exec UpdateSpendingError BatchPosterState :=
  (self.batchPosterTable.openPoster batchPoster true).handleErr fun
    | .db e => .fail (.db e)
    | .semantic e => .panic (context ++ e.debug)

/-- Check the times, and take the share of the units since the last update that falls
to this update. The result is the number of units allocated. -/
def allocateUnits (self : L1PricingState) (updateTime currentTime : U64) :
    Exec UpdateSpendingError U64 := do
  let stored ← self.lastUpdateTime.mapErr .db
  -- before the first update the period is one second long
  let lastUpdateTime ←
    if stored = 0 ∧ 0 < updateTime then checkedSub updateTime 1 else pure stored
  if currentTime < updateTime ∨ updateTime < lastUpdateTime then
    .fail .invalidTime
  else
    let numerator ← checkedSub updateTime lastUpdateTime
    let denominator ← checkedSub currentTime lastUpdateTime
    -- a period of no length takes all units
    let allocationNumerator := if denominator = 0 then 1 else numerator
    let allocationDenominator := if denominator = 0 then 1 else denominator
    let unitsSinceUpdate ← self.unitsSinceUpdate.mapErr .db
    let unitsAllocated ←
      checkedDiv (saturatingMul unitsSinceUpdate allocationNumerator) allocationDenominator
    let unitsLeft ← checkedSub unitsSinceUpdate unitsAllocated
    (self.setUnitsSinceUpdate unitsLeft).mapErr .db
    pure unitsAllocated

/-- The amortized cost cap, from version 3 on: the wei that are accounted for. -/
def imposeCostCap (self : L1PricingState) (arbosVersion unitsAllocated : U64)
    (weiSpent l1Basefee : U256) : Exec DbError U256 := do
  if arbosVersion3 ≤ arbosVersion then
    let amortizedCostCapBips ← self.amortizedCostCapBips
    -- zero stands for no cap
    if amortizedCostCapBips ≠ 0 then
      let weiSpentCap :=
        saturatingMul (saturatingMul l1Basefee (U256.ofU64 unitsAllocated))
          (U256.ofU64 amortizedCostCapBips) / 10000
      pure (if weiSpentCap < weiSpent then weiSpentCap else weiSpent)
    else
      pure weiSpent
  else
    pure weiSpent

/-- Add the wei spent to the amount due to the poster. -/
def creditPoster (posterState : BatchPosterState) (weiSpent : U256) : Exec DbError Unit := do
  let dueToPoster ← posterState.fundsDue
  posterState.setFundsDue (dueToPoster.saturatingAdd (I256.ofU256 weiSpent))

/-- `I256::try_from(U256::from(x)).expect("u64 fits in I256")`. -/
def expectI256 {ε : Type} (x : U64) : Exec ε I256 :=
  match I256.tryFrom (U256.ofU64 x) with
  | none => .panic "u64 fits in I256"
  | some v => pure v

/-- Add the reward for the units to the amount due for rewards. The result is the
reward per unit and the new amount due. -/
def accrueRewards (self : L1PricingState) (fundsDueForRewards : I256) (unitsAllocated : U64) :
    Exec DbError (U64 × I256) := do
  let perUnitReward ← self.perUnitReward
  let unitsI256 ← expectI256 unitsAllocated
  let perUnitI256 ← expectI256 perUnitReward
  let fundsDueForRewards :=
    fundsDueForRewards.saturatingAdd (unitsI256.saturatingMul perUnitI256)
  self.setFundsDueForRewards fundsDueForRewards
  pure (perUnitReward, fundsDueForRewards)

/-- The change of the price per unit:
`(desiredDerivative - actualDerivative) * unitsAllocated / allocPlusInert`. -/
def priceChange {ε : Type} (surplus oldSurplus : I256) (equilUnits : U256)
    (inertia unitsAllocated : U64) : Exec ε I256 := do
  let inertiaUnits := if inertia = 0 then equilUnits else equilUnits / U256.ofU64 inertia
  -- `+` of two words wraps
  let allocPlusInert := inertiaUnits + U256.ofU64 unitsAllocated
  let equilSigned := I256.ofU256 equilUnits
  -- each `wrappingDiv` truncates toward zero
  let desiredDerivative ←
    if equilSigned.isZero then pure I256.zero
    else surplus.saturatingNeg.wrappingDiv equilSigned
  let unitsSigned := I256.ofU256 (U256.ofU64 unitsAllocated)
  let actualDerivative ← (surplus.saturatingSub oldSurplus).wrappingDiv unitsSigned
  let allocPlusInertSigned := I256.ofU256 allocPlusInert
  if allocPlusInertSigned.isZero then pure I256.zero
  else
    ((desiredDerivative.saturatingSub actualDerivative).saturatingMul unitsSigned).wrappingDiv
      allocPlusInertSigned

/-- The price after a change, at least zero. -/
def applyPriceChange (price : U256) (change : I256) : U256 :=
  if 0 ≤ change.toInt then saturatingAdd price change.toU256
  else saturatingSub price change.wrappingNeg.toU256

/-- Adjust the price per unit. `funds` reads the funds that the pricer holds. -/
def adjustPrice (self : L1PricingState) (funds : Exec DbError U256)
    (arbosVersion unitsAllocated : U64) : Exec DbError Unit := do
  if 0 < unitsAllocated then
    let totalFundsDue ← self.batchPosterTable.totalFundsDue
    let fundsDueForRewards ← self.fundsDueForRewards
    let available ← funds
    let surplus := (I256.ofU256 available).saturatingSub
      (totalFundsDue.saturatingAdd fundsDueForRewards)
    let inertia ← self.inertia
    let equilUnits ← self.equilibrationUnits
    let price ← self.pricePerUnit
    let oldSurplus ← self.lastSurplus
    let change ← priceChange surplus oldSurplus equilUnits inertia unitsAllocated
    -- the surplus is stored as it is, and `setLastSurplus` encodes it for the version
    self.setLastSurplus surplus arbosVersion
    self.setPricePerUnit (applyPriceChange price change)
  else
    pure ()

/-- The balance of the pool account. -/
def poolBalance : Exec DbError U256 := Exec.loadBalance l1PricerFundsPoolAddress

/-- Pay `amount` from the pool account, when it is positive. `context` starts the
message of the panic for a refused payment. -/
def payFromPool (context : String) (recipient : Address) (amount : U256) : Exec DbError Unit := do
  if 0 < amount then
    match ← Exec.transfer l1PricerFundsPoolAddress recipient amount with
    | some err => .panic (context ++ err.debug)
    | none => pure ()
  else
    pure ()

/-! ### Versions before 2 -/

/-- The loop over all posters: pay each its due, as far as `availableFunds` go. -/
def preVersion2SettlePosters (self : L1PricingState) :
    List Address → (availableFunds : U256) → Exec DbError Unit
  | [], _ => pure ()
  | posterAddr :: posters, availableFunds => do
      let poster ← (self.batchPosterTable.openPoster posterAddr false).handleErr fun
        | .db e => .fail e
        | .semantic e =>
            .panic ("pre_version2: unexpected error opening poster " ++ posterAddr.display
              ++ ": " ++ e.debug)
      let balanceDue ← poster.fundsDue
      if balanceDue.isPositive then
        let balanceToTransfer := minWord balanceDue.toU256 availableFunds
        if 0 < balanceToTransfer then
          let addrToPay ← poster.payTo
          payFromPool "pre_version2: poster payment transfer failed: " addrToPay balanceToTransfer
          -- this subtraction is checked, unlike those of the later versions
          let newBalanceDue ← balanceDue.checkedSub (I256.ofU256 balanceToTransfer)
          poster.setFundsDue newBalanceDue
          self.preVersion2SettlePosters posters (availableFunds - balanceToTransfer)
        else
          self.preVersion2SettlePosters posters availableFunds
      else
        self.preVersion2SettlePosters posters availableFunds

/-- The price adjustment before version 2, from the surplus before the update. -/
def preVersion2AdjustPrice (self : L1PricingState) (oldSurplus : I256) (unitsAllocated : U64) :
    Exec DbError Unit := do
  if 0 < unitsAllocated then
    let totalFundsDue ← self.batchPosterTable.totalFundsDue
    let fundsDueForRewards ← self.fundsDueForRewards
    let available ← poolBalance
    let surplus := (I256.ofU256 available).saturatingSub
      (totalFundsDue.saturatingAdd fundsDueForRewards)
    let inertia ← self.inertia
    let equilUnits ← self.equilibrationUnits
    let equilSigned := I256.ofU256 equilUnits
    let inertiaUnits ←
      if inertia = 0 then pure I256.zero
      else do equilSigned.wrappingDiv (← expectI256 inertia)
    let price ← self.pricePerUnit
    let allocPlusInert := inertiaUnits.saturatingAdd (← expectI256 unitsAllocated)
    let denom := equilSigned.saturatingMul allocPlusInert
    let change ←
      if denom.isZero then pure I256.zero
      else
        ((surplus.saturatingMul (equilSigned.saturatingSub I256.one)).saturatingSub
          (oldSurplus.saturatingMul equilSigned)).wrappingDiv denom
    self.setPricePerUnit (applyPriceChange price change)
  else
    pure ()

/-- The update before version 2. A rejected time changes nothing but the registration
of the poster, and is no error. -/
def preVersion2UpdateForBatchPosterSpending (self : L1PricingState) (updateTime currentTime : U64)
    (batchPoster : Address) (weiSpent : U256) : Exec DbError Unit := do
  let posterState ← (self.batchPosterTable.openPoster batchPoster true).handleErr fun
    | .db e => .fail e
    | .semantic e => .panic ("pre_version2: unexpected semantic error opening poster: " ++ e.debug)
  let totalFundsDue ← self.batchPosterTable.totalFundsDue
  let fundsDueForRewards ← self.fundsDueForRewards
  let poolBefore ← poolBalance
  let oldSurplus := (I256.ofU256 poolBefore).saturatingSub
    (totalFundsDue.saturatingAdd fundsDueForRewards)
  let stored ← self.lastUpdateTime
  -- the test is on the current time, and the subtraction wraps
  let lastUpdateTime := if stored = 0 ∧ 0 < currentTime then updateTime - 1 else stored
  if currentTime ≤ updateTime ∨ updateTime < lastUpdateTime then
    pure ()
  else
    let numerator ← checkedSub updateTime lastUpdateTime
    let denominator ← checkedSub currentTime lastUpdateTime
    let allocationNumerator := if denominator = 0 then 1 else numerator
    let allocationDenominator := if denominator = 0 then 1 else denominator
    let unitsSinceUpdate ← self.unitsSinceUpdate
    -- The product is taken in 128 bits, where it cannot overflow.
    let unitsAllocated := BitVec.ofNat 64
      (unitsSinceUpdate.toNat * allocationNumerator.toNat / allocationDenominator.toNat)
    let unitsLeft ← checkedSub unitsSinceUpdate unitsAllocated
    self.setUnitsSinceUpdate unitsLeft
    creditPoster posterState weiSpent
    let (perUnitReward, fundsDueForRewards) ←
      self.accrueRewards fundsDueForRewards unitsAllocated
    let pool ← poolBalance
    let availableFunds :=
      saturatingMul pool (U256.ofU64 allocationNumerator) / U256.ofU64 allocationDenominator
    let owed := saturatingMul (U256.ofU64 perUnitReward) (U256.ofU64 unitsAllocated)
    let paymentForRewards := if availableFunds < owed then availableFunds else owed
    self.setFundsDueForRewards (fundsDueForRewards.saturatingSub (I256.ofU256 paymentForRewards))
    let payRewardsTo ← self.payRewardsTo
    payFromPool "pre_version2: rewards transfer failed: " payRewardsTo paymentForRewards
    let allPosterAddrs ← self.batchPosterTable.allPosters (BitVec.allOnes 64)
    self.preVersion2SettlePosters allPosterAddrs (availableFunds - paymentForRewards)
    self.setLastUpdateTime updateTime
    self.preVersion2AdjustPrice oldSurplus unitsAllocated

/-! ### Versions 2 to 9 -/

/-- Pay the poster from the pool account, as much as possible. -/
def preVersion10SettlePoster (posterState : BatchPosterState) : Exec DbError Unit := do
  let availableFunds ← poolBalance
  let balanceDueToPoster ← posterState.fundsDue
  if balanceDueToPoster.isPositive then
    let balanceToTransfer := minWord availableFunds balanceDueToPoster.toU256
    if balanceToTransfer ≠ 0 then
      let addrToPay ← posterState.payTo
      match ← Exec.transfer l1PricerFundsPoolAddress addrToPay balanceToTransfer with
      | some err => .panic ("pre_version10: poster payment transfer failed: " ++ err.debug)
      | none =>
          posterState.setFundsDue
            (balanceDueToPoster.saturatingSub (I256.ofU256 balanceToTransfer))
    else
      pure ()
  else
    pure ()

/-- The update for the versions 2 to 9. Older versions are delegated. -/
def preVersion10UpdateForBatchPosterSpending (self : L1PricingState)
    (arbosVersion updateTime currentTime : U64) (batchPoster : Address)
    (weiSpent l1Basefee : U256) : Exec UpdateSpendingError Unit := do
  if arbosVersion < arbosVersion2 then
    (self.preVersion2UpdateForBatchPosterSpending updateTime currentTime batchPoster
      weiSpent).mapErr .db
  else
    let posterState ← self.openForSpending
      "pre_version10: unexpected semantic error opening poster: " batchPoster
    let fundsDueForRewards ← self.fundsDueForRewards.mapErr .db
    let unitsAllocated ← self.allocateUnits updateTime currentTime
    let weiSpent ← (self.imposeCostCap arbosVersion unitsAllocated weiSpent l1Basefee).mapErr .db
    (creditPoster posterState weiSpent).mapErr .db
    let (perUnitReward, fundsDueForRewards) ←
      (self.accrueRewards fundsDueForRewards unitsAllocated).mapErr .db
    let owed := saturatingMul (U256.ofU64 perUnitReward) (U256.ofU64 unitsAllocated)
    -- the funds are what the pool account holds now
    let pool ← poolBalance.mapErr .db
    let paymentForRewards := if pool < owed then pool else owed
    (self.setFundsDueForRewards
      (fundsDueForRewards.saturatingSub (I256.ofU256 paymentForRewards))).mapErr .db
    let payRewardsTo ← self.payRewardsTo.mapErr .db
    (payFromPool "pre_version10: rewards transfer failed: " payRewardsTo
      paymentForRewards).mapErr .db
    (preVersion10SettlePoster posterState).mapErr .db
    (self.setLastUpdateTime updateTime).mapErr .db
    (self.adjustPrice poolBalance arbosVersion unitsAllocated).mapErr .db

/-! ### Versions from 10 on -/

/-- Pay the poster out of `l1FeesAvailable`, as much as possible. The result is the
counter after the payment. -/
def settlePoster (self : L1PricingState) (posterState : BatchPosterState)
    (l1FeesAvailable : U256) : Exec DbError U256 := do
  let balanceDueToPoster ← posterState.fundsDue
  if balanceDueToPoster.isPositive then
    let balanceToTransfer := minWord l1FeesAvailable balanceDueToPoster.toU256
    if balanceToTransfer ≠ 0 then
      let addrToPay ← posterState.payTo
      let l1FeesAvailable ← self.transferFromL1FeesAvailable addrToPay balanceToTransfer
      posterState.setFundsDue (balanceDueToPoster.saturatingSub (I256.ofU256 balanceToTransfer))
      pure l1FeesAvailable
    else
      pure l1FeesAvailable
  else
    pure l1FeesAvailable

/-- The update of the pricing model for a payment by a batch poster. Versions before
10 are delegated. -/
def updateForBatchPosterSpending (self : L1PricingState)
    (arbosVersion updateTime currentTime : U64) (batchPoster : Address)
    (weiSpent l1Basefee : U256) : Exec UpdateSpendingError Unit := do
  if arbosVersion < arbosVersion10 then
    self.preVersion10UpdateForBatchPosterSpending arbosVersion updateTime currentTime batchPoster
      weiSpent l1Basefee
  else
    let posterState ← self.openForSpending
      "update_for_batch_poster_spending: unexpected semantic error: " batchPoster
    let fundsDueForRewards ← self.fundsDueForRewards.mapErr .db
    let l1FeesAvailable ← self.l1FeesAvailable.mapErr .db
    let unitsAllocated ← self.allocateUnits updateTime currentTime
    let weiSpent ← (self.imposeCostCap arbosVersion unitsAllocated weiSpent l1Basefee).mapErr .db
    (creditPoster posterState weiSpent).mapErr .db
    let (perUnitReward, fundsDueForRewards) ←
      (self.accrueRewards fundsDueForRewards unitsAllocated).mapErr .db
    let owed := saturatingMul (U256.ofU64 perUnitReward) (U256.ofU64 unitsAllocated)
    let paymentForRewards := if l1FeesAvailable < owed then l1FeesAvailable else owed
    (self.setFundsDueForRewards
      (fundsDueForRewards.saturatingSub (I256.ofU256 paymentForRewards))).mapErr .db
    let payRewardsTo ← self.payRewardsTo.mapErr .db
    -- from here on the local follows the stored counter
    let l1FeesAvailable ←
      (self.transferFromL1FeesAvailable payRewardsTo paymentForRewards).mapErr .db
    let l1FeesAvailable ← (self.settlePoster posterState l1FeesAvailable).mapErr .db
    (self.setLastUpdateTime updateTime).mapErr .db
    (self.adjustPrice (pure l1FeesAvailable) arbosVersion unitsAllocated).mapErr .db

end L1PricingState

end ArbReth
