import ArbReth.L1Pricing.Ledger

/-!
# `ArbReth.L1Pricing.LegacyLedger`: the update before version 2 on a ledger

`legacySpend` is the update before version 2, as a function on ledgers. It shares with
`spend` the registration, the credit and the accrual. It differs in the allocation, which
takes a share of the funds as well, in the payments, which go to every poster in the order
of the list, and in the price.

`update` chooses the update of a version.
-/

set_option autoImplicit false

namespace ArbReth

open ArbReth.Program

/-- The price change before version 2, for a positive number of allocated units. -/
def legacyPriceChangeOf (surplus oldSurplus : I256) (equilUnits : U256)
    (inertia unitsAllocated : U64) : I256 :=
  let equilSigned := I256.ofU256 equilUnits
  let inertiaUnits :=
    if inertia = 0 then I256.zero else equilSigned.wrappingQuot (I256.ofU256 (U256.ofU64 inertia))
  let allocPlusInert := inertiaUnits.saturatingAdd (I256.ofU256 (U256.ofU64 unitsAllocated))
  let denom := equilSigned.saturatingMul allocPlusInert
  if denom.isZero then I256.zero
  else
    ((surplus.saturatingMul (equilSigned.saturatingSub I256.one)).saturatingSub
      (oldSurplus.saturatingMul equilSigned)).wrappingQuot denom

namespace L1Ledger

/-- The posters in the list of the table. -/
def posterList (L : L1Ledger) : List Address :=
  (List.range L.count.toNat).map fun i => rawToAddr (L.member (BitVec.ofNat 64 (i + 1)))

/-! ### The allocation -/

/-- The time of the last update. The first update takes the time before its own, and
wraps at zero. -/
def legacyLastTime (L : L1Ledger) (updateTime currentTime : U64) : U64 :=
  if L.lastUpdateTime = 0 ∧ 0 < currentTime then updateTime - 1 else L.lastUpdateTime

/-- The times of the update are accepted: the period does not end now. -/
def LegacyTimeOk (L : L1Ledger) (updateTime currentTime : U64) : Prop :=
  L.legacyLastTime updateTime currentTime ≤ updateTime ∧ updateTime < currentTime

instance (L : L1Ledger) (updateTime currentTime : U64) :
    Decidable (L.LegacyTimeOk updateTime currentTime) := inferInstanceAs (Decidable (_ ∧ _))

/-- The part of the period that the update is for. -/
def legacyNumerator (L : L1Ledger) (updateTime currentTime : U64) : U64 :=
  updateTime - L.legacyLastTime updateTime currentTime

/-- The length of the period. -/
def legacyDenominator (L : L1Ledger) (updateTime currentTime : U64) : U64 :=
  currentTime - L.legacyLastTime updateTime currentTime

/-- The units that fall to the update. -/
def legacyAllocated (L : L1Ledger) (updateTime currentTime : U64) : U64 :=
  BitVec.ofNat 64 (L.unitsSinceUpdate.toNat * (L.legacyNumerator updateTime currentTime).toNat
    / (L.legacyDenominator updateTime currentTime).toNat)

/-- The funds that fall to the update. -/
def legacyFunds (L : L1Ledger) (updateTime currentTime : U64) : U256 :=
  saturatingMul (L.balance l1PricerFundsPoolAddress)
      (U256.ofU64 (L.legacyNumerator updateTime currentTime))
    / U256.ofU64 (L.legacyDenominator updateTime currentTime)

/-! ### The payments -/

/-- The part of the reward that the funds cover. -/
def legacyReward (L : L1Ledger) (availableFunds : U256) (units : U64) : U256 :=
  if availableFunds < L.owedReward units then availableFunds else L.owedReward units

/-- The part of the amount due to a poster that the funds cover. -/
def legacyPayment (L : L1Ledger) (availableFunds : U256) (p : Address) : U256 :=
  if (L.fundsDue p).isPositive then minWord (L.fundsDue p).toU256 availableFunds else 0

/-- The ledger after a payment to a poster. -/
def legacySettle (L : L1Ledger) (p : Address) (amount : U256) : L1Ledger :=
  (L.pay .pool (L.payTo p) amount).setFundsDue p
    ((L.fundsDue p).saturatingSub (I256.ofU256 amount))

/-- Pay the posters one after another, as far as the funds go. -/
def settleAll [Keccak] : List Address → U256 → L1Ledger → Outcome DbError Unit × L1Ledger
  | [], _, L => (.ok (), L)
  | p :: posters, availableFunds, L =>
      if ¬L.IsPoster p then
        (.panic ("pre_version2: unexpected error opening poster " ++ p.display ++ ": "
          ++ BatchPosterError.notExist.debug), L)
      else
        let amount := L.legacyPayment availableFunds p
        if amount = 0 then settleAll posters availableFunds L
        else
          match L.refusal (L.payTo p) amount with
          | some e =>
              (.panic ("pre_version2: poster payment transfer failed: " ++ e.debug),
                L.transferred (L.payTo p) amount)
          | none => settleAll posters (availableFunds - amount) (L.legacySettle p amount)

/-! ### The price -/

/-- The ledger after the price adjustment, from the surplus before the update. -/
def legacyAdjustPrice (L : L1Ledger) (oldSurplus : I256) (units : U64) : L1Ledger :=
  if 0 < units then
    let change :=
      legacyPriceChangeOf (L.surplus .pool) oldSurplus L.equilibrationUnits L.inertia units
    { L with pricePerUnit := L1PricingState.applyPriceChange L.pricePerUnit change }
  else L

/-! ### The update -/

/-- The ledger after the units are taken, the poster is credited and the reward is
accrued. -/
def legacyAccount (L : L1Ledger) (units : U64) (p : Address) (weiSpent : U256) : L1Ledger :=
  ((L.takeUnits units).credit p weiSpent).accrue units

/-- The payments and the end of the update. -/
def legacyPayAll [Keccak] (L : L1Ledger) (updateTime units : U64) (availableFunds : U256)
    (oldSurplus : I256) : Outcome DbError Unit × L1Ledger :=
  let payment := L.legacyReward availableFunds units
  let L₁ := L.debitRewards payment
  match L₁.refusal L₁.payRewardsTo payment with
  | some e =>
      (.panic ("pre_version2: rewards transfer failed: " ++ e.debug),
        L₁.transferred L₁.payRewardsTo payment)
  | none =>
      match settleAll L₁.posterList (availableFunds - payment)
          (L₁.pay .pool L₁.payRewardsTo payment) with
      | (.ok (), L₂) =>
          (.ok (), { L₂ with lastUpdateTime := updateTime }.legacyAdjustPrice oldSurplus units)
      | r => r

/-- The update for the spending of a batch poster, before version 2. -/
def legacySpend [Keccak] (L : L1Ledger) (updateTime currentTime : U64) (p : Address)
    (weiSpent : U256) : Outcome DbError Unit × L1Ledger :=
  if ¬L.IsPoster p ∧ L.count = BitVec.allOnes 64 then
    (.panic "attempt to add with overflow", L.enroll p)
  else
    let L₁ := L.register p
    if ¬L₁.LegacyTimeOk updateTime currentTime then (.ok (), L₁)
    else
      let units := L₁.legacyAllocated updateTime currentTime
      (L₁.legacyAccount units p weiSpent).legacyPayAll updateTime units
        (L₁.legacyFunds updateTime currentTime) (L₁.surplus .pool)

/-- The update of a version. -/
def update [Keccak] (L : L1Ledger) (arbosVersion updateTime currentTime : U64) (p : Address)
    (weiSpent l1Basefee : U256) : Outcome UpdateSpendingError Unit × L1Ledger :=
  if arbosVersion < arbosVersion2 then
    match L.legacySpend updateTime currentTime p weiSpent with
    | (.ok (), L') => (.ok (), L')
    | (.err e, L') => (.err (.db e), L')
    | (.panic m, L') => (.panic m, L')
  else
    L.spend (Funding.ofVersion arbosVersion) arbosVersion updateTime currentTime p weiSpent
      l1Basefee

end L1Ledger

end ArbReth
