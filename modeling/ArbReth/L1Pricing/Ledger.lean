import ArbReth.L1Pricing.Spending

/-!
# `ArbReth.L1Pricing.Ledger`: the L1 pricer as a ledger

This module says what the L1 pricer is for, without storage slots and programs. An
`L1Ledger` is a record of the thirteen scalars, the table of the posters and the
account balances. `spend` is the update for the spending of a batch poster, as a
function on ledgers, built from one function for each stage.

The two generations of the update differ in the source of the funds, the parameter
`Funding`: the stored counter `l1FeesAvailable` from version 10 on, and the balance
of the pool account before. All other stages are shared.

A posting account that is new is registered first. An update that is rejected for
its times keeps the registration.
-/

set_option autoImplicit false

namespace ArbReth

open ArbReth.Program

/-- The scalars of the L1 pricer. -/
structure L1Scalars where
  payRewardsTo : Address
  equilibrationUnits : U256
  inertia : U64
  perUnitReward : U64
  lastUpdateTime : U64
  fundsDueForRewards : I256
  unitsSinceUpdate : U64
  pricePerUnit : U256
  lastSurplus : I256
  perBatchGasCost : I64
  amortizedCostCapBips : U64
  l1FeesAvailable : U256
  gasFloorPerToken : U64

/-- The table of the posters: the total due, the words of the set of posters (its size,
the list and the mapping), and the record of each account. -/
structure PosterTable where
  totalFundsDue : I256
  count : U64
  member : U64 → StorageValue
  index : Address → StorageValue
  fundsDue : Address → I256
  payTo : Address → Address

/-- The state of the L1 pricer and the account balances. -/
structure L1Ledger extends L1Scalars, PosterTable where
  balance : Address → U256

/-- Where the funds of an update come from: the stored counter, or the balance of the
pool account. -/
inductive Funding where
  | counter
  | pool
deriving DecidableEq

/-- The source of the funds in a version. -/
def Funding.ofVersion (arbosVersion : U64) : Funding :=
  if arbosVersion < arbosVersion10 then .pool else .counter

/-- The start of the message for a refused payment of rewards. -/
def Funding.rewardsRefused : Funding → String
  | .counter => "transfer_from_l1_fees_available: EVM balance transfer failed: "
  | .pool => "pre_version10: rewards transfer failed: "

/-- The start of the message for a refused payment to a poster. -/
def Funding.posterRefused : Funding → String
  | .counter => "transfer_from_l1_fees_available: EVM balance transfer failed: "
  | .pool => "pre_version10: poster payment transfer failed: "

/-- The price change for a positive number of allocated units. -/
def priceChangeOf (surplus oldSurplus : I256) (equilUnits : U256) (inertia unitsAllocated : U64) :
    I256 :=
  let inertiaUnits := if inertia = 0 then equilUnits else equilUnits / U256.ofU64 inertia
  let allocPlusInert := I256.ofU256 (inertiaUnits + U256.ofU64 unitsAllocated)
  let equilSigned := I256.ofU256 equilUnits
  let units := I256.ofU256 (U256.ofU64 unitsAllocated)
  let desired :=
    if equilSigned.isZero then I256.zero else surplus.saturatingNeg.wrappingQuot equilSigned
  let actual := (surplus.saturatingSub oldSurplus).wrappingQuot units
  if allocPlusInert.isZero then I256.zero
  else ((desired.saturatingSub actual).saturatingMul units).wrappingQuot allocPlusInert

namespace L1Ledger

/-! ### The posters -/

/-- The account is registered as a poster. -/
def IsPoster (L : L1Ledger) (p : Address) : Prop := L.index p ≠ 0

instance (L : L1Ledger) (p : Address) : Decidable (L.IsPoster p) :=
  inferInstanceAs (Decidable (_ ≠ _))

/-- The record of a new poster: nothing is due, and it is paid itself. -/
def enroll (L : L1Ledger) (p : Address) : L1Ledger :=
  { L with fundsDue := Function.update L.fundsDue p I256.zero
           payTo := Function.update L.payTo p p }

/-- Register the poster, if it is new. -/
def register (L : L1Ledger) (p : Address) : L1Ledger :=
  if L.IsPoster p then L
  else
    { L.enroll p with
        count := L.count + 1
        member := Function.update L.member (L.count + 1) p.intoWord
        index := Function.update L.index p (U256.ofU64 (L.count + 1)) }

/-- The record of a new poster that is paid on the account `q`. -/
def enrollWith (L : L1Ledger) (p q : Address) : L1Ledger :=
  { L with fundsDue := Function.update L.fundsDue p I256.zero
           payTo := Function.update L.payTo p q }

/-- Register a new poster that is paid on the account `q`. -/
def registerWith (L : L1Ledger) (p q : Address) : L1Ledger :=
  { L.enrollWith p q with
      count := L.count + 1
      member := Function.update L.member (L.count + 1) p.intoWord
      index := Function.update L.index p (U256.ofU64 (L.count + 1)) }

/-- Write the amount due to a poster, and move the total by the change. -/
def setFundsDue (L : L1Ledger) (p : Address) (val : I256) : L1Ledger :=
  { L with
      totalFundsDue := (L.totalFundsDue.saturatingAdd val).saturatingSub (L.fundsDue p)
      fundsDue := Function.update L.fundsDue p val }

/-! ### The allocation -/

/-- The time of the last update. The first update has none, and takes the time before
its own. -/
def lastTime (L : L1Ledger) (updateTime : U64) : U64 :=
  if L.lastUpdateTime = 0 ∧ 0 < updateTime then updateTime - 1 else L.lastUpdateTime

/-- The times of the update are accepted. -/
def TimeOk (L : L1Ledger) (updateTime currentTime : U64) : Prop :=
  L.lastTime updateTime ≤ updateTime ∧ updateTime ≤ currentTime

instance (L : L1Ledger) (updateTime currentTime : U64) :
    Decidable (L.TimeOk updateTime currentTime) := inferInstanceAs (Decidable (_ ∧ _))

/-- The units that fall to the update. -/
def allocated (L : L1Ledger) (updateTime currentTime : U64) : U64 :=
  let elapsed := currentTime - L.lastTime updateTime
  let numerator := if elapsed = 0 then 1 else updateTime - L.lastTime updateTime
  let denominator := if elapsed = 0 then 1 else elapsed
  saturatingMul L.unitsSinceUpdate numerator / denominator

/-- The cap on the wei that are accounted for. -/
def costCap (L : L1Ledger) (units : U64) (l1Basefee : U256) : U256 :=
  saturatingMul (saturatingMul l1Basefee (U256.ofU64 units)) (U256.ofU64 L.amortizedCostCapBips)
    / 10000

/-- The wei that are accounted for. -/
def accounted (L : L1Ledger) (arbosVersion units : U64) (weiSpent l1Basefee : U256) : U256 :=
  if arbosVersion3 ≤ arbosVersion ∧ L.amortizedCostCapBips ≠ 0 then
    if L.costCap units l1Basefee < weiSpent then L.costCap units l1Basefee else weiSpent
  else weiSpent

/-- Take the units that fall to the update. -/
def takeUnits (L : L1Ledger) (units : U64) : L1Ledger :=
  { L with unitsSinceUpdate := L.unitsSinceUpdate - units }

/-- Credit the wei to the poster. -/
def credit (L : L1Ledger) (p : Address) (wei : U256) : L1Ledger :=
  L.setFundsDue p ((L.fundsDue p).saturatingAdd (I256.ofU256 wei))

/-- Accrue the reward for the units. -/
def accrue (L : L1Ledger) (units : U64) : L1Ledger :=
  { L with
      fundsDueForRewards := L.fundsDueForRewards.saturatingAdd
        ((I256.ofU256 (U256.ofU64 units)).saturatingMul
          (I256.ofU256 (U256.ofU64 L.perUnitReward))) }

/-- The ledger after the units are taken, the poster is credited and the reward is
accrued. -/
def account (L : L1Ledger) (arbosVersion units : U64) (p : Address) (weiSpent l1Basefee : U256) :
    L1Ledger :=
  let L₁ := L.takeUnits units
  (L₁.credit p (L₁.accounted arbosVersion units weiSpent l1Basefee)).accrue units

/-! ### The payments -/

/-- The funds that the update may pay out. -/
def funds (L : L1Ledger) : Funding → U256
  | .counter => L.l1FeesAvailable
  | .pool => L.balance l1PricerFundsPoolAddress

/-- Pay from the pool account. The counter follows when the funds are counted by it. -/
def pay (L : L1Ledger) (f : Funding) (dst : Address) (amount : U256) : L1Ledger :=
  { L with
      balance := movedBalance L.balance l1PricerFundsPoolAddress dst amount
      l1FeesAvailable :=
        match f with
        | .counter => L.l1FeesAvailable - amount
        | .pool => L.l1FeesAvailable }

/-- The reason to refuse a payment from the pool account. -/
def refusal (L : L1Ledger) (dst : Address) (amount : U256) : Option TransferError :=
  transferRefusal L.balance l1PricerFundsPoolAddress dst amount

/-- The ledger after a call of `transfer` from the pool account, whether it is refused or
not. A pool that can pay is debited also when the recipient would overflow. -/
def transferred (L : L1Ledger) (dst : Address) (amount : U256) : L1Ledger :=
  { L with balance := transferBalance L.balance l1PricerFundsPoolAddress dst amount }

/-- The reward for the units. -/
def owedReward (L : L1Ledger) (units : U64) : U256 :=
  saturatingMul (U256.ofU64 L.perUnitReward) (U256.ofU64 units)

/-- The part of the reward that the funds cover. -/
def rewardPayment (L : L1Ledger) (f : Funding) (units : U64) : U256 :=
  if L.funds f < L.owedReward units then L.funds f else L.owedReward units

/-- The ledger after the payment for rewards is taken off the amount due. -/
def debitRewards (L : L1Ledger) (amount : U256) : L1Ledger :=
  { L with fundsDueForRewards := L.fundsDueForRewards.saturatingSub (I256.ofU256 amount) }

/-- Pay the rewards, as far as the funds go. -/
def payRewards (L : L1Ledger) (f : Funding) (units : U64) : Option TransferError × L1Ledger :=
  let amount := L.rewardPayment f units
  let L₁ := L.debitRewards amount
  match L₁.refusal L₁.payRewardsTo amount with
  | some e => (some e, L₁.transferred L₁.payRewardsTo amount)
  | none => (none, L₁.pay f L₁.payRewardsTo amount)

/-- The part of the amount due to the poster that the funds cover. -/
def posterPayment (L : L1Ledger) (f : Funding) (p : Address) : U256 :=
  if (L.fundsDue p).isPositive then minWord (L.funds f) (L.fundsDue p).toU256 else 0

/-- The ledger after a payment to the poster. A payment of nothing is skipped. -/
def settlePoster (L : L1Ledger) (f : Funding) (p : Address) (amount : U256) : L1Ledger :=
  if amount = 0 then L
  else (L.pay f (L.payTo p) amount).setFundsDue p
    ((L.fundsDue p).saturatingSub (I256.ofU256 amount))

/-- Pay the poster, as far as the funds go. -/
def payPoster (L : L1Ledger) (f : Funding) (p : Address) : Option TransferError × L1Ledger :=
  let amount := L.posterPayment f p
  match L.refusal (L.payTo p) amount with
  | some e => (some e, L.transferred (L.payTo p) amount)
  | none => (none, L.settlePoster f p amount)

/-! ### The price -/

/-- The funds less what is due. -/
def surplus (L : L1Ledger) (f : Funding) : I256 :=
  (I256.ofU256 (L.funds f)).saturatingSub (L.totalFundsDue.saturatingAdd L.fundsDueForRewards)

/-- The surplus as it is read back: before version 7 the magnitude is stored. -/
def storedSurplus (arbosVersion : U64) (surplus : I256) : I256 :=
  if arbosVersion < arbosVersion7 then I256.fromRaw surplus.unsignedAbs else surplus

/-- The ledger after the price adjustment. -/
def adjustPrice (L : L1Ledger) (f : Funding) (arbosVersion units : U64) : L1Ledger :=
  if 0 < units then
    let change := priceChangeOf (L.surplus f) L.lastSurplus L.equilibrationUnits L.inertia units
    { L with
        lastSurplus := storedSurplus arbosVersion (L.surplus f)
        pricePerUnit := L1PricingState.applyPriceChange L.pricePerUnit change }
  else L

/-! ### The update -/

/-- The end of the update: the time and the price. -/
def finish (L : L1Ledger) (f : Funding) (arbosVersion updateTime units : U64) : L1Ledger :=
  adjustPrice { L with lastUpdateTime := updateTime } f arbosVersion units

/-- The payments and the end of the update. -/
def settle (L : L1Ledger) (f : Funding) (arbosVersion updateTime units : U64) (p : Address) :
    Outcome UpdateSpendingError Unit × L1Ledger :=
  match L.payRewards f units with
  | (some e, L₁) => (.panic (f.rewardsRefused ++ e.debug), L₁)
  | (none, L₁) =>
      match L₁.payPoster f p with
      | (some e, L₂) => (.panic (f.posterRefused ++ e.debug), L₂)
      | (none, L₂) => (.ok (), L₂.finish f arbosVersion updateTime units)

/-- The update for the spending of a batch poster, from version 2 on. A set of posters
that is full makes the registration of a new one panic. -/
def spend (L : L1Ledger) (f : Funding) (arbosVersion updateTime currentTime : U64) (p : Address)
    (weiSpent l1Basefee : U256) : Outcome UpdateSpendingError Unit × L1Ledger :=
  if ¬L.IsPoster p ∧ L.count = BitVec.allOnes 64 then
    (.panic "attempt to add with overflow", L.enroll p)
  else
    let L₁ := L.register p
    if ¬L₁.TimeOk updateTime currentTime then (.err .invalidTime, L₁)
    else
      let units := L₁.allocated updateTime currentTime
      (L₁.account arbosVersion units p weiSpent l1Basefee).settle f arbosVersion updateTime units p

end L1Ledger

end ArbReth
