import ArbReth.L1Pricing.Ledger

/-!
# `ArbReth.L1Pricing.Transaction`: the update in one transaction, on ledgers

In a transaction of revm a getter reads the database, and a setter writes to the journal. So
an update reads each amount as it was before the transaction, also one that it has written
itself. `D` is the ledger in the database, and `L` the one that a commit would leave.

A stage of `spend` that reads what an earlier stage has written has a counterpart here with
the suffix `Over`, which reads it from `D`. `spendOver` is the update.
-/

set_option autoImplicit false

namespace ArbReth.L1Ledger

open ArbReth.Program

/-- Write the amount due to a poster. The old amount and the total are read from `D`. -/
def setFundsDueOver (L D : L1Ledger) (p : Address) (val : I256) : L1Ledger :=
  { L with
      totalFundsDue := (D.totalFundsDue.saturatingAdd val).saturatingSub (D.fundsDue p)
      fundsDue := Function.update L.fundsDue p val }

/-- The ledger before the payments: the poster is registered, the units are taken, the poster
is credited and the reward is accrued. -/
def accountOver (D : L1Ledger) (arbosVersion units : U64) (p : Address)
    (weiSpent l1Basefee : U256) : L1Ledger :=
  (((D.register p).takeUnits units).setFundsDueOver D p ((D.fundsDue p).saturatingAdd
    (I256.ofU256 (D.accounted arbosVersion units weiSpent l1Basefee)))).accrue units

/-- The payment to the poster. What is due to it is read from `D`. -/
def posterPaymentOver (L D : L1Ledger) (p : Address) : U256 :=
  if (D.fundsDue p).isPositive then minWord L.l1FeesAvailable (D.fundsDue p).toU256 else 0

/-- The ledger after a payment to the poster. The counter is lowered from that of `D`. -/
def settlePosterOver (L D : L1Ledger) (p : Address) (amount : U256) : L1Ledger :=
  if amount = 0 then L
  else
    setFundsDueOver { L with
        balance := movedBalance L.balance l1PricerFundsPoolAddress (D.payTo p) amount
        l1FeesAvailable := D.l1FeesAvailable - amount }
      D p ((D.fundsDue p).saturatingSub (I256.ofU256 amount))

/-- The surplus that the price is adjusted by: the funds that are left, less the amounts due
in `D`. -/
def surplusOver (L D : L1Ledger) : I256 :=
  (I256.ofU256 L.l1FeesAvailable).saturatingSub (D.totalFundsDue.saturatingAdd D.fundsDueForRewards)

/-- The ledger after the price adjustment. -/
def adjustPriceOver (L D : L1Ledger) (arbosVersion units : U64) : L1Ledger :=
  if 0 < units then
    let change :=
      priceChangeOf (L.surplusOver D) D.lastSurplus D.equilibrationUnits D.inertia units
    { L with
        lastSurplus := storedSurplus arbosVersion (L.surplusOver D)
        pricePerUnit := L1PricingState.applyPriceChange D.pricePerUnit change }
  else L

/-- The payment to the poster and the end of the update. -/
def settleOver (L D : L1Ledger) (arbosVersion updateTime units : U64) (p : Address) :
    Outcome UpdateSpendingError Unit × L1Ledger :=
  let amount := L.posterPaymentOver D p
  match L.refusal (D.payTo p) amount with
  | some e => (.panic (Funding.counter.posterRefused ++ e.debug), L.transferred (D.payTo p) amount)
  | none => (.ok (), adjustPriceOver { L.settlePosterOver D p amount with
      lastUpdateTime := updateTime } D arbosVersion units)

/-- The payments and the end of the update. The counter is not written before the payment of
the rewards. -/
def payOver (L D : L1Ledger) (arbosVersion updateTime units : U64) (p : Address) :
    Outcome UpdateSpendingError Unit × L1Ledger :=
  match L.payRewards .counter units with
  | (some e, L₁) => (.panic (Funding.counter.rewardsRefused ++ e.debug), L₁)
  | (none, L₁) => L₁.settleOver D arbosVersion updateTime units p

/-- The update for the spending of a batch poster in one transaction, from version 10 on. -/
def spendOver (D : L1Ledger) (arbosVersion updateTime currentTime : U64) (p : Address)
    (weiSpent l1Basefee : U256) : Outcome UpdateSpendingError Unit × L1Ledger :=
  if ¬D.IsPoster p ∧ D.count = BitVec.allOnes 64 then
    (.panic "attempt to add with overflow", D.enroll p)
  else if ¬D.TimeOk updateTime currentTime then (.err .invalidTime, D.register p)
  else
    let units := D.allocated updateTime currentTime
    (D.accountOver arbosVersion units p weiSpent l1Basefee).payOver D arbosVersion updateTime
      units p

end ArbReth.L1Ledger
