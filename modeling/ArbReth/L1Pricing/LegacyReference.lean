import ArbReth.L1Pricing.LegacyLedger

/-!
# `ArbReth.L1Pricing.LegacyReference`: the Go update before version 2

The source quotes the Go function that the update before version 2 is ported from.
`referenceSpend` is that function on a ledger. Its integers are exact, its products of
`uint64` wrap, and its division is the Euclidean one of `big.Int`. The table of the posters
and the set of its accounts are those of the ledger.

There is no result where the function panics or returns an error, and none where a big
integer does not fit: an operand or a result of signed arithmetic in `I256`, the share of
the funds, a balance and the price in `U256`.
-/

set_option autoImplicit false

namespace ArbReth

/-! ### Big integers -/

/-- A big integer that fits in `I256`. -/
def fits (x : Int) : Option Int := if I256.InRange x then some x else none

/-- A big integer that fits in `U256`. -/
def fitsUnsigned (x : Int) : Option Int := if 0 ≤ x ∧ x < 2 ^ 256 then some x else none

def bigAdd (x y : Int) : Option Int := fits (x + y)

def bigSub (x y : Int) : Option Int := fits (x - y)

def bigMul (x y : Int) : Option Int := fits (x * y)

/-- The Euclidean quotient. A zero divisor panics. -/
def bigDiv (x y : Int) : Option Int := if y = 0 then none else fits (x / y)

namespace L1Ledger

/-! ### The stages -/

/-- The balance of the pool account less what is due. -/
def referenceSurplus (L : L1Ledger) : Option Int := do
  let pool ← fits (L.balance l1PricerFundsPoolAddress).toNat
  let due ← bigAdd L.totalFundsDue.toInt L.fundsDueForRewards.toInt
  bigSub pool due

/-- `SetFundsDue`: write the amount due to a poster, and move the total by the change. -/
def referenceSetFundsDue (L : L1Ledger) (p : Address) (val : Int) : Option L1Ledger := do
  let sum ← bigAdd L.totalFundsDue.toInt val
  let total ← bigSub sum (L.fundsDue p).toInt
  pure { L with
    totalFundsDue := I256.clamp total
    fundsDue := Function.update L.fundsDue p (I256.clamp val) }

/-- `TransferBalance` from the pool account. A lower balance is an error. -/
def referenceTransfer (L : L1Ledger) (dst : Address) (amount : Int) : Option L1Ledger := do
  let pool : Int := (L.balance l1PricerFundsPoolAddress).toNat
  if pool < amount then none
  else
    let balance :=
      Function.update L.balance l1PricerFundsPoolAddress (BitVec.ofInt 256 (pool - amount))
    let sum ← fitsUnsigned ((balance dst).toNat + amount)
    pure { L with balance := Function.update balance dst (BitVec.ofInt 256 sum) }

/-- The wei are due to the poster. -/
def referenceCredit (L : L1Ledger) (p : Address) (weiSpent : U256) : Option L1Ledger := do
  let wei ← fits weiSpent.toNat
  let due ← bigAdd (L.fundsDue p).toInt wei
  L.referenceSetFundsDue p due

/-- The reward for the units is due. -/
def referenceAccrue (L : L1Ledger) (unitsAllocated : U64) : Option L1Ledger := do
  let reward ← bigMul unitsAllocated.toNat L.perUnitReward.toNat
  let due ← bigAdd L.fundsDueForRewards.toInt reward
  pure { L with fundsDueForRewards := I256.clamp due }

/-- Pay the rewards, as much as possible. The result is also what is left of the funds. -/
def referencePayRewards (L : L1Ledger) (unitsAllocated : U64) (availableFunds : Int) :
    Option (Int × L1Ledger) := do
  let owed ← bigMul L.perUnitReward.toNat unitsAllocated.toNat
  let payment := if availableFunds < owed then availableFunds else owed
  let due ← bigSub L.fundsDueForRewards.toInt payment
  let L₁ ← { L with fundsDueForRewards := I256.clamp due }.referenceTransfer L.payRewardsTo payment
  pure (availableFunds - payment, L₁)

/-- Pay the posters one after another, as much as possible. -/
def referenceSettle : List Address → (availableFunds : Int) → L1Ledger → Option L1Ledger
  | [], _, L => some L
  | p :: posters, availableFunds, L =>
      if ¬L.IsPoster p then none
      else
        let due := (L.fundsDue p).toInt
        let amount := if availableFunds < due then availableFunds else due
        if 0 < amount then do
          let L₁ ← L.referenceTransfer (L.payTo p) amount
          let rest ← bigSub due amount
          let L₂ ← L₁.referenceSetFundsDue p rest
          referenceSettle posters (availableFunds - amount) L₂
        else referenceSettle posters availableFunds L

/-- Adjust the price. It does not fall below zero. -/
def referenceAdjustPrice (L : L1Ledger) (oldSurplus : Int) (unitsAllocated : U64) :
    Option L1Ledger :=
  if 0 < unitsAllocated then do
    let surplus ← L.referenceSurplus
    let equilUnits ← fits L.equilibrationUnits.toNat
    let inertiaUnits ← bigDiv equilUnits L.inertia.toNat
    let allocPlusInert ← bigAdd inertiaUnits unitsAllocated.toNat
    let weight ← bigSub equilUnits 1
    let gained ← bigMul surplus weight
    let held ← bigMul oldSurplus equilUnits
    let numerator ← bigSub gained held
    let denominator ← bigMul equilUnits allocPlusInert
    let priceChange ← bigDiv numerator denominator
    let newPrice : Int := L.pricePerUnit.toNat + priceChange
    let price ← fitsUnsigned (if newPrice < 0 then 0 else newPrice)
    pure { L with pricePerUnit := BitVec.ofInt 256 price }
  else some L

/-! ### The update -/

/-- The payments and the end of the update. -/
def referencePayAll (L : L1Ledger) (updateTime unitsAllocated : U64) (availableFunds : Int)
    (oldSurplus : Int) : Option L1Ledger := do
  let (rest, L₁) ← L.referencePayRewards unitsAllocated availableFunds
  let L₂ ← referenceSettle L₁.posterList rest L₁
  { L₂ with lastUpdateTime := updateTime }.referenceAdjustPrice oldSurplus unitsAllocated

/-- `_preVersion2_UpdateForBatchPosterSpending`. A set of posters that is full makes the
registration of a new one panic. -/
def referenceSpend (L : L1Ledger) (updateTime currentTime : U64) (batchPoster : Address)
    (weiSpent : U256) : Option L1Ledger :=
  if ¬L.IsPoster batchPoster ∧ L.count = BitVec.allOnes 64 then none
  else do
    let L₁ := L.register batchPoster
    let oldSurplus ← L₁.referenceSurplus
    let lastUpdateTime :=
      if L₁.lastUpdateTime = 0 ∧ 0 < currentTime then updateTime - 1 else L₁.lastUpdateTime
    if currentTime ≤ updateTime ∨ updateTime < lastUpdateTime then pure L₁
    else
      let elapsed := currentTime - lastUpdateTime
      let numerator := if elapsed = 0 then 1 else updateTime - lastUpdateTime
      let denominator := if elapsed = 0 then 1 else elapsed
      -- a product of `uint64` wraps
      let unitsAllocated := L₁.unitsSinceUpdate * numerator / denominator
      let L₂ ← { L₁ with
        unitsSinceUpdate := L₁.unitsSinceUpdate - unitsAllocated }.referenceCredit batchPoster
          weiSpent
      let L₃ ← L₂.referenceAccrue unitsAllocated
      let product ← fitsUnsigned
        ((L₃.balance l1PricerFundsPoolAddress).toNat * numerator.toNat)
      L₃.referencePayAll updateTime unitsAllocated (product / denominator.toNat) oldSurplus

end L1Ledger

end ArbReth
