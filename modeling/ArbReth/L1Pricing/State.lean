import ArbReth.L1Pricing.BatchPoster

/-!
# `ArbReth.L1Pricing.State`: the state of the L1 pricer

`L1PricingState` is a handle: one cell for each of the thirteen scalars in the slots 0 to
12, and the table of the batch posters in the sub-space with the id `[0]`. It holds no
value. Every getter reads its slot again, and every setter writes it at once, so two
handles on one space are the same state. `initializeL1PricingState` writes a fresh state,
and `openL1PricingState` opens the handle.

## What the scalars are for

The pricer collects fees for the posting of batches and pays them out. `pricePerUnit` is
what a user pays for a unit of data, and `unitsSinceUpdate` counts the units that were paid
for since `lastUpdateTime`. `fundsDueForRewards` is owed to `payRewardsTo`, with
`perUnitReward` for each unit, and the table has what is owed to each poster.
`equilibrationUnits`, `inertia` and `lastSurplus` steer the price.

## Funds

`l1FeesAvailable` counts the funds of the pool account that the pricer may pay out.
`transferFromL1FeesAvailable` pays from the pool account and lowers the counter. It panics
when the payment is refused and when the counter is too small. In the first case the
counter is not lowered, though the EVM may have debited the pool account before it refused.

## Versions

Three functions depend on the version of ArbOS. `setLastSurplus` has the version as an
argument, and `parentGasFloorPerToken` and its setter use the one of the handle.
-/

set_option autoImplicit false

namespace ArbReth

open ArbReth.Program

/-- `BATCH_POSTER_TABLE_KEY`, the id of the sub-space of the table. -/
def batchPosterTableKey : Bytes := [0]

/-- `BATCH_POSTER_ADDRESS`, the sequencer, which is a poster from the start. -/
def batchPosterAddress : Address := 0xA4B000000000000000000073657175656e636572

/-- `L1_PRICER_FUNDS_POOL_ADDRESS`, the account from which the pricer pays. -/
def l1PricerFundsPoolAddress : Address := 0x6c

/-- The account that is paid the rewards. -/
def payRewardsToOffset : U64 := 0
/-- The units over which the price is to even out a surplus. -/
def equilibrationUnitsOffset : U64 := 1
/-- The damping of the price: the units above are divided by it. -/
def inertiaOffset : U64 := 2
/-- The reward for a unit, in wei. -/
def perUnitRewardOffset : U64 := 3
/-- The time of the last update. -/
def lastUpdateTimeOffset : U64 := 4
/-- The rewards that are owed. -/
def fundsDueForRewardsOffset : U64 := 5
/-- The units since the last update. -/
def unitsSinceOffset : U64 := 6
/-- The price of a unit, in wei. -/
def pricePerUnitOffset : U64 := 7
/-- The surplus at the last update. -/
def lastSurplusOffset : U64 := 8
/-- The gas of a batch, beside that of its data. -/
def perBatchGasCostOffset : U64 := 9
/-- The cap on what a poster is refunded, in basis points. Zero stands for no cap. -/
def amortizedCostCapBipsOffset : U64 := 10
/-- The funds of the pool account that may be paid out. -/
def l1FeesAvailableOffset : U64 := 11
/-- The gas floor for a token of the parent chain, from version 50 on. -/
def gasFloorPerTokenOffset : U64 := 12

/-- `INITIAL_INERTIA`, of a fresh state. -/
def initialInertia : U64 := 10

/-- `INITIAL_PER_UNIT_REWARD`, of a fresh state. -/
def initialPerUnitReward : U64 := 10

/-- `INITIAL_EQUILIBRATION_UNITS_V0`, of a fresh state. -/
def initialEquilibrationUnitsV0 : U64 := 60 * 16 * 100000

/-- From this version on, an update does not pay all posters. -/
def arbosVersion2 : U64 := 2
/-- From this version on, what a poster is refunded is capped. -/
def arbosVersion3 : U64 := 3
/-- From this version on, a negative surplus is stored with its sign. -/
def arbosVersion7 : U64 := 7
/-- From this version on, the fees are counted by `l1FeesAvailable`. -/
def arbosVersion10 : U64 := 10
/-- From this version on, there is a gas floor. -/
def arbosVersion50 : U64 := 50

/-- The handle of the state of the L1 pricer: its table, a cell for each scalar, and the
version of ArbOS that it was opened with. -/
structure L1PricingState where
  batchPosterTable : BatchPostersTable
  payRewardsToCell : StorageBackedAddress
  equilibrationUnitsCell : StorageBackedBigUint
  inertiaCell : StorageBackedUint64
  perUnitRewardCell : StorageBackedUint64
  lastUpdateTimeCell : StorageBackedUint64
  fundsDueForRewardsCell : StorageBackedBigInt
  unitsSinceUpdateCell : StorageBackedUint64
  pricePerUnitCell : StorageBackedBigUint
  lastSurplusCell : StorageBackedBigInt
  perBatchGasCostCell : StorageBackedInt64
  amortizedCostCapBipsCell : StorageBackedUint64
  l1FeesAvailableCell : StorageBackedBigUint
  gasFloorPerTokenCell : StorageBackedUint64
  arbosVersion : U64

/-- The errors of `updateForBatchPosterSpending`: one of the database, or a time that is out
of order. -/
inductive UpdateSpendingError where
  | db (e : DbError)
  | invalidTime
deriving DecidableEq, Repr

/-- Write a fresh state, with the one batch poster `batchPosterAddress`, which is paid for
itself. The scalars that are not written keep their slots, which are zero in a fresh
space. -/
def initializeL1PricingState [Keccak] (sto : Storage) (initialRewardsRecipient : Address)
    (initialL1BaseFee : U256) : Exec DbError Unit := do
  let bptStorage := sto.openCachedSubStorage batchPosterTableKey
  BatchPostersTable.initializeTable bptStorage
  let bpTable := BatchPostersTable.open bptStorage
  let _ ← (bpTable.addPoster batchPosterAddress batchPosterAddress).handleErr fun
    | .db e => .fail e
    | .semantic e =>
        .panic ("unexpected semantic error adding initial batch poster: " ++ e.debug)
  (sto.openStorageBackedAddress payRewardsToOffset).set initialRewardsRecipient
  (sto.openStorageBackedBigUint equilibrationUnitsOffset).setChecked
    (U256.ofU64 initialEquilibrationUnitsV0)
  sto.setUint64ByUint64 inertiaOffset initialInertia
  (sto.openStorageBackedBigInt fundsDueForRewardsOffset).setChecked I256.zero
  sto.setUint64ByUint64 perUnitRewardOffset initialPerUnitReward
  (sto.openStorageBackedBigUint pricePerUnitOffset).setSaturatingWithWarning initialL1BaseFee
    "initial L1 base fee (storing in price per unit)"

/-- Open the handle on the space. Nothing is read. -/
def openL1PricingState [Keccak] (sto : Storage) (arbosVersion : U64) : L1PricingState where
  batchPosterTable := BatchPostersTable.open (sto.openCachedSubStorage batchPosterTableKey)
  payRewardsToCell := sto.openStorageBackedAddress payRewardsToOffset
  equilibrationUnitsCell := sto.openStorageBackedBigUint equilibrationUnitsOffset
  inertiaCell := sto.openStorageBackedUint64 inertiaOffset
  perUnitRewardCell := sto.openStorageBackedUint64 perUnitRewardOffset
  lastUpdateTimeCell := sto.openStorageBackedUint64 lastUpdateTimeOffset
  fundsDueForRewardsCell := sto.openStorageBackedBigInt fundsDueForRewardsOffset
  unitsSinceUpdateCell := sto.openStorageBackedUint64 unitsSinceOffset
  pricePerUnitCell := sto.openStorageBackedBigUint pricePerUnitOffset
  lastSurplusCell := sto.openStorageBackedBigInt lastSurplusOffset
  perBatchGasCostCell := sto.openStorageBackedInt64 perBatchGasCostOffset
  amortizedCostCapBipsCell := sto.openStorageBackedUint64 amortizedCostCapBipsOffset
  l1FeesAvailableCell := sto.openStorageBackedBigUint l1FeesAvailableOffset
  gasFloorPerTokenCell := sto.openStorageBackedUint64 gasFloorPerTokenOffset
  arbosVersion := arbosVersion

namespace L1PricingState

/-! ### The scalars -/

/-- The recipient of the rewards, from the low 20 bytes of the slot. -/
def payRewardsTo (self : L1PricingState) : Exec DbError Address := self.payRewardsToCell.get

/-- Set the recipient of the rewards. -/
def setPayRewardsTo (self : L1PricingState) (addr : Address) : Exec DbError Unit :=
  self.payRewardsToCell.set addr

/-- The equilibration units, the whole word. -/
def equilibrationUnits (self : L1PricingState) : Exec DbError U256 :=
  self.equilibrationUnitsCell.get

/-- Set the equilibration units. Every word fits. -/
def setEquilibrationUnits (self : L1PricingState) (equilUnits : U256) : Exec DbError Unit :=
  self.equilibrationUnitsCell.setChecked equilUnits

/-- The inertia of the price. -/
def inertia (self : L1PricingState) : Exec DbError U64 := self.inertiaCell.get

/-- Set the inertia, which may be zero. -/
def setInertia (self : L1PricingState) (inertia : U64) : Exec DbError Unit :=
  self.inertiaCell.set inertia

/-- The reward for a unit. -/
def perUnitReward (self : L1PricingState) : Exec DbError U64 := self.perUnitRewardCell.get

/-- Set the reward for a unit. -/
def setPerUnitReward (self : L1PricingState) (weiPerUnit : U64) : Exec DbError Unit :=
  self.perUnitRewardCell.set weiPerUnit

/-- The time of the last update. Zero stands for no update yet. -/
def lastUpdateTime (self : L1PricingState) : Exec DbError U64 := self.lastUpdateTimeCell.get

/-- Set the time of the last update. -/
def setLastUpdateTime (self : L1PricingState) (t : U64) : Exec DbError Unit :=
  self.lastUpdateTimeCell.set t

/-- The rewards that are owed, which may be negative. -/
def fundsDueForRewards (self : L1PricingState) : Exec DbError I256 :=
  self.fundsDueForRewardsCell.get

/-- Set the rewards that are owed. Every `I256` fits in the slot, so nothing saturates. -/
def setFundsDueForRewards (self : L1PricingState) (amt : I256) : Exec DbError Unit :=
  self.fundsDueForRewardsCell.setSaturatingWithWarning amt "L1 pricer funds due for rewards"

/-- The units since the last update. -/
def unitsSinceUpdate (self : L1PricingState) : Exec DbError U64 := self.unitsSinceUpdateCell.get

/-- Set the units since the last update. -/
def setUnitsSinceUpdate (self : L1PricingState) (units : U64) : Exec DbError Unit :=
  self.unitsSinceUpdateCell.set units

/-- The surplus at the last update, as it was stored. -/
def lastSurplus (self : L1PricingState) : Exec DbError I256 := self.lastSurplusCell.get

/-- Set the surplus at the last update. Before version 7, its magnitude is stored. -/
def setLastSurplus (self : L1PricingState) (val : I256) (arbosVersion : U64) :
    Exec DbError Unit :=
  if arbosVersion < arbosVersion7 then self.lastSurplusCell.setPreVersion7 val
  else self.lastSurplusCell.setSaturatingWithWarning val "L1 pricer last surplus"

/-- Add to the units since the last update. The sum saturates. -/
def addToUnitsSinceUpdate (self : L1PricingState) (units : U64) : Exec DbError Unit := do
  let oldUnits ← self.unitsSinceUpdateCell.get
  self.unitsSinceUpdateCell.set (saturatingAdd oldUnits units)

/-- The price of a unit, the whole word. -/
def pricePerUnit (self : L1PricingState) : Exec DbError U256 := self.pricePerUnitCell.get

/-- Set the price of a unit. Every word fits. -/
def setPricePerUnit (self : L1PricingState) (price : U256) : Exec DbError Unit :=
  self.pricePerUnitCell.setChecked price

/-- Set the gas floor. The setter panics before version 50, and writes nothing. -/
def setParentGasFloorPerToken (self : L1PricingState) (floor : U64) : Exec DbError Unit :=
  if arbosVersion50 ≤ self.arbosVersion then self.gasFloorPerTokenCell.set floor
  else .panic "SetParentGasFloorPerToken requires ArbOS v50+"

/-- The gas floor. Before version 50 it is zero, and the slot is not read. -/
def parentGasFloorPerToken (self : L1PricingState) : Exec DbError U64 :=
  if self.arbosVersion < arbosVersion50 then pure 0 else self.gasFloorPerTokenCell.get

/-- The gas of a batch, as a signed number. -/
def perBatchGasCost (self : L1PricingState) : Exec DbError I64 := self.perBatchGasCostCell.get

/-- Set the gas of a batch. -/
def setPerBatchGasCost (self : L1PricingState) (cost : I64) : Exec DbError Unit :=
  self.perBatchGasCostCell.set cost

/-- The cap on what a poster is refunded. -/
def amortizedCostCapBips (self : L1PricingState) : Exec DbError U64 :=
  self.amortizedCostCapBipsCell.get

/-- Set the cap on what a poster is refunded. -/
def setAmortizedCostCapBips (self : L1PricingState) (cap : U64) : Exec DbError Unit :=
  self.amortizedCostCapBipsCell.set cap

/-- The counter of the fees. -/
def l1FeesAvailable (self : L1PricingState) : Exec DbError U256 := self.l1FeesAvailableCell.get

/-- Set the counter of the fees, without a payment. -/
def setL1FeesAvailable (self : L1PricingState) (val : U256) : Exec DbError Unit :=
  self.l1FeesAvailableCell.setChecked val

/-! ### Funds -/

/-- The surplus of the funds over what is owed, `haveFunds - needFunds`. Both operations
saturate. The counter is converted to an `I256`, as its bits are. -/
def getL1PricingSurplus (self : L1PricingState) : Exec DbError I256 := do
  let fundsDueForRefunds ← self.batchPosterTable.totalFundsDue
  let fundsDueForRewards ← self.fundsDueForRewardsCell.get
  let haveFunds ← self.l1FeesAvailableCell.get
  let needFunds := fundsDueForRefunds.saturatingAdd fundsDueForRewards
  pure ((I256.ofU256 haveFunds).saturatingSub needFunds)

/-- Raise the counter by `delta`, with saturation. The result is the new counter. No balance
moves: the funds have come in before. -/
def addToL1FeesAvailable (self : L1PricingState) (delta : U256) : Exec DbError U256 := do
  let old ← self.l1FeesAvailableCell.get
  let new := saturatingAdd old delta
  self.l1FeesAvailableCell.setChecked new
  pure new

/-- Pay `amount` from the pool account and lower the counter. The result is the new counter.
The payment comes first: a counter that is too small is found when the funds have moved. -/
def transferFromL1FeesAvailable (self : L1PricingState) (recipient : Address) (amount : U256) :
    Exec DbError U256 := do
  match ← Exec.transfer l1PricerFundsPoolAddress recipient amount with
  | some err =>
      .panic ("transfer_from_l1_fees_available: EVM balance transfer failed: " ++ err.debug)
  | none =>
      let old ← self.l1FeesAvailableCell.get
      if amount ≤ old then
        let updated := old - amount
        self.l1FeesAvailableCell.setChecked updated
        pure updated
      else
        .panic ("transfer_from_l1_fees_available: stored l1FeesAvailable inconsistent with "
          ++ "EVM balance")

end L1PricingState

end ArbReth
