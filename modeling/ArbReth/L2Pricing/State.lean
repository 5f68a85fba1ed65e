import ArbReth.L2Pricing.Constraint
import ArbReth.Storage.Vector

/-!
# `ArbReth.L2Pricing.State`: the state of the L2 pricer

The handle has one cell for each of the eight scalars in the slots 0 to 7 of its space, and
two vectors of sub-spaces, of the gas constraints and of the multi-gas constraints.

## What the state is for

The scalars are the base fee and its minimum, the limits on the gas of a second, of a block
and of a transaction, and the backlog with its two parameters. A gas constraint is a target
with a window and a backlog of its own. A multi-gas constraint weighs the kinds of gas as
well. The functions here store these values and move them between the lists. How the base
fee follows from them is not part of the source.

## Lists

A list is a `SubStorageVector`: a length, and the space of each index, whether it is below
the length or not. So the handle of an element past the end can be opened, and its slots
are whatever was left there. Removing an element clears its slots, and adding one writes
all of them.

The two loops that clear a vector are `Prog.forRange`: the length is read once, and each
round takes the last element. The fees for each kind of gas are in a sub-space that none of
these operations opens. They are in `ArbReth.L2Pricing.MultiGasFees`.
-/

set_option autoImplicit false

namespace ArbReth

open ArbReth.Program

/-! ### Offsets, keys and parameters -/

/-- The gas that may be used in a second. -/
def speedLimitPerSecondOffset : U64 := 0
/-- The gas that may be used in a block. -/
def perBlockGasLimitOffset : U64 := 1
/-- The base fee. -/
def baseFeeWeiOffset : U64 := 2
/-- The least base fee. -/
def minBaseFeeWeiOffset : U64 := 3
/-- The gas that is waiting. -/
def gasBacklogOffset : U64 := 4
/-- How slowly the base fee follows the backlog. -/
def pricingInertiaOffset : U64 := 5
/-- The backlog that is tolerated, in seconds of the speed limit. -/
def backlogToleranceOffset : U64 := 6
/-- The gas that may be used in a transaction. -/
def perTxGasLimitOffset : U64 := 7

/-- The id of the sub-space of the gas constraints. -/
def gasConstraintsKey : Bytes := [0]
/-- The id of the sub-space of the multi-gas constraints. -/
def multiGasConstraintsKey : Bytes := [1]

/-- The speed limit of a fresh state. -/
def initialSpeedLimitPerSecondV0 : U64 := 1000000
/-- The limit of a block of a fresh state. -/
def initialPerBlockGasLimitV0 : U64 := 20 * 1000000
/-- The least base fee of a fresh state. -/
def initialMinimumBaseFeeWei : U64 := 100000000
/-- A fresh state has the least base fee. -/
def initialBaseFeeWei : U64 := initialMinimumBaseFeeWei
/-- The inertia of a fresh state. -/
def initialPricingInertia : U64 := 102
/-- The tolerance of a fresh state. -/
def initialBacklogTolerance : U64 := 10

/-- The handle of the L2 pricer: a cell for each scalar, and the two lists. -/
structure L2PricingState where
  speedLimitPerSecondCell : StorageBackedUint64
  perBlockGasLimitCell : StorageBackedUint64
  baseFeeWeiCell : StorageBackedBigUint
  minBaseFeeWeiCell : StorageBackedBigUint
  gasBacklogCell : StorageBackedUint64
  pricingInertiaCell : StorageBackedUint64
  backlogToleranceCell : StorageBackedUint64
  perTxGasLimitCell : StorageBackedUint64
  gasConstraints : SubStorageVector
  multiGasConstraints : SubStorageVector

/-- Write the initial parameters. The limit of a transaction is not one of them, and the
lists are not touched. -/
def initializeL2PricingState [Keccak] (sto : Storage) : Exec DbError Unit := do
  sto.setUint64ByUint64 speedLimitPerSecondOffset initialSpeedLimitPerSecondV0
  sto.setUint64ByUint64 perBlockGasLimitOffset initialPerBlockGasLimitV0
  sto.setUint64ByUint64 baseFeeWeiOffset initialBaseFeeWei
  sto.setUint64ByUint64 gasBacklogOffset 0
  sto.setUint64ByUint64 pricingInertiaOffset initialPricingInertia
  sto.setUint64ByUint64 backlogToleranceOffset initialBacklogTolerance
  sto.setUint64ByUint64 minBaseFeeWeiOffset initialMinimumBaseFeeWei

/-- Open the handle on the space. Nothing is read. -/
def openL2PricingState [Keccak] (sto : Storage) : L2PricingState where
  speedLimitPerSecondCell := sto.openStorageBackedUint64 speedLimitPerSecondOffset
  perBlockGasLimitCell := sto.openStorageBackedUint64 perBlockGasLimitOffset
  baseFeeWeiCell := sto.openStorageBackedBigUint baseFeeWeiOffset
  minBaseFeeWeiCell := sto.openStorageBackedBigUint minBaseFeeWeiOffset
  gasBacklogCell := sto.openStorageBackedUint64 gasBacklogOffset
  pricingInertiaCell := sto.openStorageBackedUint64 pricingInertiaOffset
  backlogToleranceCell := sto.openStorageBackedUint64 backlogToleranceOffset
  perTxGasLimitCell := sto.openStorageBackedUint64 perTxGasLimitOffset
  gasConstraints := SubStorageVector.open (sto.openSubStorage gasConstraintsKey)
  multiGasConstraints := SubStorageVector.open (sto.openSubStorage multiGasConstraintsKey)

namespace L2PricingState

/-- The weights of a migrated constraint: six of the kinds of gas count alike. -/
def equalWeights : WeightMap :=
  WeightMap.ofList
    [(ResourceKind.computation.asU8, 1), (ResourceKind.historyGrowth.asU8, 1),
      (ResourceKind.storageAccess.asU8, 1), (ResourceKind.storageGrowth.asU8, 1),
      (ResourceKind.l2Calldata.asU8, 1), (ResourceKind.wasmComputation.asU8, 1)]

variable (self : L2PricingState)

/-! ### The scalars -/

/-- The base fee, the whole word. -/
def baseFeeWei : Exec DbError U256 := self.baseFeeWeiCell.get

/-- Set the base fee. Every word fits in the slot, so nothing saturates. -/
def setBaseFeeWei (val : U256) : Exec DbError Unit :=
  self.baseFeeWeiCell.setSaturatingWithWarning val "L2 base fee"

/-- The least base fee, the whole word. -/
def minBaseFeeWei : Exec DbError U256 := self.minBaseFeeWeiCell.get

/-- Set the least base fee. -/
def setMinBaseFeeWei (val : U256) : Exec DbError Unit := self.minBaseFeeWeiCell.setChecked val

/-- The speed limit. -/
def speedLimitPerSecond : Exec DbError U64 := self.speedLimitPerSecondCell.get

/-- Set the speed limit. -/
def setSpeedLimitPerSecond (limit : U64) : Exec DbError Unit :=
  self.speedLimitPerSecondCell.set limit

/-- The limit of a block. -/
def perBlockGasLimit : Exec DbError U64 := self.perBlockGasLimitCell.get

/-- Set the limit of a block. -/
def setMaxPerBlockGasLimit (limit : U64) : Exec DbError Unit := self.perBlockGasLimitCell.set limit

/-- The limit of a transaction. -/
def perTxGasLimit : Exec DbError U64 := self.perTxGasLimitCell.get

/-- Set the limit of a transaction. -/
def setMaxPerTxGasLimit (limit : U64) : Exec DbError Unit := self.perTxGasLimitCell.set limit

/-- The backlog. -/
def gasBacklog : Exec DbError U64 := self.gasBacklogCell.get

/-- Set the backlog. -/
def setGasBacklog (backlog : U64) : Exec DbError Unit := self.gasBacklogCell.set backlog

/-- The inertia of the base fee. -/
def pricingInertia : Exec DbError U64 := self.pricingInertiaCell.get

/-- Set the inertia of the base fee. -/
def setPricingInertia (val : U64) : Exec DbError Unit := self.pricingInertiaCell.set val

/-- The backlog that is tolerated. -/
def backlogTolerance : Exec DbError U64 := self.backlogToleranceCell.get

/-- Set the backlog that is tolerated. -/
def setBacklogTolerance (val : U64) : Exec DbError Unit := self.backlogToleranceCell.set val

/-! ### The lengths -/

/-- The number of the gas constraints. -/
def gasConstraintsLength : Exec DbError U64 := self.gasConstraints.length

/-- The number of the multi-gas constraints. -/
def multiGasConstraintsLength : Exec DbError U64 := self.multiGasConstraints.length

variable [Keccak]

/-! ### The gas constraints -/

/-- The handle of the element `i`, also past the end. -/
def openGasConstraintAt (i : U64) : GasConstraint := GasConstraint.open (self.gasConstraints.at_ i)

/-- Append a gas constraint. The list is longer before the first field is written. -/
def addGasConstraint (target adjustmentWindow backlog : U64) : Exec DbError Unit := do
  let subStorage ← self.gasConstraints.push
  let constraint := GasConstraint.open subStorage
  constraint.setTarget target
  constraint.setAdjustmentWindow adjustmentWindow
  constraint.setBacklog backlog

/-- Remove all gas constraints, from the last on, and clear the slots of each. -/
def clearGasConstraints : Exec DbError Unit := do
  let length ← self.gasConstraintsLength
  Prog.forRange (fun _ => do
    let subStorage ← self.gasConstraints.pop
    (GasConstraint.open subStorage).clear) 0 length.toNat

/-! ### The multi-gas constraints -/

/-- The handle of the element `i`, also past the end. -/
def openMultiGasConstraintAt (i : U64) : MultiGasConstraint :=
  MultiGasConstraint.open (self.multiGasConstraints.at_ i)

/-- Append a multi-gas constraint. The list is longer before the first field is written, and
the weights are written last. -/
def addMultiGasConstraint (target : U64) (adjustmentWindow : U32) (backlog : U64)
    (weights : WeightMap) : Exec DbError Unit := do
  let subStorage ← self.multiGasConstraints.push
  let constraint := MultiGasConstraint.open subStorage
  constraint.setTarget target
  constraint.setAdjustmentWindow adjustmentWindow
  constraint.setBacklog backlog
  constraint.setResourceWeights weights

/-- Remove all multi-gas constraints, from the last on, and clear the slots of each. -/
def clearMultiGasConstraints : Exec DbError Unit := do
  let length ← self.multiGasConstraintsLength
  Prog.forRange (fun _ => do
    let subStorage ← self.multiGasConstraints.pop
    (MultiGasConstraint.open subStorage).clear) 0 length.toNat

/-! ### The migrations -/

/-- Replace the gas constraints by one with the legacy parameters. The backlog is that above
the tolerance, with saturation. -/
def setGasConstraintsFromLegacy : Exec DbError Unit := do
  self.clearGasConstraints
  let target ← self.speedLimitPerSecondCell.get
  let adjustmentWindow ← self.pricingInertiaCell.get
  let oldBacklog ← self.gasBacklogCell.get
  let backlogTolerance ← self.backlogToleranceCell.get
  let backlog := saturatingSub oldBacklog (saturatingMul backlogTolerance target)
  self.addGasConstraint target adjustmentWindow backlog

/-- Replace the multi-gas constraints by one for each gas constraint, in the same order. A
window that is too long for 32 bits is cut to the longest. -/
def setMultiGasConstraintsFromSingleGasConstraints : Exec DbError Unit := do
  self.clearMultiGasConstraints
  let length ← self.gasConstraintsLength
  Prog.forRange (fun i => do
    let c := self.openGasConstraintAt (BitVec.ofNat 64 i)
    let target ← c.target
    let window ← c.adjustmentWindow
    let backlog ← c.backlog
    let adjustmentWindow : U32 := (minWord window (BitVec.ofNat 64 (2 ^ 32 - 1))).setWidth 32
    self.addMultiGasConstraint target adjustmentWindow backlog equalWeights) 0 length.toNat

end L2PricingState

end ArbReth
