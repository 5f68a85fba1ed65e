import ArbReth.Multigas.Resources
import ArbReth.Storage.Storage

/-!
# `ArbReth.L2Pricing.Constraint`: the gas constraints

A `GasConstraint` has three slots of its space, a `MultiGasConstraint` has twelve: the
target, the adjustment window, the backlog, the largest weight, and one weight for each
kind of resource. The array of the weights is a function of the kind, and the loops over
it go through `ResourceKind.all`.

A map of weights is its lookup function.
-/

set_option autoImplicit false

namespace ArbReth

open ArbReth.Program

/-- The discriminant of the kind: `kind as u8`. -/
def ResourceKind.asU8 : ResourceKind → U8
  | .unknown => 0
  | .computation => 1
  | .historyGrowth => 2
  | .storageAccess => 3
  | .storageGrowth => 4
  | .l1Calldata => 5
  | .l2Calldata => 6
  | .wasmComputation => 7

/-- `HashMap<u8, u64>`. -/
abbrev WeightMap : Type := U8 → Option U64

/-- The map of the pairs, where a later pair wins. -/
def WeightMap.ofList (pairs : List (U8 × U64)) : WeightMap := fun k => pairs.reverse.lookup k

/-! ### Constraints on one kind of gas -/

/-- `TARGET_OFFSET`. -/
def targetOffset : U64 := 0

/-- `ADJUSTMENT_WINDOW_OFFSET`. -/
def adjustmentWindowOffset : U64 := 1

/-- `BACKLOG_OFFSET`. -/
def backlogOffset : U64 := 2

/-- A constraint on single-dimensional gas. -/
structure GasConstraint where
  targetCell : StorageBackedUint64
  adjustmentWindowCell : StorageBackedUint64
  backlogCell : StorageBackedUint64

namespace GasConstraint

/-- `GasConstraint::open`. -/
def «open» [Keccak] (sto : Storage) : GasConstraint where
  targetCell := sto.openStorageBackedUint64 targetOffset
  adjustmentWindowCell := sto.openStorageBackedUint64 adjustmentWindowOffset
  backlogCell := sto.openStorageBackedUint64 backlogOffset

/-- Clear the three cells of the constraint. -/
def clear (self : GasConstraint) : Exec DbError Unit := do
  self.targetCell.clear
  self.adjustmentWindowCell.clear
  self.backlogCell.clear

/-- The gas per second that the constraint allows. -/
def target (self : GasConstraint) : Exec DbError U64 := self.targetCell.get

/-- Write the target. -/
def setTarget (self : GasConstraint) (val : U64) : Exec DbError Unit := self.targetCell.set val

/-- The seconds over which the price adjusts. -/
def adjustmentWindow (self : GasConstraint) : Exec DbError U64 := self.adjustmentWindowCell.get

/-- Write the adjustment window. -/
def setAdjustmentWindow (self : GasConstraint) (val : U64) : Exec DbError Unit :=
  self.adjustmentWindowCell.set val

/-- The gas above the target that has not been worked off. -/
def backlog (self : GasConstraint) : Exec DbError U64 := self.backlogCell.get

/-- Write the backlog. -/
def setBacklog (self : GasConstraint) (val : U64) : Exec DbError Unit := self.backlogCell.set val

end GasConstraint

/-! ### Constraints on weighted kinds of gas -/

/-- `MAX_WEIGHT_OFFSET`. -/
def maxWeightOffset : U64 := 3

/-- `WEIGHTED_RESOURCES_BASE_OFFSET`. -/
def weightedResourcesBaseOffset : U64 := 4

/-- A constraint on a weighted sum of the kinds of gas. -/
structure MultiGasConstraint where
  targetCell : StorageBackedUint64
  adjustmentWindowCell : StorageBackedUint32
  backlogCell : StorageBackedUint64
  maxWeightCell : StorageBackedUint64
  weightedResources : ResourceKind → StorageBackedUint64

namespace MultiGasConstraint

/-- `MultiGasConstraint::open`. -/
def «open» [Keccak] (sto : Storage) : MultiGasConstraint where
  targetCell := sto.openStorageBackedUint64 targetOffset
  adjustmentWindowCell := sto.openStorageBackedUint32 adjustmentWindowOffset
  backlogCell := sto.openStorageBackedUint64 backlogOffset
  maxWeightCell := sto.openStorageBackedUint64 maxWeightOffset
  weightedResources := fun kind =>
    sto.openStorageBackedUint64 (weightedResourcesBaseOffset + kind.asU8.setWidth 64)

/-- The loop of `clear`. -/
def clearWeights (self : MultiGasConstraint) : List ResourceKind → Exec DbError Unit
  | [] => pure ()
  | kind :: kinds => do
      (self.weightedResources kind).clear
      self.clearWeights kinds

/-- Clear the four cells of the constraint and the weight of each kind. -/
def clear (self : MultiGasConstraint) : Exec DbError Unit := do
  self.targetCell.clear
  self.adjustmentWindowCell.clear
  self.backlogCell.clear
  self.maxWeightCell.clear
  self.clearWeights ResourceKind.all

/-- The weight that the map gives to a kind. -/
def weightOf (weights : WeightMap) (kind : ResourceKind) : U64 := (weights kind.asU8).getD 0

/-- The loop of `setResourceWeights`. The result is the largest weight. -/
def setWeights (self : MultiGasConstraint) (weights : WeightMap) :
    List ResourceKind → (maxWeight : U64) → Exec DbError U64
  | [], maxWeight => pure maxWeight
  | kind :: kinds, maxWeight => do
      let weight := weightOf weights kind
      let maxWeight := if maxWeight < weight then weight else maxWeight
      (self.weightedResources kind).set weight
      self.setWeights weights kinds maxWeight

/-- Write the weight of each kind, and the largest of them. -/
def setResourceWeights (self : MultiGasConstraint) (weights : WeightMap) : Exec DbError Unit := do
  let maxWeight ← self.setWeights weights ResourceKind.all 0
  self.maxWeightCell.set maxWeight

/-- The weighted gas per second that the constraint allows. -/
def target (self : MultiGasConstraint) : Exec DbError U64 := self.targetCell.get

/-- Write the target. -/
def setTarget (self : MultiGasConstraint) (val : U64) : Exec DbError Unit :=
  self.targetCell.set val

/-- The seconds over which the price adjusts, a `u32` here. -/
def adjustmentWindow (self : MultiGasConstraint) : Exec DbError U32 :=
  self.adjustmentWindowCell.get

/-- Write the adjustment window. -/
def setAdjustmentWindow (self : MultiGasConstraint) (val : U32) : Exec DbError Unit :=
  self.adjustmentWindowCell.set val

/-- The weighted gas above the target that has not been worked off. -/
def backlog (self : MultiGasConstraint) : Exec DbError U64 := self.backlogCell.get

/-- Write the backlog. -/
def setBacklog (self : MultiGasConstraint) (val : U64) : Exec DbError Unit :=
  self.backlogCell.set val

end MultiGasConstraint

end ArbReth
