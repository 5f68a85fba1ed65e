import ArbReth.L2Pricing.State
import ArbReth.Program.Realizes

/-!
# `ArbReth.L2Pricing.Record`: the L2 pricer as a record

What the state is for: eight scalars, a list of gas constraints and a list of multi-gas
constraints, where the largest weight of a multi-gas constraint is part of it and always
right. `L2Op.apply` is the meaning of each operation on such a record, and `L2Op.program`
is the program of the operation.

An operation on a constraint names it by its place. It is meant for the places of the
list only (`L2Op.InBounds`), as the handle of a place past the end can be opened as well.
-/

set_option autoImplicit false

namespace ArbReth

open ArbReth.Program

/-! ### The constraints -/

/-- A gas constraint. -/
structure GasConstraintData where
  target : U64
  adjustmentWindow : U64
  backlog : U64
deriving DecidableEq

/-- A multi-gas constraint. Its largest weight is an upper bound and one of the weights. -/
structure MultiGasConstraintData where
  target : U64
  adjustmentWindow : U32
  backlog : U64
  weights : ResourceKind → U64
  maxWeight : U64
  le_maxWeight : ∀ kind, weights kind ≤ maxWeight
  maxWeight_mem : ∃ kind, weights kind = maxWeight

/-- The largest weight of the kinds of a list, and no less than `maxWeight`. -/
def largestFrom (weights : ResourceKind → U64) (kinds : List ResourceKind) (maxWeight : U64) :
    U64 :=
  kinds.foldl (fun m kind => if m < weights kind then weights kind else m) maxWeight

section
variable (weights : ResourceKind → U64) {kinds : List ResourceKind}

/-- The search for the largest weight never goes below its start. -/
theorem le_largestFrom (kinds : List ResourceKind) (maxWeight : U64) :
    maxWeight ≤ largestFrom weights kinds maxWeight := by
  induction kinds generalizing maxWeight with
  | nil => exact BitVec.le_refl _
  | cons kind kinds ih =>
      rw [largestFrom, List.foldl_cons]
      split
      · rename_i hlt
        exact BitVec.le_trans (BitVec.le_of_lt hlt) (ih _)
      · exact ih _

/-- The largest weight is at least that of each kind in the list. -/
theorem weight_le_largestFrom {kind : ResourceKind} (hkind : kind ∈ kinds) (maxWeight : U64) :
    weights kind ≤ largestFrom weights kinds maxWeight := by
  induction hkind generalizing maxWeight with
  | head kinds =>
      have hstep : weights kind ≤ if maxWeight < weights kind then weights kind else maxWeight := by
        split
        · exact BitVec.le_refl _
        · rename_i hlt
          exact BitVec.not_lt.mp hlt
      exact BitVec.le_trans hstep (le_largestFrom weights kinds _)
  | tail first _ ih => exact ih _

/-- The largest weight is the start, or that of a kind in the list. -/
theorem largestFrom_eq_or_mem (kinds : List ResourceKind) (maxWeight : U64) :
    largestFrom weights kinds maxWeight = maxWeight
      ∨ ∃ kind ∈ kinds, weights kind = largestFrom weights kinds maxWeight := by
  induction kinds generalizing maxWeight with
  | nil => exact Or.inl rfl
  | cons kind kinds ih =>
      rw [largestFrom, List.foldl_cons]
      split
      · -- the weight of the first kind is the start of the rest
        rcases ih (weights kind) with hstart | ⟨k, hk, hmax⟩
        · exact Or.inr ⟨kind, List.mem_cons_self, hstart.symm⟩
        · exact Or.inr ⟨k, List.mem_cons_of_mem _ hk, hmax⟩
      · rcases ih maxWeight with hstart | ⟨k, hk, hmax⟩
        · exact Or.inl hstart
        · exact Or.inr ⟨k, List.mem_cons_of_mem _ hk, hmax⟩

end

/-- The largest of the weights. -/
def largestWeight (weights : ResourceKind → U64) : U64 := largestFrom weights ResourceKind.all 0

namespace MultiGasConstraintData

/-- A constraint with the largest of its weights. -/
def ofWeights (target : U64) (adjustmentWindow : U32) (backlog : U64)
    (weights : ResourceKind → U64) : MultiGasConstraintData where
  target := target
  adjustmentWindow := adjustmentWindow
  backlog := backlog
  weights := weights
  maxWeight := largestWeight weights
  le_maxWeight kind := weight_le_largestFrom weights kind.mem_all 0
  maxWeight_mem := by
    rcases largestFrom_eq_or_mem weights ResourceKind.all 0 with hzero | ⟨kind, -, h⟩
    -- all weights are zero
    · have hle := weight_le_largestFrom weights ResourceKind.unknown.mem_all 0
      rw [hzero] at hle
      exact ⟨.unknown, (BitVec.le_zero_iff.mp hle).trans hzero.symm⟩
    · exact ⟨kind, h⟩

/-- The weights of a migrated constraint. -/
def equalWeightOf : ResourceKind → U64
  | .unknown => 0
  | .computation => 1
  | .historyGrowth => 1
  | .storageAccess => 1
  | .storageGrowth => 1
  | .l1Calldata => 0
  | .l2Calldata => 1
  | .wasmComputation => 1

/-- The constraint that a gas constraint is migrated to. -/
def ofGas (c : GasConstraintData) : MultiGasConstraintData where
  target := c.target
  adjustmentWindow := BitVec.ofNat 32 (min c.adjustmentWindow.toNat (2 ^ 32 - 1))
  backlog := c.backlog
  weights := equalWeightOf
  maxWeight := 1
  le_maxWeight kind := by cases kind <;> decide
  maxWeight_mem := ⟨.computation, rfl⟩

end MultiGasConstraintData

/-! ### The record -/

/-- The scalars and the two lists of constraints. -/
structure L2Record where
  speedLimitPerSecond : U64
  perBlockGasLimit : U64
  baseFeeWei : U256
  minBaseFeeWei : U256
  gasBacklog : U64
  pricingInertia : U64
  backlogTolerance : U64
  perTxGasLimit : U64
  gasConstraints : List GasConstraintData
  multiGasConstraints : List MultiGasConstraintData

namespace L2Record

/-- The record with another list of gas constraints. -/
def withGas (R : L2Record) (l : List GasConstraintData) : L2Record := { R with gasConstraints := l }

/-- The record with another list of multi-gas constraints. -/
def withMultiGas (R : L2Record) (l : List MultiGasConstraintData) : L2Record :=
  { R with multiGasConstraints := l }

end L2Record

/-- The record of a store that was never written. -/
def L2Record.blank : L2Record where
  speedLimitPerSecond := 0
  perBlockGasLimit := 0
  baseFeeWei := 0
  minBaseFeeWei := 0
  gasBacklog := 0
  pricingInertia := 0
  backlogTolerance := 0
  perTxGasLimit := 0
  gasConstraints := []
  multiGasConstraints := []

/-- The record after the initialization. -/
def L2Record.initialized (R : L2Record) : L2Record :=
  { R with
      speedLimitPerSecond := initialSpeedLimitPerSecondV0
      perBlockGasLimit := initialPerBlockGasLimitV0
      baseFeeWei := U256.ofU64 initialBaseFeeWei
      gasBacklog := 0
      pricingInertia := initialPricingInertia
      backlogTolerance := initialBacklogTolerance
      minBaseFeeWei := U256.ofU64 initialMinimumBaseFeeWei }

/-- A setter of a scalar. -/
inductive L2ScalarOp where
  | setBaseFeeWei (val : U256)
  | setMinBaseFeeWei (val : U256)
  | setSpeedLimitPerSecond (limit : U64)
  | setMaxPerBlockGasLimit (limit : U64)
  | setMaxPerTxGasLimit (limit : U64)
  | setGasBacklog (backlog : U64)
  | setPricingInertia (val : U64)
  | setBacklogTolerance (val : U64)

namespace L2ScalarOp

/-- The setter of the source. -/
def program (self : L2PricingState) : L2ScalarOp → Exec DbError Unit
  | .setBaseFeeWei val => self.setBaseFeeWei val
  | .setMinBaseFeeWei val => self.setMinBaseFeeWei val
  | .setSpeedLimitPerSecond limit => self.setSpeedLimitPerSecond limit
  | .setMaxPerBlockGasLimit limit => self.setMaxPerBlockGasLimit limit
  | .setMaxPerTxGasLimit limit => self.setMaxPerTxGasLimit limit
  | .setGasBacklog backlog => self.setGasBacklog backlog
  | .setPricingInertia val => self.setPricingInertia val
  | .setBacklogTolerance val => self.setBacklogTolerance val

/-- The setter on the record. -/
def apply (R : L2Record) : L2ScalarOp → L2Record
  | .setBaseFeeWei val => { R with baseFeeWei := val }
  | .setMinBaseFeeWei val => { R with minBaseFeeWei := val }
  | .setSpeedLimitPerSecond limit => { R with speedLimitPerSecond := limit }
  | .setMaxPerBlockGasLimit limit => { R with perBlockGasLimit := limit }
  | .setMaxPerTxGasLimit limit => { R with perTxGasLimit := limit }
  | .setGasBacklog backlog => { R with gasBacklog := backlog }
  | .setPricingInertia val => { R with pricingInertia := val }
  | .setBacklogTolerance val => { R with backlogTolerance := val }

end L2ScalarOp

/-- A setter of a gas constraint. -/
inductive GasConstraintOp where
  | setTarget (val : U64)
  | setAdjustmentWindow (val : U64)
  | setBacklog (val : U64)

namespace GasConstraintOp

/-- The setter of the source. -/
def program (c : GasConstraint) : GasConstraintOp → Exec DbError Unit
  | .setTarget val => c.setTarget val
  | .setAdjustmentWindow val => c.setAdjustmentWindow val
  | .setBacklog val => c.setBacklog val

/-- The setter on the data of the constraint. -/
def apply : GasConstraintOp → GasConstraintData → GasConstraintData
  | .setTarget val, c => { c with target := val }
  | .setAdjustmentWindow val, c => { c with adjustmentWindow := val }
  | .setBacklog val, c => { c with backlog := val }

end GasConstraintOp

/-- A setter of a multi-gas constraint. -/
inductive MultiGasConstraintOp where
  | setTarget (val : U64)
  | setAdjustmentWindow (val : U32)
  | setBacklog (val : U64)
  | setResourceWeights (weights : WeightMap)

namespace MultiGasConstraintOp

/-- The setter of the source. -/
def program (c : MultiGasConstraint) : MultiGasConstraintOp → Exec DbError Unit
  | .setTarget val => c.setTarget val
  | .setAdjustmentWindow val => c.setAdjustmentWindow val
  | .setBacklog val => c.setBacklog val
  | .setResourceWeights weights => c.setResourceWeights weights

/-- The setter on the data of the constraint. New weights bring their own largest weight. -/
def apply : MultiGasConstraintOp → MultiGasConstraintData → MultiGasConstraintData
  | .setTarget val, c => { c with target := val }
  | .setAdjustmentWindow val, c => { c with adjustmentWindow := val }
  | .setBacklog val, c => { c with backlog := val }
  | .setResourceWeights weights, c =>
      .ofWeights c.target c.adjustmentWindow c.backlog (MultiGasConstraint.weightOf weights)

end MultiGasConstraintOp

/-- An operation on the L2 pricer. -/
inductive L2Op where
  | scalar (op : L2ScalarOp)
  | addGasConstraint (target adjustmentWindow backlog : U64)
  | clearGasConstraints
  | gasConstraint (i : U64) (op : GasConstraintOp)
  | addMultiGasConstraint (target : U64) (adjustmentWindow : U32) (backlog : U64)
      (weights : WeightMap)
  | clearMultiGasConstraints
  | multiGasConstraint (i : U64) (op : MultiGasConstraintOp)

namespace L2Op

/-- The program of the operation. -/
def program [Keccak] (self : L2PricingState) : L2Op → Exec DbError Unit
  | .scalar op => op.program self
  | .addGasConstraint target adjustmentWindow backlog =>
      self.addGasConstraint target adjustmentWindow backlog
  | .clearGasConstraints => self.clearGasConstraints
  | .gasConstraint i op => op.program (self.openGasConstraintAt i)
  | .addMultiGasConstraint target adjustmentWindow backlog weights =>
      self.addMultiGasConstraint target adjustmentWindow backlog weights
  | .clearMultiGasConstraints => self.clearMultiGasConstraints
  | .multiGasConstraint i op => op.program (self.openMultiGasConstraintAt i)

/-- The operation on a record. The length of a list is a word, and an addition beyond it
panics. -/
def apply : L2Op → L2Record → Outcome DbError Unit × L2Record
  | .scalar op, R => (.ok (), op.apply R)
  | .addGasConstraint target adjustmentWindow backlog, R =>
      if R.gasConstraints.length = 2 ^ 64 - 1 then (.panic "attempt to add with overflow", R)
      else (.ok (), R.withGas (R.gasConstraints ++ [⟨target, adjustmentWindow, backlog⟩]))
  | .clearGasConstraints, R => (.ok (), R.withGas [])
  | .gasConstraint i op, R => (.ok (), R.withGas (R.gasConstraints.modify i.toNat op.apply))
  | .addMultiGasConstraint target adjustmentWindow backlog weights, R =>
      if R.multiGasConstraints.length = 2 ^ 64 - 1 then (.panic "attempt to add with overflow", R)
      else
        (.ok (), R.withMultiGas (R.multiGasConstraints ++
          [.ofWeights target adjustmentWindow backlog (MultiGasConstraint.weightOf weights)]))
  | .clearMultiGasConstraints, R => (.ok (), R.withMultiGas [])
  | .multiGasConstraint i op, R =>
      (.ok (), R.withMultiGas (R.multiGasConstraints.modify i.toNat op.apply))

/-- The place of a constraint that is changed is below the length. -/
def InBounds (R : L2Record) : L2Op → Prop
  | .gasConstraint i _ => i.toNat < R.gasConstraints.length
  | .multiGasConstraint i _ => i.toNat < R.multiGasConstraints.length
  | _ => True

end L2Op

end ArbReth
