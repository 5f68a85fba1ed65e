import ArbReth.Proofs.L2Pricing.Represents
import ArbReth.Proofs.Storage.Footprint

/-!
# `ArbReth.Proofs.L2Pricing.Footprint`: the slots that the L2 pricer reaches

Every function of the L2 pricer reaches the slots of its layout only, whatever the context
answers, and no balance. Its errors are those of the database, and it ends with the first
one.

## Elements of unknown index

`push` and `pop` hand out the space of some element. Which one depends on the length that
the context answers, so a proof along the program does not know the index. It does not need
it: `push_returns` and `pop_returns` say that the space is that of *some* element, and every
element has its fields in the layout (`getGas_keepsTo`, `setGas_keepsTo` and
`setMultiGas_keepsTo` hold for each index).

## Loops

The number of rounds of a loop is an answer as well. Each round is shown to keep to the
slots on its own, and the rule for loops does the rest. The loops over the kinds of
resources have a fixed list, and go by induction on it.
-/

set_option autoImplicit false

namespace ArbReth

open ArbReth.Program

namespace L2Pricing
variable [Keccak]

/-- The slots of the pricer. -/
def footprint (sto : Storage) : Footprint := (layout sto).footprint False

section
variable (sto : Storage)

/-- Each slot of the layout belongs to the pricer. -/
theorem footprint_key (k : L2Key) : (footprint sto).slots sto.account ((layout sto).slot k) :=
  ⟨rfl, k, rfl⟩

/-- So does the slot of each single value, which is known by its offset. -/
theorem footprint_scalar (s : L2Scalar) :
    (footprint sto).slots sto.account (sto.mapAddress s.offset) := footprint_key sto (.scalar s)

end

/-! ### Vectors -/

section
variable {F : Footprint} {vector : SubStorageVector}

/-- A new element changes the length of the vector and nothing else. -/
theorem push_keepsTo
    (h : F.slots vector.lengthCell.slot.account vector.lengthCell.slot.slot) :
    KeepsTo F vector.push := by
  refine (StorageBackedUint64.get_keepsTo h).bind ?_
  intro length
  refine (KeepsTo.checkedAdd _ _).bind ?_
  intro next
  refine (StorageBackedUint64.set_keepsTo h _).bind ?_
  intro _
  exact .done _

/-- So does the removal of the last one. -/
theorem pop_keepsTo
    (h : F.slots vector.lengthCell.slot.account vector.lengthCell.slot.slot) :
    KeepsTo F vector.pop := by
  refine (StorageBackedUint64.get_keepsTo h).bind ?_
  intro length
  refine .ite (.panic _) ?_
  refine (StorageBackedUint64.set_keepsTo h _).bind ?_
  intro _
  exact .done _

/-- A new element has the space of its index. -/
theorem push_returns : vector.push.Returns fun space => ∃ i, space = vector.at_ i := by
  refine .bind fun length => .bind fun next => .bind fun _ => ?_
  exact ⟨length, rfl⟩

/-- So has the element that is removed. -/
theorem pop_returns : vector.pop.Returns fun space => ∃ i, space = vector.at_ i := by
  refine .bind fun length => .ite trivial (.bind fun _ => ?_)
  exact ⟨length - 1, rfl⟩

end

section
variable {sto : Storage}

/-! ### The accessors -/

/-- A number of the pricer is read from its own slot. -/
theorem getScalar_keepsTo (s : L2Scalar) :
    KeepsTo (footprint sto) (StorageBackedUint64.mk (sto.newSlot s.offset)).get :=
  StorageBackedUint64.get_keepsTo (footprint_scalar sto s)

/-- A base fee is read from its own slot, as a whole word. -/
theorem getWideScalar_keepsTo (s : L2Scalar) :
    KeepsTo (footprint sto) (StorageBackedBigUint.mk (sto.newSlot s.offset)).get :=
  StorageSlot.get_keepsTo (footprint_scalar sto s)

/-- A value of the pricer is written to its own slot. -/
theorem setScalar_keepsTo (s : L2Scalar) (v : StorageValue) :
    KeepsTo (footprint sto) ((sto.newSlot s.offset).set v) :=
  StorageSlot.set_keepsTo (footprint_scalar sto s) v

/-- A setter of a single value writes the slot of that value. -/
theorem scalarOp_keepsTo (op : L2ScalarOp) :
    KeepsTo (footprint sto) (op.program (openL2PricingState sto)) := by
  cases op with
  | setBaseFeeWei val => exact setScalar_keepsTo .baseFeeWei val
  | setMinBaseFeeWei val => exact setScalar_keepsTo .minBaseFeeWei val
  | setSpeedLimitPerSecond limit => exact setScalar_keepsTo .speedLimitPerSecond _
  | setMaxPerBlockGasLimit limit => exact setScalar_keepsTo .perBlockGasLimit _
  | setMaxPerTxGasLimit limit => exact setScalar_keepsTo .perTxGasLimit _
  | setGasBacklog backlog => exact setScalar_keepsTo .gasBacklog _
  | setPricingInertia val => exact setScalar_keepsTo .pricingInertia _
  | setBacklogTolerance val => exact setScalar_keepsTo .backlogTolerance _

/-- The length of the list of the gas constraints has a slot of its own. -/
theorem gasConstraintsLength_keepsTo :
    KeepsTo (footprint sto) (openL2PricingState sto).gasConstraintsLength :=
  StorageBackedUint64.get_keepsTo (footprint_key sto .gasLength)

/-- So has the length of the list of the multi-gas constraints. -/
theorem multiGasConstraintsLength_keepsTo :
    KeepsTo (footprint sto) (openL2PricingState sto).multiGasConstraintsLength :=
  StorageBackedUint64.get_keepsTo (footprint_key sto .multiGasLength)

/-! ### The gas constraints -/

/-- A field of a gas constraint is read from its own slot, for every index. -/
theorem getGas_keepsTo (i : U64) (f : GasField) :
    KeepsTo (footprint sto) (StorageBackedUint64.mk ((layout sto).slotAt (.gas i f))).get :=
  StorageBackedUint64.get_keepsTo (footprint_key sto (.gas i f))

/-- A field of a gas constraint is written to its own slot, for every index. -/
theorem setGas_keepsTo (i : U64) (f : GasField) (v : StorageValue) :
    KeepsTo (footprint sto) (((layout sto).slotAt (.gas i f)).set v) :=
  StorageSlot.set_keepsTo (footprint_key sto (.gas i f)) v

/-- A setter of a gas constraint writes the slot of its field. -/
theorem gasConstraintOp_keepsTo (i : U64) (op : GasConstraintOp) :
    KeepsTo (footprint sto) (op.program ((openL2PricingState sto).openGasConstraintAt i)) := by
  cases op with
  | setTarget val => exact setGas_keepsTo i .target _
  | setAdjustmentWindow val => exact setGas_keepsTo i .adjustmentWindow _
  | setBacklog val => exact setGas_keepsTo i .backlog _

/-- A gas constraint is appended, and its three fields are written. -/
theorem addGasConstraint_keepsTo (target adjustmentWindow backlog : U64) :
    KeepsTo (footprint sto)
      ((openL2PricingState sto).addGasConstraint target adjustmentWindow backlog) := by
  refine (push_keepsTo (footprint_key sto .gasLength)).bind_of_returns push_returns ?_
  rintro _ ⟨i, rfl⟩
  refine (setGas_keepsTo i .target _).bind ?_
  intro _
  refine (setGas_keepsTo i .adjustmentWindow _).bind ?_
  intro _
  exact setGas_keepsTo i .backlog _

/-- The three fields of a gas constraint are cleared. -/
theorem clearGas_keepsTo (i : U64) :
    KeepsTo (footprint sto) ((openL2PricingState sto).openGasConstraintAt i).clear := by
  refine (setGas_keepsTo i .target _).bind ?_
  intro _
  refine (setGas_keepsTo i .adjustmentWindow _).bind ?_
  intro _
  exact setGas_keepsTo i .backlog _

/-- The gas constraints are removed and cleared one after the other, from the last on. -/
theorem clearGasConstraints_keepsTo :
    KeepsTo (footprint sto) (openL2PricingState sto).clearGasConstraints := by
  refine gasConstraintsLength_keepsTo.bind ?_
  intro length
  refine .forRange (fun round => ?_) 0 length.toNat
  refine (pop_keepsTo (footprint_key sto .gasLength)).bind_of_returns pop_returns ?_
  rintro _ ⟨i, rfl⟩
  exact clearGas_keepsTo i

/-! ### The multi-gas constraints -/

/-- A field of a multi-gas constraint is written to its own slot, for every index. -/
theorem setMultiGas_keepsTo (i : U64) (f : MultiGasField) (v : StorageValue) :
    KeepsTo (footprint sto) (((layout sto).slotAt (.multiGas i f)).set v) :=
  StorageSlot.set_keepsTo (footprint_key sto (.multiGas i f)) v

/-- The weights of the kinds are written one after the other. Induction on the kinds that are
left, for any maximum so far. -/
theorem setWeights_keepsTo (i : U64) (weights : WeightMap) (kinds : List ResourceKind)
    (maxWeight : U64) :
    KeepsTo (footprint sto)
      (((openL2PricingState sto).openMultiGasConstraintAt i).setWeights weights kinds
        maxWeight) := by
  induction kinds generalizing maxWeight with
  | nil => exact .done _
  | cons kind kinds ih => exact (setMultiGas_keepsTo i (.weight kind) _).bind fun _ => ih _

/-- The weights of the kinds are cleared one after the other. Induction on the kinds. -/
theorem clearWeights_keepsTo (i : U64) (kinds : List ResourceKind) :
    KeepsTo (footprint sto)
      (((openL2PricingState sto).openMultiGasConstraintAt i).clearWeights kinds) := by
  induction kinds with
  | nil => exact .done _
  | cons kind kinds ih => exact (setMultiGas_keepsTo i (.weight kind) _).bind fun _ => ih

/-- The weights are written, and then their maximum. -/
theorem setResourceWeights_keepsTo (i : U64) (weights : WeightMap) :
    KeepsTo (footprint sto)
      (((openL2PricingState sto).openMultiGasConstraintAt i).setResourceWeights weights) := by
  refine (setWeights_keepsTo i weights _ 0).bind ?_
  intro maxWeight
  exact setMultiGas_keepsTo i .maxWeight _

/-- A setter of a multi-gas constraint writes the slots of its field. -/
theorem multiGasConstraintOp_keepsTo (i : U64) (op : MultiGasConstraintOp) :
    KeepsTo (footprint sto)
      (op.program ((openL2PricingState sto).openMultiGasConstraintAt i)) := by
  cases op with
  | setTarget val => exact setMultiGas_keepsTo i .target _
  | setAdjustmentWindow val => exact setMultiGas_keepsTo i .adjustmentWindow _
  | setBacklog val => exact setMultiGas_keepsTo i .backlog _
  | setResourceWeights weights => exact setResourceWeights_keepsTo i weights

/-- A multi-gas constraint is appended, and its fields are written. -/
theorem addMultiGasConstraint_keepsTo (target : U64) (adjustmentWindow : U32) (backlog : U64)
    (weights : WeightMap) :
    KeepsTo (footprint sto) ((openL2PricingState sto).addMultiGasConstraint target
      adjustmentWindow backlog weights) := by
  refine (push_keepsTo (footprint_key sto .multiGasLength)).bind_of_returns push_returns ?_
  rintro _ ⟨i, rfl⟩
  refine (setMultiGas_keepsTo i .target _).bind ?_
  intro _
  refine (setMultiGas_keepsTo i .adjustmentWindow _).bind ?_
  intro _
  refine (setMultiGas_keepsTo i .backlog _).bind ?_
  intro _
  exact setResourceWeights_keepsTo i weights

/-- The fields of a multi-gas constraint are cleared. -/
theorem clearMultiGas_keepsTo (i : U64) :
    KeepsTo (footprint sto) ((openL2PricingState sto).openMultiGasConstraintAt i).clear := by
  refine (setMultiGas_keepsTo i .target _).bind ?_
  intro _
  refine (setMultiGas_keepsTo i .adjustmentWindow _).bind ?_
  intro _
  refine (setMultiGas_keepsTo i .backlog _).bind ?_
  intro _
  refine (setMultiGas_keepsTo i .maxWeight _).bind ?_
  intro _
  exact clearWeights_keepsTo i _

/-- The multi-gas constraints are removed and cleared one after the other, from the last on. -/
theorem clearMultiGasConstraints_keepsTo :
    KeepsTo (footprint sto) (openL2PricingState sto).clearMultiGasConstraints := by
  refine multiGasConstraintsLength_keepsTo.bind ?_
  intro length
  refine .forRange (fun round => ?_) 0 length.toNat
  refine (pop_keepsTo (footprint_key sto .multiGasLength)).bind_of_returns pop_returns ?_
  rintro _ ⟨i, rfl⟩
  exact clearMultiGas_keepsTo i

/-! ### All operations -/

/-- Every operation on the record of the pricer. -/
theorem l2Op_keepsTo (op : L2Op) :
    KeepsTo (footprint sto) (op.program (openL2PricingState sto)) := by
  cases op with
  | scalar op => exact scalarOp_keepsTo op
  | addGasConstraint target window backlog => exact addGasConstraint_keepsTo target window backlog
  | clearGasConstraints => exact clearGasConstraints_keepsTo
  | gasConstraint i op => exact gasConstraintOp_keepsTo i op
  | addMultiGasConstraint target window backlog weights =>
      exact addMultiGasConstraint_keepsTo target window backlog weights
  | clearMultiGasConstraints => exact clearMultiGasConstraints_keepsTo
  | multiGasConstraint i op => exact multiGasConstraintOp_keepsTo i op

/-- The migration of the legacy values reads four of them and builds one constraint. -/
theorem setGasConstraintsFromLegacy_keepsTo :
    KeepsTo (footprint sto) (openL2PricingState sto).setGasConstraintsFromLegacy := by
  refine clearGasConstraints_keepsTo.bind ?_
  intro _
  refine (getScalar_keepsTo .speedLimitPerSecond).bind ?_
  intro target
  refine (getScalar_keepsTo .pricingInertia).bind ?_
  intro adjustmentWindow
  refine (getScalar_keepsTo .gasBacklog).bind ?_
  intro oldBacklog
  refine (getScalar_keepsTo .backlogTolerance).bind ?_
  intro backlogTolerance
  exact addGasConstraint_keepsTo _ _ _

/-- The migration of the gas constraints reads each of them and appends a multi-gas one. -/
theorem setMultiGasConstraintsFromSingleGasConstraints_keepsTo :
    KeepsTo (footprint sto)
      (openL2PricingState sto).setMultiGasConstraintsFromSingleGasConstraints := by
  refine clearMultiGasConstraints_keepsTo.bind ?_
  intro _
  refine gasConstraintsLength_keepsTo.bind ?_
  intro length
  refine .forRange (fun i => ?_) 0 length.toNat
  refine (getGas_keepsTo _ .target).bind ?_
  intro target
  refine (getGas_keepsTo _ .adjustmentWindow).bind ?_
  intro window
  refine (getGas_keepsTo _ .backlog).bind ?_
  intro backlog
  exact addMultiGasConstraint_keepsTo _ _ _ _

/-- The initial state is written to the slots of the single values. -/
theorem initialize_keepsTo : KeepsTo (footprint sto) (initializeL2PricingState sto) := by
  have hset (s : L2Scalar) (v : StorageValue) :
      KeepsTo (footprint sto) (sto.set (U256.ofU64 s.offset) v) :=
    Storage.set_keepsTo (footprint_scalar sto s) v
  refine (hset .speedLimitPerSecond _).bind ?_
  intro _
  refine (hset .perBlockGasLimit _).bind ?_
  intro _
  refine (hset .baseFeeWei _).bind ?_
  intro _
  refine (hset .gasBacklog _).bind ?_
  intro _
  refine (hset .pricingInertia _).bind ?_
  intro _
  refine (hset .backlogTolerance _).bind ?_
  intro _
  exact hset .minBaseFeeWei _

end

end L2Pricing

end ArbReth
