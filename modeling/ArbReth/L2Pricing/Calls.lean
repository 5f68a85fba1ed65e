import ArbReth.L2Pricing.Record
import ArbReth.Reply

/-!
# `ArbReth.L2Pricing.Calls`: the public interface of the L2 pricer

An `L2Query` reads a scalar, a length or a field of a constraint. An `L2Call` is a query, a
change of the record (`L2Op`), the `clear` of one constraint in its place, or a migration.
`program` is the program of the call on a handle, and `apply` its meaning on a record.

A constraint is named by its place. A place past the end of its list can be read and
cleared as well: it reads as a constraint of zeros.
-/

set_option autoImplicit false

namespace ArbReth

open ArbReth.Program

/-! ### Queries -/

/-- A call that reads. -/
inductive L2Query where
  | baseFeeWei
  | minBaseFeeWei
  | speedLimitPerSecond
  | perBlockGasLimit
  | perTxGasLimit
  | gasBacklog
  | pricingInertia
  | backlogTolerance
  | gasConstraintsLength
  | multiGasConstraintsLength
  | gasConstraintTarget (i : U64)
  | gasConstraintAdjustmentWindow (i : U64)
  | gasConstraintBacklog (i : U64)
  | multiGasConstraintTarget (i : U64)
  | multiGasConstraintAdjustmentWindow (i : U64)
  | multiGasConstraintBacklog (i : U64)

/-- A gas constraint of zeros. -/
def GasConstraintData.zero : GasConstraintData := ⟨0, 0, 0⟩

/-- A multi-gas constraint of zeros. -/
def MultiGasConstraintData.zero : MultiGasConstraintData where
  target := 0
  adjustmentWindow := 0
  backlog := 0
  weights := fun _ => 0
  maxWeight := 0
  le_maxWeight _ := BitVec.le_refl _
  maxWeight_mem := ⟨.unknown, rfl⟩

namespace L2Record

/-- The gas constraint in the place `i`. -/
def gasAt (R : L2Record) (i : U64) : GasConstraintData :=
  R.gasConstraints[i.toNat]?.getD .zero

/-- The multi-gas constraint in the place `i`. -/
def multiGasAt (R : L2Record) (i : U64) : MultiGasConstraintData :=
  R.multiGasConstraints[i.toNat]?.getD .zero

/-- The gas constraint that the legacy parameters are migrated to. The tolerated backlog is
taken off, with saturation. -/
def migratedConstraint (R : L2Record) : GasConstraintData where
  target := R.speedLimitPerSecond
  adjustmentWindow := R.pricingInertia
  backlog :=
    saturatingSub R.gasBacklog (saturatingMul R.backlogTolerance R.speedLimitPerSecond)

end L2Record

namespace L2Query

/-- The program of the query. -/
def program [Keccak] (self : L2PricingState) : L2Query → Exec CallError Reply
  | .baseFeeWei => self.baseFeeWei.reply .db .bigUint
  | .minBaseFeeWei => self.minBaseFeeWei.reply .db .bigUint
  | .speedLimitPerSecond => self.speedLimitPerSecond.reply .db .uint64
  | .perBlockGasLimit => self.perBlockGasLimit.reply .db .uint64
  | .perTxGasLimit => self.perTxGasLimit.reply .db .uint64
  | .gasBacklog => self.gasBacklog.reply .db .uint64
  | .pricingInertia => self.pricingInertia.reply .db .uint64
  | .backlogTolerance => self.backlogTolerance.reply .db .uint64
  | .gasConstraintsLength => self.gasConstraintsLength.reply .db .uint64
  | .multiGasConstraintsLength => self.multiGasConstraintsLength.reply .db .uint64
  | .gasConstraintTarget i => (self.openGasConstraintAt i).target.reply .db .uint64
  | .gasConstraintAdjustmentWindow i =>
      (self.openGasConstraintAt i).adjustmentWindow.reply .db .uint64
  | .gasConstraintBacklog i => (self.openGasConstraintAt i).backlog.reply .db .uint64
  | .multiGasConstraintTarget i => (self.openMultiGasConstraintAt i).target.reply .db .uint64
  | .multiGasConstraintAdjustmentWindow i =>
      (self.openMultiGasConstraintAt i).adjustmentWindow.reply .db .uint32
  | .multiGasConstraintBacklog i => (self.openMultiGasConstraintAt i).backlog.reply .db .uint64

/-- The answer of a record. -/
def answer (R : L2Record) : L2Query → Reply
  | .baseFeeWei => .bigUint R.baseFeeWei
  | .minBaseFeeWei => .bigUint R.minBaseFeeWei
  | .speedLimitPerSecond => .uint64 R.speedLimitPerSecond
  | .perBlockGasLimit => .uint64 R.perBlockGasLimit
  | .perTxGasLimit => .uint64 R.perTxGasLimit
  | .gasBacklog => .uint64 R.gasBacklog
  | .pricingInertia => .uint64 R.pricingInertia
  | .backlogTolerance => .uint64 R.backlogTolerance
  | .gasConstraintsLength => .uint64 (BitVec.ofNat 64 R.gasConstraints.length)
  | .multiGasConstraintsLength => .uint64 (BitVec.ofNat 64 R.multiGasConstraints.length)
  | .gasConstraintTarget i => .uint64 (R.gasAt i).target
  | .gasConstraintAdjustmentWindow i => .uint64 (R.gasAt i).adjustmentWindow
  | .gasConstraintBacklog i => .uint64 (R.gasAt i).backlog
  | .multiGasConstraintTarget i => .uint64 (R.multiGasAt i).target
  | .multiGasConstraintAdjustmentWindow i => .uint32 (R.multiGasAt i).adjustmentWindow
  | .multiGasConstraintBacklog i => .uint64 (R.multiGasAt i).backlog

end L2Query

/-! ### All calls -/

/-- A call of the L2 pricer. -/
inductive L2Call where
  | query (q : L2Query)
  | change (op : L2Op)
  | clearGasConstraintAt (i : U64)
  | clearMultiGasConstraintAt (i : U64)
  | setGasConstraintsFromLegacy
  | setMultiGasConstraintsFromSingleGasConstraints

namespace L2Call

/-- The program of the call. -/
def program [Keccak] (self : L2PricingState) : L2Call → Exec CallError Reply
  | .query q => q.program self
  | .change op => (op.program self).reply .db fun _ => .done
  | .clearGasConstraintAt i => (self.openGasConstraintAt i).clear.reply .db fun _ => .done
  | .clearMultiGasConstraintAt i =>
      (self.openMultiGasConstraintAt i).clear.reply .db fun _ => .done
  | .setGasConstraintsFromLegacy => self.setGasConstraintsFromLegacy.reply .db fun _ => .done
  | .setMultiGasConstraintsFromSingleGasConstraints =>
      self.setMultiGasConstraintsFromSingleGasConstraints.reply .db fun _ => .done

/-- The call on a record. -/
def apply : L2Call → L2Record → Outcome CallError Reply × L2Record
  | .query q, R => (.ok (q.answer R), R)
  | .change op, R =>
      let r := op.apply R
      ((r.1.mapErr .db).map fun _ => .done, r.2)
  | .clearGasConstraintAt i, R =>
      (.ok .done, R.withGas (R.gasConstraints.modify i.toNat fun _ => .zero))
  | .clearMultiGasConstraintAt i, R =>
      (.ok .done, R.withMultiGas (R.multiGasConstraints.modify i.toNat fun _ => .zero))
  | .setGasConstraintsFromLegacy, R => (.ok .done, R.withGas [R.migratedConstraint])
  | .setMultiGasConstraintsFromSingleGasConstraints, R =>
      (.ok .done, R.withMultiGas (R.gasConstraints.map .ofGas))

/-- The place of a constraint that a setter changes is below the length. -/
def InBounds (R : L2Record) : L2Call → Prop
  | .change op => op.InBounds R
  | _ => True

end L2Call

end ArbReth
