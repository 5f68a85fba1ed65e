import ArbReth.L2Pricing.State
import ArbReth.Reply

/-!
# `ArbReth.L2Pricing.MultiGasFees`: the base fees of the kinds of gas

`MultiGasFees` has two base fees for each kind of resource: the one of the current block
and the one for the next. They are the sixteen signed cells of a sub-space of the L2 pricer.
An array of cells is a function of the kind, and the loop over the indices goes through
`ResourceKind.all`.

`BlockFees` are the fees without storage, and `FeeCall` is a call on them.
-/

set_option autoImplicit false

namespace ArbReth

open ArbReth.Program

/-- `MULTI_GAS_BASE_FEES_KEY`. -/
def multiGasBaseFeesKey : Bytes := [2]

/-- `NEXT_BLOCK_FEES_OFFSET`. -/
def nextBlockFeesOffset : U64 := 0

/-- `CURRENT_BLOCK_FEES_OFFSET`: the number of the kinds. -/
def currentBlockFeesOffset : U64 := 8

/-- The base fees of the kinds of gas. -/
structure MultiGasFees where
  next : ResourceKind → StorageBackedBigInt
  current : ResourceKind → StorageBackedBigInt

namespace MultiGasFees

/-- `MultiGasFees::open`. -/
def «open» [Keccak] (sto : Storage) : MultiGasFees where
  next := fun kind => sto.openStorageBackedBigInt (nextBlockFeesOffset + kind.asU8.setWidth 64)
  current := fun kind =>
    sto.openStorageBackedBigInt (currentBlockFeesOffset + kind.asU8.setWidth 64)

variable (self : MultiGasFees)

/-- The fee of a kind in the current block. -/
def getCurrentBlockFee (kind : ResourceKind) : Exec DbError I256 := (self.current kind).get

/-- The fee of a kind in the next block. -/
def getNextBlockFee (kind : ResourceKind) : Exec DbError I256 := (self.next kind).get

/-- Write the fee of a kind for the next block. The current one is set by a commit only. -/
def setNextBlockFee (kind : ResourceKind) (v : I256) : Exec DbError Unit :=
  (self.next kind).setChecked v

/-- The loop of `commitNextToCurrent`. -/
def commitKinds : List ResourceKind → Exec DbError Unit
  | [] => pure ()
  | kind :: kinds => do
      let val ← (self.next kind).get
      (self.current kind).setChecked val
      commitKinds kinds

/-- The fees for the next block become those of the current one. -/
def commitNextToCurrent : Exec DbError Unit := self.commitKinds ResourceKind.all

end MultiGasFees

/-- The field `multi_gas_fees` of the L2 pricer in the space `sto`. -/
def openMultiGasFees [Keccak] (sto : Storage) : MultiGasFees :=
  MultiGasFees.open (sto.openSubStorage multiGasBaseFeesKey)

/-! ### The fees without storage -/

/-- The base fees of the next and of the current block. -/
structure BlockFees where
  next : ResourceKind → I256
  current : ResourceKind → I256

/-- The fees of a store that was never written. -/
def BlockFees.blank : BlockFees where
  next := fun _ => I256.zero
  current := fun _ => I256.zero

/-- A call on the fees. -/
inductive FeeCall where
  | getCurrentBlockFee (kind : ResourceKind)
  | getNextBlockFee (kind : ResourceKind)
  | setNextBlockFee (kind : ResourceKind) (v : I256)
  | commitNextToCurrent

namespace FeeCall

/-- The program of the call. -/
def program (self : MultiGasFees) : FeeCall → Exec CallError Reply
  | .getCurrentBlockFee kind => (self.getCurrentBlockFee kind).reply .db .bigInt
  | .getNextBlockFee kind => (self.getNextBlockFee kind).reply .db .bigInt
  | .setNextBlockFee kind v => (self.setNextBlockFee kind v).reply .db fun _ => .done
  | .commitNextToCurrent => self.commitNextToCurrent.reply .db fun _ => .done

/-- The call on the fees without storage. -/
def apply : FeeCall → BlockFees → Outcome CallError Reply × BlockFees
  | .getCurrentBlockFee kind, fees => (.ok (.bigInt (fees.current kind)), fees)
  | .getNextBlockFee kind, fees => (.ok (.bigInt (fees.next kind)), fees)
  | .setNextBlockFee kind v, fees =>
      (.ok .done, { fees with next := Function.update fees.next kind v })
  | .commitNextToCurrent, fees => (.ok .done, { fees with current := fees.next })

end FeeCall

end ArbReth
