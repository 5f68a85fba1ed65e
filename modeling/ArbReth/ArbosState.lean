import ArbReth.L1Pricing.Calls
import ArbReth.L2Pricing.Calls
import ArbReth.L2Pricing.MultiGasFees

/-!
# `ArbReth.ArbosState`: the state of ArbOS

`ArbosState` is the handle of all components: three cells in the root space, the L1 pricer
and the L2 pricer. The port does not open it yet. The reference that the source quotes
does, and `ArbosState.open` places the components as the reference places them, each
pricer in its own cached sub-space of the root.

The fees of the kinds of gas are a field of the L2 pricer in the source. Their calls are a
component of their own here, since they have slots of their own.

`Component.program` is the program of a call of a component, and `Component.apply` its
meaning on the abstract state of that component alone.
-/

set_option autoImplicit false

namespace ArbReth

open ArbReth.Program

/-! ### Offsets and sub-spaces -/

def upgradeVersionOffset : U64 := 1
def upgradeTimestampOffset : U64 := 2
def networkFeeAccountOffset : U64 := 3

def l1PricingSubspace : Bytes := [0]
def l2PricingSubspace : Bytes := [1]

/-- The handle of the L2 pricer with the fees, as the source has it. -/
structure L2PricingStateWithFees extends L2PricingState where
  multiGasFees : MultiGasFees

/-- The handle of the state of ArbOS. -/
structure ArbosState where
  arbosVersion : U64
  upgradeVersion : StorageBackedUint64
  upgradeTimestamp : StorageBackedUint64
  networkFeeAccount : StorageBackedAddress
  l1PricingState : L1PricingState
  l2PricingState : L2PricingStateWithFees

section
variable [Keccak]

/-- The space of the L1 pricer. -/
def l1PricingSpace (backingStorage : Storage) : Storage :=
  backingStorage.openCachedSubStorage l1PricingSubspace

/-- The space of the L2 pricer. -/
def l2PricingSpace (backingStorage : Storage) : Storage :=
  backingStorage.openCachedSubStorage l2PricingSubspace

/-- `OpenArbosState` of the reference, for a stored version that is not 0. -/
def ArbosState.open (backingStorage : Storage) (arbosVersion : U64) : ArbosState where
  arbosVersion := arbosVersion
  upgradeVersion := backingStorage.openStorageBackedUint64 upgradeVersionOffset
  upgradeTimestamp := backingStorage.openStorageBackedUint64 upgradeTimestampOffset
  networkFeeAccount := backingStorage.openStorageBackedAddress networkFeeAccountOffset
  l1PricingState := openL1PricingState (l1PricingSpace backingStorage) arbosVersion
  l2PricingState :=
    { openL2PricingState (l2PricingSpace backingStorage) with
      multiGasFees := openMultiGasFees (l2PricingSpace backingStorage) }

/-- The initialization of the two pricers, in the order of the reference. -/
def initializePricing (sto : Storage) (initialRewardsRecipient : Address)
    (initialL1BaseFee : U256) : Exec DbError Unit := do
  initializeL1PricingState (l1PricingSpace sto) initialRewardsRecipient initialL1BaseFee
  initializeL2PricingState (l2PricingSpace sto)

end

/-! ### Calls on cells -/

/-- A call on a cell of 64 bits. -/
inductive Uint64Call where
  | get
  | set (value : U64)
  | clear
  | increment
  | decrement

namespace Uint64Call

/-- The program of the call. -/
def program (self : StorageBackedUint64) : Uint64Call → Exec CallError Reply
  | .get => self.get.reply .db .uint64
  | .set value => (self.set value).reply .db fun _ => .done
  | .clear => self.clear.reply .db fun _ => .done
  | .increment => self.increment.reply .db .uint64
  | .decrement => self.decrement.reply .db .uint64

/-- The call on the number of the cell. -/
def apply : Uint64Call → U64 → Outcome CallError Reply × U64
  | .get, v => (.ok (.uint64 v), v)
  | .set value, _ => (.ok .done, value)
  | .clear, _ => (.ok .done, 0)
  | .increment, v =>
      if v = BitVec.allOnes 64 then (.panic "Overflow in StorageBackedUint64::Increment", v)
      else (.ok (.uint64 (v + 1)), v + 1)
  | .decrement, v =>
      if v = 0 then (.panic "Underflow in StorageBackedUint64::Decrement", v)
      else (.ok (.uint64 (v - 1)), v - 1)

end Uint64Call

/-- A call on a cell of an address. -/
inductive AddressCall where
  | get
  | set (val : Address)

namespace AddressCall

/-- The program of the call. -/
def program (self : StorageBackedAddress) : AddressCall → Exec CallError Reply
  | .get => self.get.reply .db .address
  | .set val => (self.set val).reply .db fun _ => .done

/-- The call on the address of the cell. -/
def apply : AddressCall → Address → Outcome CallError Reply × Address
  | .get, a => (.ok (.address a), a)
  | .set val, _ => (.ok .done, val)

end AddressCall

/-! ### Components -/

/-- The components of the state. -/
inductive Component where
  | upgradeVersion
  | upgradeTimestamp
  | networkFeeAccount
  | l1Pricing
  | l2Pricing
  | multiGasFees
deriving DecidableEq

namespace Component

/-- The abstract state of a component. -/
def State : Component → Type
  | .upgradeVersion => U64
  | .upgradeTimestamp => U64
  | .networkFeeAccount => Address
  | .l1Pricing => L1Ledger
  | .l2Pricing => L2Record
  | .multiGasFees => BlockFees

/-- The calls of a component. -/
def Call : Component → Type
  | .upgradeVersion => Uint64Call
  | .upgradeTimestamp => Uint64Call
  | .networkFeeAccount => AddressCall
  | .l1Pricing => L1Call
  | .l2Pricing => L2Call
  | .multiGasFees => FeeCall

/-- The program of a call. -/
def program [Keccak] (self : ArbosState) : (c : Component) → c.Call → Exec CallError Reply
  | .upgradeVersion, call => Uint64Call.program self.upgradeVersion call
  | .upgradeTimestamp, call => Uint64Call.program self.upgradeTimestamp call
  | .networkFeeAccount, call => AddressCall.program self.networkFeeAccount call
  | .l1Pricing, call => L1Call.program self.l1PricingState call
  | .l2Pricing, call => L2Call.program self.l2PricingState.toL2PricingState call
  | .multiGasFees, call => FeeCall.program self.l2PricingState.multiGasFees call

/-- The call on the abstract state of the component. -/
def apply [Keccak] (version : U64) :
    (c : Component) → c.Call → c.State → Outcome CallError Reply × c.State
  | .upgradeVersion, call, v => Uint64Call.apply call v
  | .upgradeTimestamp, call, v => Uint64Call.apply call v
  | .networkFeeAccount, call, a => AddressCall.apply call a
  | .l1Pricing, call, L => L1Call.apply version call L
  | .l2Pricing, call, R => L2Call.apply call R
  | .multiGasFees, call, fees => FeeCall.apply call fees

/-- A setter of a constraint of the L2 pricer names a place below the length. -/
def InBounds : (c : Component) → c.State → c.Call → Prop
  | .l2Pricing, R, call => L2Call.InBounds R call
  | _, _, _ => True

end Component

end ArbReth
