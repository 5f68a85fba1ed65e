import ArbReth.Storage.Storage

/-!
# `ArbReth.AddressSet`: a set of addresses

Slot 0 of the space holds the size. The members are in the slots from 1 on. The
sub-space `byAddress` maps each member to the slot that holds it, and any other
address to zero.

The loops over `1..=size` are `Prog.forRange`. The loop of `allMembers` is
`membersFrom`. It collects the members in a list: the allocation of the vector
in the source is not modelled.
-/

set_option autoImplicit false

namespace ArbReth

open ArbReth.Program

/-- `addr_to_key`. -/
def addrToKey (addr : Address) : StorageKey := addr.intoWord

/-- `addr_to_value`. -/
def addrToValue (addr : Address) : StorageValue := addrToKey addr

/-- `raw_to_addr`: the low 20 bytes of the word. -/
def rawToAddr (raw : StorageValue) : Address := Address.ofWord raw

/-- A set of addresses. -/
structure AddressSet where
  backingStorage : Storage
  sizeCell : StorageBackedUint64
  byAddress : Storage

namespace AddressSet
variable [Keccak]

/-- `AddressSet::new`. -/
def new (sto : Storage) : AddressSet where
  backingStorage := sto
  sizeCell := sto.openStorageBackedUint64 0
  byAddress := sto.openSubStorage [0]

/-- `AddressSet::initialize`: the size is zero. -/
def initializeSet (sto : Storage) : Exec DbError Unit :=
  sto.setUint64ByUint64 0 0

/-- The number of the members, from slot 0. -/
def size (self : AddressSet) : Exec DbError U64 := self.sizeCell.get

/-- An address is a member when its mapping is not zero. The read is not charged. -/
def isMember (self : AddressSet) (addr : Address) : Exec DbError Bool := do
  let value ← self.byAddress.getByKey (addrToKey addr)
  pure (value != 0)

/-- The first member of the list, or `none` when the set is empty. -/
def getAnyMember (self : AddressSet) : Exec DbError (Option Address) := do
  if (← self.sizeCell.get) = 0 then
    pure none
  else
    let raw ← self.backingStorage.readSlot 1
    if raw = 0 then pure none else pure (some (rawToAddr raw))

/-- Remove all members, from the list and from the mapping. -/
def clear (self : AddressSet) : Exec DbError Unit := do
  let sz ← self.sizeCell.get
  if sz = 0 then
    pure ()
  else
    Prog.forRange (fun i => do
      let contents ← self.backingStorage.readSlot (BitVec.ofNat 64 i)
      self.backingStorage.writeSlot (BitVec.ofNat 64 i) 0
      self.byAddress.clearByKey contents) 1 sz.toNat
    self.sizeCell.clear

/-- The loop of `allMembers`: the members in the `count` slots from `i + 1` on. -/
def membersFrom (self : AddressSet) : (i count : Nat) → Exec DbError (List Address)
  | _, 0 => pure []
  | i, count + 1 => do
      let raw ← self.backingStorage.readSlot (BitVec.ofNat 64 (i + 1))
      let members ← self.membersFrom (i + 1) count
      pure (rawToAddr raw :: members)

/-- The first members of the list, `max` at most. -/
def allMembers (self : AddressSet) (max : U64) : Exec DbError (List Address) := do
  let sz ← self.sizeCell.get
  self.membersFrom 0 (minWord sz max).toNat

/-- Clear the list and the size, and keep the mapping. -/
def clearList (self : AddressSet) : Exec DbError Unit := do
  let sz ← self.sizeCell.get
  if sz = 0 then
    pure ()
  else
    Prog.forRange (fun i => self.backingStorage.writeSlot (BitVec.ofNat 64 i) 0) 1 sz.toNat
    self.sizeCell.clear

/-- Add `addr`, if it is not a member yet. -/
def add (self : AddressSet) (addr : Address) : Exec DbError Unit := do
  if ← self.isMember addr then
    pure ()
  else
    let sz ← self.sizeCell.get
    let slot ← checkedAdd sz 1
    self.byAddress.setByKey (addrToKey addr) (U256.ofU64 slot)
    self.backingStorage.writeSlot slot (addrToValue addr)
    let _ ← self.sizeCell.increment
    pure ()

/-- Repair the mapping of `addr` when it does not point to the slot of `addr`. -/
def rectifyMapping (self : AddressSet) (addr : Address) : Exec DbError Unit := do
  if !(← self.isMember addr) then
    .panic "RectifyMapping: Address is not an owner"
  else
    let slot ← self.byAddress.getUint64ByKey (addrToKey addr)
    let atSlot ← self.backingStorage.readSlot slot
    let sz ← self.sizeCell.get
    if atSlot = addrToValue addr ∧ slot ≤ sz then
      .panic "RectifyMapping: Owner address is correctly mapped"
    else
      self.byAddress.clearByKey (addrToKey addr)
      self.add addr

/-- Remove `addr`, if it is a member: the last member of the list takes its slot.
The mapping of that member follows from version 11 on. -/
def remove (self : AddressSet) (addr : Address) (arbosVersion : U64) : Exec DbError Unit := do
  let slot ← self.byAddress.getUint64ByKey (addrToKey addr)
  if slot = 0 then
    pure ()
  else
    self.byAddress.clearByKey (addrToKey addr)
    let sz ← self.sizeCell.get
    if slot < sz then
      let atSize ← self.backingStorage.readSlot sz
      self.backingStorage.writeSlot slot atSize
      if 11 ≤ arbosVersion then
        self.byAddress.setByKey atSize (U256.ofU64 slot)
      else
        pure ()
    else
      pure ()
    self.backingStorage.writeSlot sz 0
    let _ ← self.sizeCell.decrement
    pure ()

end AddressSet

end ArbReth
