import ArbReth.Context

/-!
# `ArbReth.Storage.Slot`: a storage slot and the typed cells over it

A `StorageSlot` is one slot of the account storage. `get` charges the read cost
and reads the database. `set` refuses under a read-only burner, charges the write
cost and writes through the journal. The `StorageBacked*` cells encode a value of
one type in the slot. A cell of an unsigned type panics on a stored word that its
type cannot hold.

`getWord` is the shared body of the `get` of the unsigned cells. Each cell passes
its own bound and panic message.
-/

set_option autoImplicit false

namespace ArbReth

open ArbReth.Program

/-- `STORAGE_READ_COST`. -/
def storageReadCost : U64 := 800

/-- `STORAGE_WRITE_COST`. -/
def storageWriteCost : U64 := 20000

/-- `STORAGE_WRITE_ZERO_COST`. -/
def storageWriteZeroCost : U64 := 2900

/-- The write cost for a storage slot: writing zero is cheaper. -/
def writeCost (value : StorageValue) : U64 :=
  if value = 0 then storageWriteZeroCost else storageWriteCost

/-- A single storage slot of `account` at the mapped key `slot`. -/
structure StorageSlot where
  account : Address
  slot : StorageKey
deriving DecidableEq

namespace StorageSlot

/-- Charge the read cost and read the slot from the database. -/
def get (self : StorageSlot) : Exec DbError StorageValue := do
  Exec.burn .storageAccess storageReadCost
  Exec.captureStorageGet self.slot
  Exec.storage self.account self.slot

/-- Check the burner, charge the write cost and write through the journal. -/
def set (self : StorageSlot) (value : StorageValue) : Exec DbError Unit := do
  if ← Exec.readOnly then
    .panic "read-only burner attempted to mutate state"
  else
    Exec.burn .storageAccess (writeCost value)
    Exec.captureStorageSet self.slot value
    Exec.sstore self.account self.slot value

/-- Read the slot as an unsigned number of at most `bound`, and panic with `msg` on
any other word. -/
def getWord (self : StorageSlot) (bound : Nat) (msg : String) : Exec DbError U64 := do
  let raw ← self.get
  match U64.tryFrom raw with
  | none => .panic msg
  | some asU64 => if bound < asU64.toNat then .panic msg else pure asU64

end StorageSlot

/-- A signed 64-bit integer, as its two's-complement bits. -/
abbrev I64 : Type := BitVec 64

/-- Signed basis points. -/
abbrev Bips : Type := I64

/-- Unsigned basis points. -/
abbrev UBips : Type := U64

/-- A signed 64-bit cell. The stored word is the `u64` with the same bits. -/
structure StorageBackedInt64 where
  slot : StorageSlot

namespace StorageBackedInt64

/-- Read the cell. Every `u64` is the bits of one signed number, so only a larger word panics. -/
def get (self : StorageBackedInt64) : Exec DbError I64 :=
  self.slot.getWord (2 ^ 64 - 1) "invalid value found in StorageBackedInt64 storage"

/-- Write the bits of the number as a `u64`. The upper 192 bits of the word are zero, also for a
negative number. -/
def set (self : StorageBackedInt64) (value : I64) : Exec DbError Unit :=
  self.slot.set (U256.ofU64 value)

end StorageBackedInt64

/-- A cell of signed basis points. -/
structure StorageBackedBips where
  cell : StorageBackedInt64

namespace StorageBackedBips

/-- Read the basis points from the signed cell. -/
def get (self : StorageBackedBips) : Exec DbError Bips := self.cell.get

/-- Write the basis points to the signed cell. -/
def set (self : StorageBackedBips) (value : Bips) : Exec DbError Unit := self.cell.set value

end StorageBackedBips

/-- A 16-bit unsigned cell. -/
structure StorageBackedUint16 where
  slot : StorageSlot

namespace StorageBackedUint16

/-- Read the cell. A word above `u16::MAX` panics, whether or not it fits in a `u64`. -/
def get (self : StorageBackedUint16) : Exec DbError U16 := do
  let asU64 ← self.slot.getWord (2 ^ 16 - 1) "expected uint16 compatible value in storage"
  pure (asU64.setWidth 16)

/-- Write the number as a word. -/
def set (self : StorageBackedUint16) (value : U16) : Exec DbError Unit :=
  self.slot.set (U256.ofU64 (value.setWidth 64))

end StorageBackedUint16

/-- A 24-bit unsigned cell. -/
structure StorageBackedUint24 where
  slot : StorageSlot

namespace StorageBackedUint24

/-- Read the cell. A word above `Uint24::MAX` panics, whether or not it fits in a `u64`. -/
def get (self : StorageBackedUint24) : Exec DbError U24 := do
  let asU64 ← self.slot.getWord 0x00FFFFFF "expected uint24 compatible value in storage"
  pure (asU64.setWidth 24)

/-- Write the number as a word. -/
def set (self : StorageBackedUint24) (value : U24) : Exec DbError Unit :=
  self.slot.set (U256.ofU64 (value.setWidth 64))

end StorageBackedUint24

/-- A 32-bit unsigned cell. -/
structure StorageBackedUint32 where
  slot : StorageSlot

namespace StorageBackedUint32

/-- Read the cell. A word above `u32::MAX` panics, whether or not it fits in a `u64`. -/
def get (self : StorageBackedUint32) : Exec DbError U32 := do
  let asU64 ← self.slot.getWord (2 ^ 32 - 1) "expected uint32 compatible value in storage"
  pure (asU64.setWidth 32)

/-- Write the number as a word. -/
def set (self : StorageBackedUint32) (value : U32) : Exec DbError Unit :=
  self.slot.set (U256.ofU64 (value.setWidth 64))

/-- Write zero, at the cost of a write of zero. -/
def clear (self : StorageBackedUint32) : Exec DbError Unit := self.set 0

end StorageBackedUint32

/-- A 64-bit unsigned cell. -/
structure StorageBackedUint64 where
  slot : StorageSlot

namespace StorageBackedUint64

/-- Read the cell. A word above `u64::MAX` panics. -/
def get (self : StorageBackedUint64) : Exec DbError U64 :=
  self.slot.getWord (2 ^ 64 - 1) "expected uint64 compatible value in storage"

/-- Write the number as a word. -/
def set (self : StorageBackedUint64) (value : U64) : Exec DbError Unit :=
  self.slot.set (U256.ofU64 value)

/-- Write zero, at the cost of a write of zero. -/
def clear (self : StorageBackedUint64) : Exec DbError Unit := self.set 0

/-- Read the cell and write the successor, which is the result. The largest `u64` panics before
the write. -/
def increment (self : StorageBackedUint64) : Exec DbError U64 := do
  let old ← self.get
  if old = BitVec.allOnes 64 then
    .panic "Overflow in StorageBackedUint64::Increment"
  else
    self.set (old + 1)
    pure (old + 1)

/-- Read the cell and write the predecessor, which is the result. Zero panics before the write. -/
def decrement (self : StorageBackedUint64) : Exec DbError U64 := do
  let old ← self.get
  if old = 0 then
    .panic "Underflow in StorageBackedUint64::Decrement"
  else
    self.set (old - 1)
    pure (old - 1)

end StorageBackedUint64

/-- A cell of unsigned basis points. -/
structure StorageBackedUBips where
  cell : StorageBackedUint64

namespace StorageBackedUBips

/-- Read the basis points from the unsigned cell. -/
def get (self : StorageBackedUBips) : Exec DbError UBips := self.cell.get

/-- Write the basis points to the unsigned cell. -/
def set (self : StorageBackedUBips) (value : UBips) : Exec DbError Unit := self.cell.set value

end StorageBackedUBips

/-- An unsigned 256-bit cell. -/
structure StorageBackedBigUint where
  slot : StorageSlot

namespace StorageBackedBigUint

/-- Read the cell. Every word is a `U256`. -/
def get (self : StorageBackedBigUint) : Exec DbError U256 := self.slot.get

/-- Write the number. A `U256` is always in range, so the check of the name never fails. -/
def setChecked (self : StorageBackedBigUint) (val : U256) : Exec DbError Unit :=
  self.slot.set val

/-- A `U256` is always in range, so nothing saturates and `name` is not used. -/
def setSaturatingWithWarning (self : StorageBackedBigUint) (val : U256) (_name : String) :
    Exec DbError Unit :=
  self.slot.set val

end StorageBackedBigUint

/-- A signed 256-bit cell, stored as its two's-complement bits. -/
structure StorageBackedBigInt where
  slot : StorageSlot
deriving DecidableEq

namespace StorageBackedBigInt

/-- Read the cell as a two's-complement number. Every word is one. -/
def get (self : StorageBackedBigInt) : Exec DbError I256 := do
  let raw ← self.slot.get
  pure (I256.fromRaw raw)

/-- Write the two's-complement bits. An `I256` is always in range. -/
def setChecked (self : StorageBackedBigInt) (val : I256) : Exec DbError Unit :=
  self.slot.set val.intoRaw

/-- An `I256` is always in range, so nothing saturates and `name` is not used. -/
def setSaturatingWithWarning (self : StorageBackedBigInt) (val : I256) (_name : String) :
    Exec DbError Unit :=
  self.slot.set val.intoRaw

/-- The storage format before version 7: the unsigned magnitude of `val`. -/
def setPreVersion7 (self : StorageBackedBigInt) (val : I256) : Exec DbError Unit :=
  self.slot.set val.unsignedAbs

/-- Write a `u64`, which is its own two's complement. -/
def setByUint (self : StorageBackedBigInt) (val : U64) : Exec DbError Unit :=
  self.slot.set (U256.ofU64 val)

end StorageBackedBigInt

/-- The low 20 bytes of a word: `Address::from_slice(&raw.to_be_bytes::<32>()[12..])`. -/
def Address.ofWord (raw : StorageValue) : Address := raw.setWidth 160

/-- The word whose low 20 bytes are the address: `addr.into_word()`. -/
def Address.intoWord (addr : Address) : StorageValue := addr.setWidth 256

/-- The word of an address is its number. -/
@[simp] theorem Address.toNat_intoWord (a : Address) : a.intoWord.toNat = a.toNat := by
  have ha := a.isLt
  rw [Address.intoWord, BitVec.toNat_setWidth, Nat.mod_eq_of_lt (by omega)]

/-- An address is read back from its word. -/
@[simp] theorem Address.ofWord_intoWord (a : Address) : Address.ofWord a.intoWord = a := by
  apply BitVec.eq_of_toNat_eq
  rw [Address.ofWord, BitVec.toNat_setWidth, Address.toNat_intoWord, Nat.mod_eq_of_lt a.isLt]

/-- Two addresses with one word are the same. -/
theorem Address.intoWord_injective : Function.Injective Address.intoWord := by
  intro a b h
  rw [← Address.ofWord_intoWord a, h, Address.ofWord_intoWord]

/-- An address cell. -/
structure StorageBackedAddress where
  slot : StorageSlot
deriving DecidableEq

namespace StorageBackedAddress

/-- Read the low 20 bytes of the word. The upper 12 are dropped, and no word panics. -/
def get (self : StorageBackedAddress) : Exec DbError Address := do
  let raw ← self.slot.get
  pure (Address.ofWord raw)

/-- Write the address into the low 20 bytes. The upper 12 become zero. -/
def set (self : StorageBackedAddress) (val : Address) : Exec DbError Unit :=
  self.slot.set val.intoWord

end StorageBackedAddress

/-- A cell of an optional address. -/
structure StorageBackedAddressOrNil where
  slot : StorageSlot

namespace StorageBackedAddressOrNil

/-- The word that stands for `None`: `1 << 255`. -/
def nil : U256 := 1 <<< 255

/-- Read the cell. Only the word `1 << 255` is `None`; the zero word is the zero address. -/
def get (self : StorageBackedAddressOrNil) : Exec DbError (Option Address) := do
  let raw ← self.slot.get
  if raw = nil then pure none else pure (some (Address.ofWord raw))

/-- Write the address, or the word that stands for `None`. No address has that word. -/
def set (self : StorageBackedAddressOrNil) (val : Option Address) : Exec DbError Unit :=
  match val with
  | none => self.slot.set nil
  | some addr => self.slot.set addr.intoWord

end StorageBackedAddressOrNil

end ArbReth
