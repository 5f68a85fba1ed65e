import ArbReth.Storage.Storage

/-!
# `ArbReth.Storage.Vector`: a vector of sub-spaces

The length is in slot 0 of the space. The element `i` is the sub-space whose id is
the 8-byte big-endian form of `i`. `push` and `pop` move the length only: they do
not touch the slots of the element.
-/

set_option autoImplicit false

namespace ArbReth

open ArbReth.Program

/-- `SUB_STORAGE_VECTOR_LENGTH_OFFSET`. -/
def subStorageVectorLengthOffset : U64 := 0

/-- A vector of sub-spaces. -/
structure SubStorageVector where
  storage : Storage
  lengthCell : StorageBackedUint64

namespace SubStorageVector
variable [Keccak]

/-- `SubStorageVector::open`. The handle does not share the hash cache. -/
def «open» (sto : Storage) : SubStorageVector where
  storage := { account := sto.account, storageKey := sto.storageKey, hashCache := false }
  lengthCell := sto.openStorageBackedUint64 subStorageVectorLengthOffset

/-- The number of the elements, from slot 0. -/
def length (self : SubStorageVector) : Exec DbError U64 := self.lengthCell.get

/-- The sub-space at `i`, also past the end. -/
def at_ (self : SubStorageVector) (i : U64) : Storage :=
  self.storage.openSubStorage i.toBeBytes

/-- Append a sub-space and return it. -/
def push (self : SubStorageVector) : Exec DbError Storage := do
  let length ← self.lengthCell.get
  let subStorage := self.storage.openSubStorage length.toBeBytes
  self.lengthCell.set (← checkedAdd length 1)
  pure subStorage

/-- Remove the last sub-space and return it. -/
def pop (self : SubStorageVector) : Exec DbError Storage := do
  let length ← self.lengthCell.get
  if length = 0 then
    .panic "sub-storage vector: can't pop empty"
  else
    let subStorage := self.storage.openSubStorage (length - 1).toBeBytes
    self.lengthCell.set (length - 1)
    pure subStorage

end SubStorageVector

end ArbReth
