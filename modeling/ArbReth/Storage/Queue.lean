import ArbReth.Storage.Storage

/-!
# `ArbReth.Storage.Queue`: the persistent queue of storage words

Slots 0 and 1 of the space hold the offsets `nextPut` and `nextGet`, which start
at 2. The element that is put next goes to the slot `nextPut`. The element that
is taken next is in the slot `nextGet`.

The closure of `forEach` is an `FnMut`. It is modelled by a function that also
takes and returns the state `γ` it captures. `+` and `-` on the offsets are the
checked operators of the source.
-/

set_option autoImplicit false

namespace ArbReth

open ArbReth.Program

/-- A queue of storage words. -/
structure Queue where
  storage : Storage
  nextPutOffset : StorageBackedUint64
  nextGetOffset : StorageBackedUint64

namespace Queue
variable [Keccak]

/-- `Queue::initialize`: both offsets start at 2. -/
def initializeQueue (sto : Storage) : Exec DbError Unit := do
  sto.setUint64ByUint64 0 2
  sto.setUint64ByUint64 1 2

/-- `Queue::open`. The handle of the queue does not share the hash cache. -/
def «open» (sto : Storage) : Queue where
  storage := { account := sto.account, storageKey := sto.storageKey, hashCache := false }
  nextPutOffset := sto.openStorageBackedUint64 0
  nextGetOffset := sto.openStorageBackedUint64 1

/-- The queue is empty when the two offsets are equal. -/
def isEmpty (self : Queue) : Exec DbError Bool := do
  let put ← self.nextPutOffset.get
  let get ← self.nextGetOffset.get
  pure (put == get)

/-- The difference of the offsets, with the checked operator `-`. -/
def size (self : Queue) : Exec DbError U64 := do
  let put ← self.nextPutOffset.get
  let get ← self.nextGetOffset.get
  checkedSub put get

/-- The oldest element, or `none` when the queue is empty. -/
def peek (self : Queue) : Exec DbError (Option StorageValue) := do
  if ← self.isEmpty then
    pure none
  else
    let next ← self.nextGetOffset.get
    let res ← self.storage.getByUint64 next
    pure (some res)

/-- Take the oldest element and clear its slot. `none` when the queue is empty. -/
def get (self : Queue) : Exec DbError (Option StorageValue) := do
  if ← self.isEmpty then
    pure none
  else
    -- the offset moves before the element is read
    let newOffset ← self.nextGetOffset.increment
    let at_ ← checkedSub newOffset 1
    let res ← self.storage.swap (U256.ofU64 at_) 0
    pure (some res)

/-- Append `val`. -/
def put (self : Queue) (val : StorageValue) : Exec DbError Unit := do
  let newOffset ← self.nextPutOffset.increment
  let at_ ← checkedSub newOffset 1
  self.storage.setByUint64 at_ val

/-- Reset the offsets when the queue is empty. The result tells whether it was. -/
def shift (self : Queue) : Exec DbError Bool := do
  let put ← self.nextPutOffset.get
  let get ← self.nextGetOffset.get
  if put ≠ get then
    pure false
  else
    self.nextGetOffset.set 2
    self.nextPutOffset.set 2
    pure true

/-- The loop of `forEach` over the `count` elements from `index` on. -/
def forEachFrom {γ : Type} (self : Queue)
    (closure : γ → U64 → StorageValue → Except DbError Bool × γ)
    (offset : U64) : (index count : Nat) → γ → Exec DbError γ
  | _, 0, g => pure g
  | index, count + 1, g => do
      let at_ ← checkedAdd offset (BitVec.ofNat 64 index)
      let entry ← self.storage.getByUint64 at_
      match closure g (BitVec.ofNat 64 index) entry with
      | (.error e, _) => .fail e
      | (.ok true, g') => pure g'
      | (.ok false, g') => self.forEachFrom closure offset (index + 1) count g'

/-- Call `closure` on the elements in order, with their indices, until it returns
`true`. The result is the state that the closure ends in. -/
def forEach {γ : Type} (self : Queue) (closure : γ → U64 → StorageValue → Except DbError Bool × γ)
    (g : γ) : Exec DbError γ := do
  let size ← self.size
  let offset ← self.nextGetOffset.get
  self.forEachFrom closure offset 0 size.toNat g

end Queue

end ArbReth
