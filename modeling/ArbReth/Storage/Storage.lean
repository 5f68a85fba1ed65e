import ArbReth.BigEndian
import ArbReth.Storage.Slot

/-!
# `ArbReth.Storage.Storage`: a namespaced storage space

A `Storage` is a space of 256-bit keys inside the storage of one account. Its
`storageKey` is the keccak256 digest that names it, and the root space has the
empty one. A key maps to the physical slot whose first 31 bytes hash the storage
key and the first 31 bytes of the key, and whose last byte is the last byte of the
key.

keccak256 is the parameter `Keccak`. `cachedKeccak` consults a cache of digests
in the source. The cache returns only digests it was given for the same bytes, so
the model computes the digest at each call. The field `hashCache` keeps whether
the handle shares the cache.

`StorageBackedBytes` stores a byte string: the length in slot 0, then the full
32-byte chunks, then the rest, right-aligned. Its `while` loops over the remaining
length run a number of times that the length fixes, which is the count that their
models recurse on.
-/

set_option autoImplicit false

namespace ArbReth

open ArbReth.Program ArbReth.BigEndian

/-- `Vec<u8>` and `[u8]`. -/
abbrev Bytes : Type := List UInt8

/-- The hash function keccak256. -/
class Keccak where
  keccak256 : Bytes → Vector UInt8 32

/-- `to_be_bytes::<32>`. -/
def U256.toBeBytes (x : U256) : Bytes := beBytes 32 x.toNat

/-- `from_be_bytes`, for a string of 32 bytes. -/
def U256.fromBeBytes (bs : Bytes) : U256 := BitVec.ofNat 256 (beValue bs)

/-- A word has 32 bytes. -/
@[simp] theorem U256.length_toBeBytes (x : U256) : x.toBeBytes.length = 32 := length_beBytes _ _

/-- Two words with the same bytes are equal. -/
theorem U256.toBeBytes_inj {x y : U256} : x.toBeBytes = y.toBeBytes ↔ x = y := by
  unfold U256.toBeBytes
  rw [beBytes_inj (by simpa using x.isLt) (by simpa using y.isLt)]
  exact BitVec.toNat_inj

/-- Two strings of 32 bytes that spell the same word are equal. -/
theorem U256.fromBeBytes_inj {as bs : Bytes} (ha : as.length = 32) (hb : bs.length = 32)
    (h : U256.fromBeBytes as = U256.fromBeBytes bs) : as = bs := by
  have hlt : ∀ cs : Bytes, cs.length = 32 → beValue cs < 2 ^ 256 := by
    intro cs hc
    have := beValue_lt cs
    rw [hc] at this
    exact lt_of_lt_of_eq this (by norm_num)
  have hv : beValue as = beValue bs := by
    have := congrArg BitVec.toNat h
    rwa [U256.fromBeBytes, U256.fromBeBytes, BitVec.toNat_ofNat, BitVec.toNat_ofNat,
      Nat.mod_eq_of_lt (hlt as ha), Nat.mod_eq_of_lt (hlt bs hb)] at this
  have := congrArg (beBytes 32) hv
  rwa [← ha, beBytes_beValue, ha, ← hb, beBytes_beValue] at this

/-- The bytes of the word that 32 bytes spell. -/
theorem U256.toBeBytes_fromBeBytes {bs : Bytes} (h : bs.length = 32) :
    (U256.fromBeBytes bs).toBeBytes = bs := by
  have hlt := beValue_lt bs
  rw [h] at hlt
  rw [U256.toBeBytes, U256.fromBeBytes, BitVec.toNat_ofNat,
    Nat.mod_eq_of_lt (lt_of_lt_of_eq hlt (by norm_num)), ← h, beBytes_beValue]

/-- `u64::to_be_bytes`. -/
def U64.toBeBytes (x : U64) : Bytes := beBytes 8 x.toNat

/-- `Address::as_slice`. -/
def Address.asSlice (x : Address) : Bytes := beBytes 20 x.toNat

/-- The two hexadecimal digits of each byte. -/
def nibbles (bs : Bytes) : List Nat := bs.flatMap fun b => [b.toNat / 16, b.toNat % 16]

/-- The `Display` form of an address: 40 hexadecimal digits, where a letter is a capital
when the digit of the hash of the small letters at its place is 8 or more. -/
def Address.display [Keccak] (x : Address) : String :=
  let digits := (nibbles x.asSlice).map Nat.digitChar
  let hash := Keccak.keccak256 (digits.map fun c => UInt8.ofNat c.toNat)
  "0x" ++ String.ofList
    (List.zipWith (fun c n => if 8 ≤ n then c.toUpper else c) digits (nibbles hash.toList))

/-- A namespaced storage space of `account`. -/
structure Storage where
  account : Address
  storageKey : Bytes
  hashCache : Bool
deriving DecidableEq

namespace Storage
variable [Keccak]

/-- The keccak256 digest of the concatenation of `data`. -/
def cachedKeccak (_self : Storage) (data : List Bytes) : Vector UInt8 32 :=
  Keccak.keccak256 data.flatten

/-- The physical slot of the 32-byte key `key`. -/
def mapAddressByKey (self : Storage) (key : StorageKey) : StorageKey :=
  let keyBytes := key.toBeBytes
  let hash := self.cachedKeccak [self.storageKey, keyBytes.take 31]
  U256.fromBeBytes (hash.toList.take 31 ++ keyBytes.drop 31)

/-- The physical slot of the logical slot `offset`. -/
def mapAddress (self : Storage) (offset : U64) : StorageKey :=
  let keyBytes := (U256.ofU64 offset).toBeBytes
  let hash := self.cachedKeccak [self.storageKey, keyBytes.take 31]
  U256.fromBeBytes (hash.toList.take 31 ++ keyBytes.drop 31)

/-- Two keys are mapped to one slot exactly when their pages agree on 31 digest bytes
and the keys agree on the last byte. -/
theorem mapAddressByKey_eq_iff_page (s t : Storage) (k k' : StorageKey) :
    s.mapAddressByKey k = t.mapAddressByKey k'
      ↔ (Keccak.keccak256 (s.storageKey ++ k.toBeBytes.take 31)).toList.take 31
          = (Keccak.keccak256 (t.storageKey ++ k'.toBeBytes.take 31)).toList.take 31
        ∧ k.toBeBytes.drop 31 = k'.toBeBytes.drop 31 := by
  simp only [mapAddressByKey, cachedKeccak, List.flatten_cons, List.flatten_nil, List.append_nil]
  constructor
  · intro h
    have happ := U256.fromBeBytes_inj (by simp) (by simp) h
    exact List.append_inj happ (by simp)
  · rintro ⟨h1, h2⟩
    rw [h1, h2]

/-! ### Access that is neither charged nor guarded -/

/-- Read the logical slot `offset` from the database. -/
def readSlot (self : Storage) (offset : U64) : Exec DbError StorageValue :=
  Exec.storage self.account (self.mapAddress offset)

/-- Write the logical slot `offset` through the journal. The burner is not asked, so a read-only
one does not stop the write. -/
def writeSlot (self : Storage) (offset : U64) (value : StorageValue) : Exec DbError Unit :=
  Exec.sstore self.account (self.mapAddress offset) value

/-- Read the slot of a 32-byte key from the database. -/
def getByKey (self : Storage) (key : StorageKey) : Exec DbError StorageValue :=
  Exec.storage self.account (self.mapAddressByKey key)

/-- Write the slot of a 32-byte key through the journal. The burner is not asked here either. -/
def setByKey (self : Storage) (key : StorageKey) (value : StorageValue) : Exec DbError Unit :=
  Exec.sstore self.account (self.mapAddressByKey key) value

/-- Write zero to the slot of a 32-byte key, like `setByKey`. -/
def clearByKey (self : Storage) (key : StorageKey) : Exec DbError Unit :=
  self.setByKey key 0

/-- The message of `val.to::<u64>()` on a word above `u64::MAX`. It names the width of
the word, its low 64 bits and the bound. -/
def conversionError (val : U256) : String :=
  s!"Uint conversion error: Overflow(256, {val.toNat % 2 ^ 64}, {2 ^ 64 - 1})"

/-- The slot as a `u64`: `val.to::<u64>()` panics on a larger word. -/
def getUint64ByKey (self : Storage) (key : StorageKey) : Exec DbError U64 := do
  let val ← self.getByKey key
  match U64.tryFrom val with
  | none => .panic (conversionError val)
  | some v => pure v

/-- Read the slot of the key that is a `u64`. -/
def getByUint64 (self : Storage) (key : U64) : Exec DbError StorageValue :=
  self.getByKey (U256.ofU64 key)

/-- Read the slot of the key that is a `u64`, as a `u64`. -/
def getUint64ByUint64 (self : Storage) (key : U64) : Exec DbError U64 :=
  self.getUint64ByKey (U256.ofU64 key)

/-! ### Writes that check the burner and charge it -/

/-- Write the slot of a 32-byte key. A read-only burner panics, and a writable one is charged
before the write. Nothing is captured, unlike in `StorageSlot.set`. -/
def set (self : Storage) (key : StorageKey) (value : StorageValue) : Exec DbError Unit := do
  if ← Exec.readOnly then
    .panic "read-only burner attempted to mutate state"
  else
    Exec.burn .storageAccess (writeCost value)
    self.setByKey key value

/-- `set` for a value that is a `u64`. -/
def setUint64 (self : Storage) (key : StorageKey) (value : U64) : Exec DbError Unit :=
  self.set key (U256.ofU64 value)

/-- `set` for a key that is a `u64`. -/
def setByUint64 (self : Storage) (key : U64) (value : StorageValue) : Exec DbError Unit :=
  self.set (U256.ofU64 key) value

/-- `set` for a key and a value that are both a `u64`. -/
def setUint64ByUint64 (self : Storage) (key value : U64) : Exec DbError Unit :=
  self.set (U256.ofU64 key) (U256.ofU64 value)

/-- `set` for a value that is a `u32`. -/
def setUint32 (self : Storage) (key : StorageKey) (value : U32) : Exec DbError Unit :=
  self.set key (U256.ofU64 (value.setWidth 64))

/-- `set` for a key that is a `u32`. -/
def setByUint32 (self : Storage) (key : U32) (value : StorageValue) : Exec DbError Unit :=
  self.set (U256.ofU64 (key.setWidth 64)) value

/-- `set` to zero, at the cost of a write of zero. -/
def clear (self : Storage) (key : StorageKey) : Exec DbError Unit := self.set key 0

/-- `clear` for a key that is a `u64`. -/
def clearByUint64 (self : Storage) (key : U64) : Exec DbError Unit :=
  self.set (U256.ofU64 key) 0

/-- Read the current value and write `newValue`. The result is the old value. -/
def swap (self : Storage) (key : StorageKey) (newValue : StorageValue) :
    Exec DbError StorageValue := do
  let old ← self.getByKey key
  self.set key newValue
  pure old

/-! ### Sub-spaces and cells -/

/-- The child space with the key `keccak256(storageKey ++ id)`, without the cache. -/
def openSubStorage (self : Storage) (id : Bytes) : Storage where
  account := self.account
  storageKey := (self.cachedKeccak [self.storageKey, id]).toList
  hashCache := false

/-- The same child space, with the shared cache. -/
def openCachedSubStorage (self : Storage) (id : Bytes) : Storage where
  account := self.account
  storageKey := (self.cachedKeccak [self.storageKey, id]).toList
  hashCache := true

/-- The slot that the cell at `offset` is opened over. -/
def newSlot (self : Storage) (offset : U64) : StorageSlot where
  account := self.account
  slot := self.mapAddress offset

/-- The 64-bit unsigned cell at `offset`. -/
def openStorageBackedUint64 (self : Storage) (offset : U64) : StorageBackedUint64 :=
  ⟨self.newSlot offset⟩

/-- The 64-bit signed cell at `offset`. -/
def openStorageBackedInt64 (self : Storage) (offset : U64) : StorageBackedInt64 :=
  ⟨self.newSlot offset⟩

/-- The address cell at `offset`. -/
def openStorageBackedAddress (self : Storage) (offset : U64) : StorageBackedAddress :=
  ⟨self.newSlot offset⟩

/-- The cell of an optional address at `offset`. -/
def openStorageBackedAddressOrNil (self : Storage) (offset : U64) : StorageBackedAddressOrNil :=
  ⟨self.newSlot offset⟩

/-- The cell of signed basis points at `offset`. -/
def openStorageBackedBips (self : Storage) (offset : U64) : StorageBackedBips :=
  ⟨⟨self.newSlot offset⟩⟩

/-- The cell of unsigned basis points at `offset`. -/
def openStorageBackedUBips (self : Storage) (offset : U64) : StorageBackedUBips :=
  ⟨⟨self.newSlot offset⟩⟩

/-- The 16-bit unsigned cell at `offset`. -/
def openStorageBackedUint16 (self : Storage) (offset : U64) : StorageBackedUint16 :=
  ⟨self.newSlot offset⟩

/-- The 24-bit unsigned cell at `offset`. -/
def openStorageBackedUint24 (self : Storage) (offset : U64) : StorageBackedUint24 :=
  ⟨self.newSlot offset⟩

/-- The 32-bit unsigned cell at `offset`. -/
def openStorageBackedUint32 (self : Storage) (offset : U64) : StorageBackedUint32 :=
  ⟨self.newSlot offset⟩

/-- The 256-bit signed cell at `offset`. -/
def openStorageBackedBigInt (self : Storage) (offset : U64) : StorageBackedBigInt :=
  ⟨self.newSlot offset⟩

/-- The 256-bit unsigned cell at `offset`. -/
def openStorageBackedBigUint (self : Storage) (offset : U64) : StorageBackedBigUint :=
  ⟨self.newSlot offset⟩

/-! ### Byte strings -/

/-- The logical slot `n` of a byte string. -/
def chunkOffset (n : Nat) : U64 := BitVec.ofNat 64 n

/-- The length of the byte string, from slot 0. A word above `u64::MAX` panics. -/
def getBytesSize (self : Storage) : Exec DbError U64 := do
  let raw ← self.readSlot 0
  match U64.tryFrom raw with
  | none => .panic "invalid byte length in StorageBackedBytes"
  | some size => pure size

/-- The loop of `getBytes` over `count` full chunks, from slot `offset` on. -/
def getFullChunks (self : Storage) : (offset count : Nat) → Exec DbError Bytes
  | _, 0 => pure []
  | offset, count + 1 => do
      let chunk ← self.readSlot (chunkOffset offset)
      let rest ← self.getFullChunks (offset + 1) count
      pure (chunk.toBeBytes ++ rest)

/-- Read the byte string. The full chunks come first. The rest is the low end of one more slot,
which is not read when the length is a multiple of 32. -/
def getBytes (self : Storage) : Exec DbError Bytes := do
  let size ← self.getBytesSize
  let full := size.toNat / 32
  let bytesLeft := size.toNat % 32
  let result ← self.getFullChunks 1 full
  if 0 < bytesLeft then
    let chunk ← self.readSlot (chunkOffset (1 + full))
    pure (result ++ chunk.toBeBytes.drop (32 - bytesLeft))
  else
    pure result

/-- Each round of the loop clears one slot and takes 32 bytes, saturating, off the
length, so it runs `⌈size / 32⌉` times. -/
def clearBytes (self : Storage) : Exec DbError Unit := do
  let size ← self.getBytesSize
  Prog.forRange (fun offset => self.writeSlot (chunkOffset offset) 0) 1 ((size.toNat + 31) / 32)
  self.writeSlot 0 0

/-- The loop of `setBytes` over `count` full chunks of `remaining`, and the rest of
`remaining` after them. -/
def setChunks (self : Storage) : (offset count : Nat) → (remaining : Bytes) → Exec DbError Unit
  | offset, 0, remaining =>
      if remaining.isEmpty then pure ()
      else
        self.writeSlot (chunkOffset offset)
          (U256.fromBeBytes (List.replicate (32 - remaining.length) 0 ++ remaining))
  | offset, count + 1, remaining => do
      self.writeSlot (chunkOffset offset) (U256.fromBeBytes (remaining.take 32))
      self.setChunks (offset + 1) count (remaining.drop 32)

/-- Write a byte string: the old one is cleared, and then the length, the full chunks and the
rest are written. -/
def setBytes (self : Storage) (b : Bytes) : Exec DbError Unit := do
  self.clearBytes
  self.writeSlot 0 (U256.ofU64 (BitVec.ofNat 64 b.length))
  self.setChunks 1 (b.length / 32) b

end Storage

/-- A byte string of any length over several slots of one space. -/
structure StorageBackedBytes where
  storage : Storage

namespace StorageBackedBytes
variable [Keccak]

/-- The length of the string. -/
def size (self : StorageBackedBytes) : Exec DbError U64 := self.storage.getBytesSize

/-- The bytes of the string. -/
def get (self : StorageBackedBytes) : Exec DbError Bytes := self.storage.getBytes

/-- Clear all slots of the string. -/
def clear (self : StorageBackedBytes) : Exec DbError Unit := self.storage.clearBytes

/-- Replace the string. -/
def set (self : StorageBackedBytes) (b : Bytes) : Exec DbError Unit := self.storage.setBytes b

end StorageBackedBytes

/-- The byte string rooted at the sub-space `id`. -/
def Storage.openStorageBackedBytes [Keccak] (self : Storage) (id : Bytes) : StorageBackedBytes :=
  ⟨self.openSubStorage id⟩

end ArbReth
