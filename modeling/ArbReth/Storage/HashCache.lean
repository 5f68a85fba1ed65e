import ArbReth.Program.Client
import ArbReth.Program.Memo
import ArbReth.Storage.Storage

/-!
# `ArbReth.Storage.HashCache`: the mapping of addresses with the cache of digests

The handles of the storage that are opened with a cache share one global cache of keccak256
digests. The functions of this module are those of `Storage` with the state of that cache.
A handle without a cache leaves the state alone.

The cache is the parameter `C` with its instance of `Cache`, so nothing is said about what
it evicts. The first eviction is reported and sets `fullLogged`.

`MapOp` is a call through a handle, which is named by its number. A call that opens a space
adds its handle. `MapCall.run` is the call with the cache, and `MapCall.direct` the same
call with no cache at all.
-/

set_option autoImplicit false

namespace ArbReth

open ArbReth.Program

/-- The capacity of the global cache. -/
def storageKeyCacheSize : Nat := 1024

/-- The global cache of digests, and whether it has been reported full. -/
structure HashCache (C : Type) where
  lru : C
  fullLogged : Bool

namespace HashCache
variable [Keccak] {C : Type} [Cache Bytes (Vector UInt8 32) C]

/-- `Storage::cached_keccak`: the digest of the concatenation of `data`. -/
def cachedKeccak (self : Storage) (data : List Bytes) (cache : HashCache C) :
    Vector UInt8 32 × HashCache C :=
  let input := data.flatten
  if !self.hashCache then (Keccak.keccak256 input, cache)
  else
    match Cache.get cache.lru input with
    | (some cached, lru) => (cached, { cache with lru })
    | (none, lru) =>
        let hash := Keccak.keccak256 input
        let (evicted, lru) := Cache.push lru input hash
        (hash, { lru, fullLogged := evicted.isSome || cache.fullLogged })

/-- `Storage::map_address`. -/
def mapAddress (self : Storage) (offset : U64) (cache : HashCache C) : StorageKey × HashCache C :=
  let keyBytes := (U256.ofU64 offset).toBeBytes
  let (hash, cache) := cachedKeccak self [self.storageKey, keyBytes.take 31] cache
  (U256.fromBeBytes (hash.toList.take 31 ++ keyBytes.drop 31), cache)

/-- `Storage::map_address_by_key`. -/
def mapAddressByKey (self : Storage) (key : StorageKey) (cache : HashCache C) :
    StorageKey × HashCache C :=
  let keyBytes := key.toBeBytes
  let (hash, cache) := cachedKeccak self [self.storageKey, keyBytes.take 31] cache
  (U256.fromBeBytes (hash.toList.take 31 ++ keyBytes.drop 31), cache)

/-- `Storage::open_sub_storage`. The child has no cache. -/
def openSubStorage (self : Storage) (id : Bytes) (cache : HashCache C) : Storage × HashCache C :=
  let (hash, cache) := cachedKeccak self [self.storageKey, id] cache
  ({ account := self.account, storageKey := hash.toList, hashCache := false }, cache)

/-- `Storage::open_cached_sub_storage`. The child has the global cache. -/
def openCachedSubStorage (self : Storage) (id : Bytes) (cache : HashCache C) :
    Storage × HashCache C :=
  let (hash, cache) := cachedKeccak self [self.storageKey, id] cache
  ({ account := self.account, storageKey := hash.toList, hashCache := true }, cache)

end HashCache

/-- A call of the mapping functions on a handle. -/
inductive MapCall where
  | mapAddress (offset : U64)
  | mapAddressByKey (key : StorageKey)
  | openSubStorage (id : Bytes)
  | openCachedSubStorage (id : Bytes)

/-- What a call returns. -/
inductive MapReply where
  | slot (slot : StorageKey)
  | space (child : Storage)
  | noHandle
deriving DecidableEq

namespace MapReply

/-- The handle that the call has opened. -/
def opened : MapReply → Option Storage
  | .space child => some child
  | _ => none

end MapReply

namespace MapCall
variable [Keccak]

/-- The call with the cache. -/
def run {C : Type} [Cache Bytes (Vector UInt8 32) C] (self : Storage) (cache : HashCache C) :
    MapCall → MapReply × HashCache C
  | .mapAddress offset => (HashCache.mapAddress self offset cache).map .slot id
  | .mapAddressByKey key => (HashCache.mapAddressByKey self key cache).map .slot id
  | .openSubStorage sub => (HashCache.openSubStorage self sub cache).map .space id
  | .openCachedSubStorage sub => (HashCache.openCachedSubStorage self sub cache).map .space id

/-- The call with no cache at all. -/
def direct (self : Storage) : MapCall → MapReply
  | .mapAddress offset => .slot (self.mapAddress offset)
  | .mapAddressByKey key => .slot (self.mapAddressByKey key)
  | .openSubStorage id => .space (self.openSubStorage id)
  | .openCachedSubStorage id => .space (self.openCachedSubStorage id)

end MapCall

/-- A call through a handle. -/
structure MapOp where
  handle : Nat
  call : MapCall

namespace MapOp
variable [Keccak]

/-- The call on the global cache. A call through a handle that was not opened does nothing. -/
def run {C : Type} [Cache Bytes (Vector UInt8 32) C] (op : MapOp) (handles : List Storage)
    (cache : HashCache C) : Outcome Empty (MapReply × Option Storage) × HashCache C :=
  match handles[op.handle]? with
  | none => (.ok (.noHandle, none), cache)
  | some self =>
      let (reply, cache) := op.call.run self cache
      (.ok (reply, reply.opened), cache)

/-- The call with no cache at all. -/
def direct (op : MapOp) (handles : List Storage) (_ : Unit) :
    Outcome Empty (MapReply × Option Storage) × Unit :=
  match handles[op.handle]? with
  | none => (.ok (.noHandle, none), ())
  | some self =>
      let reply := op.call.direct self
      (.ok (reply, reply.opened), ())

end MapOp

end ArbReth
