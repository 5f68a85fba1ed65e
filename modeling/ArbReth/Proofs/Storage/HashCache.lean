import ArbReth.Storage.HashCache
import ArbReth.Storage.SampleHash

/-!
# `ArbReth.Proofs.Storage.HashCache`: the cache of digests is transparent

The cache is keyed by the bytes that are hashed, and only `cachedKeccak` pushes to it. So
every entry is a digest of its key (`Cache.Honest`), whoever pushed it, and an answer of the
cache is the digest that would have been computed. `cachedKeccak_spec` says so of one
lookup, `run_spec` of one call, and `Client.run_simulates` carries it to every sequence of
calls through any handles.

`cache_transparent` states the result for every cache that meets `Cache.OnlyPushed`.
`LruList` is such a cache: a list with the most recent entry first and a capacity.
-/

set_option autoImplicit false

namespace ArbReth

open ArbReth.Program

section Transparent
variable [Keccak] {C : Type} [Cache Bytes (Vector UInt8 32) C] {start : C}

namespace HashCache

/-- Every digest in the cache was pushed for the bytes that it is the digest of. -/
def Sound (start : C) (cache : HashCache C) : Prop :=
  Cache.Honest start Keccak.keccak256 cache.lru

/-- A call with the cache has returned `value`, and it has left the cache sound. -/
def Returns {α : Type} (start : C) (result : α × HashCache C) (value : α) : Prop :=
  ∃ cache, result = (value, cache) ∧ Sound start cache

variable {cache : HashCache C}

/-- A hit returns the cached hash. -/
theorem cachedKeccak_of_hit {self : Storage} {data : List Bytes} {lru : C}
    {cached : Vector UInt8 32} (hself : self.hashCache = true)
    (hget : Cache.get cache.lru data.flatten = (some cached, lru)) :
    cachedKeccak self data cache = (cached, { cache with lru }) := by
  simp [cachedKeccak, hself, hget]

/-- A miss computes the hash and pushes it. -/
theorem cachedKeccak_of_miss {self : Storage} {data : List Bytes} {lru : C}
    (hself : self.hashCache = true) (hget : Cache.get cache.lru data.flatten = (none, lru)) :
    cachedKeccak self data cache = (Keccak.keccak256 data.flatten,
      { lru := (Cache.push lru data.flatten (Keccak.keccak256 data.flatten)).2
        fullLogged := (Cache.push lru data.flatten (Keccak.keccak256 data.flatten)).1.isSome
          || cache.fullLogged }) := by
  simp [cachedKeccak, hself, hget]

/-- The cached hash is the hash, and the cache stays sound. -/
theorem cachedKeccak_returns (hlaw : Cache.OnlyPushed start) (h : Sound start cache)
    (self : Storage) (data : List Bytes) :
    Returns start (cachedKeccak self data cache) (self.cachedKeccak data) := by
  cases hself : self.hashCache with
  | false => exact ⟨cache, by simp [cachedKeccak, hself, Storage.cachedKeccak], h⟩
  | true =>
    have hget := Cache.Honest.get h data.flatten
    rcases hlookup : Cache.get cache.lru data.flatten with ⟨_ | cached, lru⟩ <;>
      rw [hlookup] at hget
    · -- a miss pushes the digest under the bytes that were hashed
      rw [cachedKeccak_of_miss hself hlookup]
      exact ⟨_, rfl, hget.push data.flatten⟩
    · have hvalue : cached = Keccak.keccak256 data.flatten :=
        Cache.Honest.lookup hlaw h (by rw [hlookup])
      rw [cachedKeccak_of_hit hself hlookup, hvalue]
      exact ⟨_, rfl, hget⟩

/-- The cached slot is the slot of the key. -/
theorem mapAddressByKey_returns (hlaw : Cache.OnlyPushed start) (h : Sound start cache)
    (self : Storage) (key : StorageKey) :
    Returns start (mapAddressByKey self key cache) (self.mapAddressByKey key) := by
  obtain ⟨cache', hrun, hsound⟩ := cachedKeccak_returns hlaw h self
    [self.storageKey, key.toBeBytes.take 31]
  refine ⟨cache', ?_, hsound⟩
  simp only [mapAddressByKey, Storage.mapAddressByKey, hrun]

/-- An offset is mapped as the key that it spells. -/
theorem mapAddress_eq (self : Storage) (offset : U64) (cache : HashCache C) :
    mapAddress self offset cache = mapAddressByKey self (U256.ofU64 offset) cache := rfl

/-- The space opened through the cache is the sub-space. -/
theorem openSubStorage_returns (hlaw : Cache.OnlyPushed start) (h : Sound start cache)
    (self : Storage) (id : Bytes) :
    Returns start (openSubStorage self id cache) (self.openSubStorage id) := by
  obtain ⟨cache', hrun, hsound⟩ := cachedKeccak_returns hlaw h self [self.storageKey, id]
  refine ⟨cache', ?_, hsound⟩
  simp only [openSubStorage, Storage.openSubStorage, hrun]

/-- The caching space opened through the cache is the caching sub-space. -/
theorem openCachedSubStorage_returns (hlaw : Cache.OnlyPushed start) (h : Sound start cache)
    (self : Storage) (id : Bytes) :
    Returns start (openCachedSubStorage self id cache) (self.openCachedSubStorage id) := by
  obtain ⟨cache', hrun, hsound⟩ := cachedKeccak_returns hlaw h self [self.storageKey, id]
  refine ⟨cache', ?_, hsound⟩
  simp only [openCachedSubStorage, Storage.openCachedSubStorage, hrun]

end HashCache

open HashCache

/-- A call with the cache returns what it returns without one. -/
theorem MapCall.run_returns (hlaw : Cache.OnlyPushed start) {cache : HashCache C}
    (h : Sound start cache) (self : Storage) (call : MapCall) :
    Returns start (call.run self cache) (call.direct self) := by
  cases call with
  | mapAddress offset =>
    obtain ⟨cache', hrun, hsound⟩ := mapAddressByKey_returns hlaw h self (U256.ofU64 offset)
    exact ⟨cache', by rw [run, mapAddress_eq, hrun]; rfl, hsound⟩
  | mapAddressByKey key =>
    obtain ⟨cache', hrun, hsound⟩ := mapAddressByKey_returns hlaw h self key
    exact ⟨cache', by rw [run, hrun]; rfl, hsound⟩
  | openSubStorage id =>
    obtain ⟨cache', hrun, hsound⟩ := openSubStorage_returns hlaw h self id
    exact ⟨cache', by rw [run, hrun]; rfl, hsound⟩
  | openCachedSubStorage id =>
    obtain ⟨cache', hrun, hsound⟩ := openCachedSubStorage_returns hlaw h self id
    exact ⟨cache', by rw [run, hrun]; rfl, hsound⟩

/-- The client with the cache has the handles of the client without one, and its cache is
sound. -/
structure Agree (start : C) (c : Client (HashCache C) Storage) (d : Client Unit Storage) :
    Prop where
  sound : Sound start c.state
  handles : c.handles = d.handles

/-- The client that works on the global cache. -/
abbrev MapOp.cached (ops : List MapOp) (c : Client (HashCache C) Storage) :
    List (Outcome Empty MapReply) × Client (HashCache C) Storage :=
  Client.run (Client.specStep MapOp.run) ops c

/-- The client that has no cache. -/
abbrev MapOp.uncached (ops : List MapOp) (d : Client Unit Storage) :
    List (Outcome Empty MapReply) × Client Unit Storage :=
  Client.run (Client.specStep MapOp.direct) ops d

/-- One call keeps the agreement, with the same result. -/
theorem MapOp.step_agree (hlaw : Cache.OnlyPushed start) (op : MapOp)
    (c : Client (HashCache C) Storage) (d : Client Unit Storage) (h : Agree start c d) :
    (Client.specStep MapOp.run op c).1 = (Client.specStep MapOp.direct op d).1
      ∧ Agree start (Client.specStep MapOp.run op c).2
          (Client.specStep MapOp.direct op d).2 := by
  obtain ⟨cache, handles⟩ := c
  obtain ⟨⟨⟩, handles'⟩ := d
  obtain ⟨hsound, hhandles⟩ := h
  obtain rfl : handles = handles' := hhandles
  unfold Client.specStep MapOp.run MapOp.direct
  cases hhandle : handles[op.handle]? with
  | none => exact ⟨rfl, hsound, by simp [Client.after]⟩
  | some self =>
    obtain ⟨cache', hrun, hnext⟩ := MapCall.run_returns hlaw hsound self op.call
    simp only [hrun, Client.after]
    exact ⟨trivial, hnext, rfl⟩

/-- Every sequence of calls returns the same with the cache as without one. -/
theorem MapOp.run_agree (hlaw : Cache.OnlyPushed start) (fullLogged : Bool)
    (handles : List Storage) (ops : List MapOp) :
    (MapOp.cached ops ⟨⟨start, fullLogged⟩, handles⟩).1 = (MapOp.uncached ops ⟨(), handles⟩).1
      ∧ Agree start (MapOp.cached ops ⟨⟨start, fullLogged⟩, handles⟩).2
          (MapOp.uncached ops ⟨(), handles⟩).2 :=
  Client.run_simulates ops (fun op _ => MapOp.step_agree hlaw op) _ _ ⟨Cache.Honest.initial, rfl⟩

/-- Take a cache that answers only with what was pushed for a key, and any calls through any
handles, cached or not. Every call returns what it returns with no cache at all, and the
same handles are opened. After the calls, two handles of one space map a key to one slot,
also when the second is used after other calls. An offset is mapped as the key that it
spells. -/
theorem cache_transparent (hlaw : Cache.OnlyPushed start) (fullLogged : Bool)
    (handles : List Storage) (ops ops' : List MapOp) :
    let c := MapOp.cached ops ⟨⟨start, fullLogged⟩, handles⟩
    let c' := MapOp.cached ops' ⟨⟨start, fullLogged⟩, handles⟩
    c.1 = (MapOp.uncached ops ⟨(), handles⟩).1
      ∧ c.2.handles = (MapOp.uncached ops ⟨(), handles⟩).2.handles
      ∧ (∀ s t : Storage, s.storageKey = t.storageKey → ∀ key,
          (mapAddressByKey s key c.2.state).1 = (mapAddressByKey t key c'.2.state).1)
      ∧ ∀ (s : Storage) (offset : U64),
          (mapAddress s offset c.2.state).1
            = (mapAddressByKey s (U256.ofU64 offset) c'.2.state).1 := by
  intro c c'
  obtain ⟨hreplies, hsound, hhandles⟩ := MapOp.run_agree hlaw fullLogged handles ops
  obtain ⟨-, hsound', -⟩ := MapOp.run_agree hlaw fullLogged handles ops'
  -- both caches are sound, so a slot is the one of the mapping without a cache
  have hslot (s : Storage) (key : StorageKey) :
      (mapAddressByKey s key c.2.state).1 = s.mapAddressByKey key := by
    obtain ⟨_, hrun, -⟩ := mapAddressByKey_returns hlaw hsound s key
    rw [hrun]
  have hslot' (s : Storage) (key : StorageKey) :
      (mapAddressByKey s key c'.2.state).1 = s.mapAddressByKey key := by
    obtain ⟨_, hrun, -⟩ := mapAddressByKey_returns hlaw hsound' s key
    rw [hrun]
  refine ⟨hreplies, hhandles, fun s t hkey key => ?_, fun s offset => ?_⟩
  · rw [hslot, hslot']
    simp only [Storage.mapAddressByKey, Storage.cachedKeccak, hkey]
  · rw [mapAddress_eq, hslot, hslot']

end Transparent

/-! ### A cache with a capacity -/

/-- The entries of a least-recently-used cache, the most recent first. -/
structure LruList (K V : Type) where
  capacity : Nat
  entries : List (K × V)

namespace LruList
variable {K V : Type}

/-- An entry is the first one or one of the others. -/
theorem mem_cons_entry {entries : List (K × V)} {key key' : K} {value value' : V}
    (h : (key, value) ∈ (key', value') :: entries) :
    (key = key' ∧ value = value') ∨ (key, value) ∈ entries := by
  simpa using h

variable [DecidableEq K]

/-- The entries without those of a key. -/
def others (self : LruList K V) (key : K) : List (K × V) :=
  self.entries.filter fun entry => entry.1 ≠ key

/-- A hit moves the entry to the front. -/
def get (self : LruList K V) (key : K) : Option V × LruList K V :=
  match self.entries.lookup key with
  | none => (none, self)
  | some value => (some value, { self with entries := (key, value) :: self.others key })

/-- A new entry evicts the last one when the cache is full. -/
def push (self : LruList K V) (key : K) (value : V) : Option (K × V) × LruList K V :=
  match self.entries.lookup key with
  | some old => (some (key, old), { self with entries := (key, value) :: self.others key })
  | none =>
      if self.entries.length < self.capacity then
        (none, { self with entries := (key, value) :: self.entries })
      else (self.entries.getLast?, { self with entries := (key, value) :: self.entries.dropLast })

instance : Cache K V (LruList K V) where
  get := get
  push := push

/-- What a lookup finds is an entry. -/
theorem mem_of_lookup {self : LruList K V} {key : K} {value : V}
    (h : self.entries.lookup key = some value) : (key, value) ∈ self.entries := by
  obtain ⟨front, back, hentries, -⟩ := List.lookup_eq_some_iff.mp h
  rw [hentries]
  simp

/-- The cache keeps its entries. -/
theorem keeps : Cache.Keeps fun (self : LruList K V) key value => (key, value) ∈ self.entries where
  answer self key value hget := by
    change (self.get key).1 = _ at hget
    unfold get at hget
    split at hget
    · cases hget
    · cases hget
      exact mem_of_lookup ‹_›
  of_get self key' key value hmem := by
    change _ ∈ (self.get key').2.entries at hmem
    unfold get at hmem
    split at hmem
    · exact hmem
    · -- the entry at the front was in the cache
      rcases mem_cons_entry hmem with ⟨rfl, rfl⟩ | hmem
      · exact mem_of_lookup ‹_›
      · exact List.mem_of_mem_filter hmem
  of_push self key' value' key value hmem := by
    change _ ∈ (self.push key' value').2.entries at hmem
    unfold push at hmem
    split at hmem
    · exact (mem_cons_entry hmem).imp_right List.mem_of_mem_filter
    · split at hmem
      · exact mem_cons_entry hmem
      · exact (mem_cons_entry hmem).imp_right fun h => List.dropLast_subset _ h

/-- The empty cache. -/
def new (capacity : Nat) : LruList K V := { capacity, entries := [] }

/-- The list with least-recently-used eviction returns only what was pushed. -/
theorem onlyPushed_new (capacity : Nat) :
    Cache.OnlyPushed (new capacity : LruList K V) :=
  keeps.onlyPushed fun _ _ => List.not_mem_nil

end LruList

/-- One slot through a cached and an uncached handle of one space, and then through a space
that is opened in between. -/
theorem cache_transparent_sample :
    letI := sampleHash
    (MapOp.cached [⟨0, .mapAddress 3⟩, ⟨1, .mapAddress 3⟩, ⟨0, .openCachedSubStorage [1]⟩,
          ⟨2, .mapAddressByKey 3⟩]
        ⟨⟨(LruList.new storageKeyCacheSize : LruList Bytes (Vector UInt8 32)), false⟩,
          [sampleRoot, { sampleRoot with hashCache := false }]⟩).1
      = (MapOp.uncached [⟨0, .mapAddress 3⟩, ⟨1, .mapAddress 3⟩, ⟨0, .openCachedSubStorage [1]⟩,
            ⟨2, .mapAddressByKey 3⟩]
          ⟨(), [sampleRoot, { sampleRoot with hashCache := false }]⟩).1 :=
  letI := sampleHash
  (cache_transparent (LruList.onlyPushed_new storageKeyCacheSize) false _ _ []).1

end ArbReth
