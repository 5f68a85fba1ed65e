import ArbReth.L1Pricing.PosterCost
import ArbReth.Program.Memo
import ArbReth.Proofs.L1Pricing.FakeTx

/-!
# `ArbReth.Proofs.L1Pricing.PosterCost`: the cache of the calldata units is transparent

`CachesUnits` is the assumption on a transaction: its cache answers with the value that was
last stored for the level, and a store changes neither its bytes nor its type. So the cache
meets `Cache.OnlyPushed`.

The key of the cache is the level alone, and the units depend on the poster also. But
`getPosterInfo` looks at the cache only for the batch poster, and it stores only the units
of the batch poster. So the cache is `Cache.Honest` for `calldataUnits`, which is the
invariant of every sequence of calls (`PosterCall.runAll_spec`). The price is not cached. Each call
reads it from the state that it finds.

`units_cache_transparent` lets the state change in any way from call to call.
-/

set_option autoImplicit false

namespace ArbReth

open ArbReth.Program ArbReth.BigEndian

/-- The cost is the price that is read times the units, as far as a word goes. -/
theorem L1PricingState.exec_costOfUnits (self : L1PricingState) {τ : Type} (h : Handler Resp τ)
    (s : τ) (units : U64) :
    ((self.costOfUnits units).exec h s).1
      = (self.pricePerUnit.exec h s).1.map fun pricePerUnit =>
          (BitVec.ofNat 256 (min (pricePerUnit.toNat * units.toNat) (2 ^ 256 - 1)), units) := by
  rw [costOfUnits, Prog.exec_bind]
  rcases self.pricePerUnit.exec h s with ⟨pricePerUnit | e | msg, s'⟩
  · simp [saturatingMul, Outcome.map]
  · rfl
  · rfl

section
variable {T : Type} [PosterTransaction T]

/-! ### The assumption on the transaction -/

/-- The transaction after some stores of units, each under a level. -/
def afterStores (start : T) (stores : List (U64 × U64)) : T :=
  stores.foldl (fun tx store => PosterTransaction.setCachedCalldataUnits tx store.1 store.2) start

/-- The cache of the transaction is empty. From then on it answers with the value that was
last stored for the level, and the bytes and the type stay the same. -/
structure CachesUnits (start : T) : Prop where
  cached : ∀ stores level, PosterTransaction.getCachedCalldataUnits (afterStores start stores) level
    = stores.reverse.lookup level
  encode : ∀ stores,
    PosterTransaction.encode (afterStores start stores) = PosterTransaction.encode start
  txType : ∀ stores,
    PosterTransaction.txType (afterStores start stores) = PosterTransaction.txType start

/-- The cache of the units, as a cache. -/
@[reducible] def unitsCache : Cache U64 U64 T where
  get tx level := (PosterTransaction.getCachedCalldataUnits tx level, tx)
  push tx level units := (none, PosterTransaction.setCachedCalldataUnits tx level units)

attribute [local instance] unitsCache

/-- What the calls store. -/
def storesOf (calls : List (Cache.Call U64 U64)) : List (U64 × U64) :=
  calls.filterMap fun
    | .get _ => none
    | .push level units => some (level, units)

/-- What calls do to the cache are its stores. -/
theorem after_eq (start : T) (calls : List (Cache.Call U64 U64)) :
    Cache.after start calls = afterStores start (storesOf calls) := by
  induction calls generalizing start with
  | nil => rfl
  | cons call calls ih =>
    cases call with
    | get level => exact ih start
    | push level units => exact ih (PosterTransaction.setCachedCalldataUnits start level units)

/-- A transaction that caches returns only what was stored in it. -/
theorem CachesUnits.onlyPushed {start : T} (h : CachesUnits start) : Cache.OnlyPushed start := by
  intro calls level units hget
  have hlookup : (storesOf calls).reverse.lookup level = some units := by
    rw [← h.cached, ← after_eq]
    exact hget
  obtain ⟨later, earlier, hstores, -⟩ := List.lookup_eq_some_iff.mp hlookup
  have hmem : (level, units) ∈ storesOf calls := by
    rw [← List.mem_reverse, hstores]
    simp
  obtain ⟨call, hcall, hpush⟩ := List.mem_filterMap.mp hmem
  cases call with
  | get _ => cases hpush
  | push _ _ =>
    cases hpush
    exact hcall

variable [Brotli]

/-- The units of a transaction that the batch poster posts. -/
def calldataUnits (tx : T) (level : U64) : U64 :=
  if txTypeHasPosterCosts (PosterTransaction.txType tx) then
    saturatingMul txDataNonZeroGasEip2028
      (byteCountAfterBrotliLevel (PosterTransaction.encode tx) level)
  else 0

/-- For the batch poster the units are those of the calldata. -/
theorem getPosterUnitsWithoutCache_batchPoster (self : L1PricingState) (tx : T) (level : U64) :
    self.getPosterUnitsWithoutCache tx batchPosterAddress level = calldataUnits tx level := by
  rw [L1PricingState.getPosterUnitsWithoutCache, if_neg (by simp), calldataUnits]
  exact ite_not _ _ _

/-- Every cached value is the units of the batch poster. -/
def UnitsSound (start tx : T) : Prop := Cache.Honest start (calldataUnits start) tx

variable {start tx : T}

/-- A sound transaction has the units of the start. -/
theorem UnitsSound.calldataUnits_eq (hcache : CachesUnits start) (h : UnitsSound start tx)
    (level : U64) : calldataUnits tx level = calldataUnits start level := by
  obtain ⟨calls, rfl, -⟩ := h
  rw [after_eq, calldataUnits, hcache.encode, hcache.txType, calldataUnits]

/-- A cached value of a sound transaction is the units of the start. -/
theorem UnitsSound.cached_eq (hcache : CachesUnits start) (h : UnitsSound start tx)
    {level units : U64} (hget : PosterTransaction.getCachedCalldataUnits tx level = some units) :
    units = calldataUnits start level :=
  Cache.Honest.lookup hcache.onlyPushed h hget

namespace L1PricingState
variable (self : L1PricingState)

/-- The cost without a cache, as a program. -/
def posterInfo (start : T) (poster : Address) (level : U64) : Exec DbError (U256 × U64) :=
  if poster = batchPosterAddress then self.costOfUnits (calldataUnits start level)
  else pure (0, 0)

/-- A call for another poster leaves the transaction alone. -/
theorem getPosterInfo_of_ne {poster : Address} (hne : poster ≠ batchPosterAddress) (tx : T)
    (level : U64) : self.getPosterInfo tx poster level = (pure (0, 0), tx) := by
  rw [getPosterInfo, if_pos hne]

/-- One call is the program without a cache, and it keeps the cached values. -/
theorem getPosterInfo_spec (hcache : CachesUnits start) (h : UnitsSound start tx)
    (poster : Address) (level : U64) :
    (self.getPosterInfo tx poster level).1 = self.posterInfo start poster level
      ∧ UnitsSound start (self.getPosterInfo tx poster level).2 := by
  by_cases hposter : poster = batchPosterAddress
  · subst hposter
    rw [posterInfo, if_pos rfl, getPosterInfo, if_neg (by simp)]
    cases hget : PosterTransaction.getCachedCalldataUnits tx level with
    | some cached =>
      -- a hit: the value was stored by an earlier call for the batch poster
      have hunits := h.cached_eq hcache hget
      subst hunits
      exact ⟨rfl, h⟩
    | none =>
      -- the units that are stored are those of the batch poster
      simp only [getPosterUnitsWithoutCache_batchPoster, h.calldataUnits_eq hcache]
      exact ⟨trivial, Cache.Honest.push h level⟩
  · rw [posterInfo, if_neg hposter, self.getPosterInfo_of_ne hposter]
    exact ⟨rfl, h⟩

end L1PricingState

/-! ### Calls -/

section
variable [Keccak] [AlloyRlp]

/-- A call of one of the two functions, and the state in which it is made. The transaction of
the message is the one that all the calls are about. -/
structure PosterCall (τ T : Type) where
  pricing : L1PricingState
  state : τ
  message : Option (Message T)
  poster : Address
  brotliCompressionLevel : U64

namespace PosterCall
variable {τ : Type} (h : Handler Resp τ)

/-- The call as a program, and the transaction after it. -/
def program (call : PosterCall τ T) (tx : T) : Exec DbError (U256 × U64) × T :=
  match call.message with
  | none => call.pricing.getPosterInfo tx call.poster call.brotliCompressionLevel
  | some message =>
      let (cost, message) := call.pricing.posterDataCost { message with tx := some tx }
        call.poster call.brotliCompressionLevel
      (cost, message.tx.getD tx)

/-- What the call returns, and the transaction after it. -/
def run (call : PosterCall τ T) (tx : T) : Outcome DbError (U256 × U64) × T :=
  (((call.program tx).1.exec h call.state).1, (call.program tx).2)

/-- What the calls return, and the transaction after them. -/
def runAll : List (PosterCall τ T) → T → List (Outcome DbError (U256 × U64)) × T
  | [], tx => ([], tx)
  | call :: calls, tx =>
      let (result, tx) := call.run h tx
      let (results, tx) := runAll calls tx
      (result :: results, tx)

/-- What the call returns without a cache: nothing for another poster, and otherwise the
price of the moment times the units, as far as a word goes. -/
def withoutCache (start : T) (call : PosterCall τ T) : Outcome DbError (U256 × U64) :=
  if call.poster = batchPosterAddress then
    let units := call.pricing.getPosterUnitsWithoutCache start batchPosterAddress
      call.brotliCompressionLevel
    (call.pricing.pricePerUnit.exec h call.state).1.map fun pricePerUnit =>
      (BitVec.ofNat 256 (min (pricePerUnit.toNat * units.toNat) (2 ^ 256 - 1)), units)
  else .ok (0, 0)

/-- Both functions come down to `getPosterInfo` on the transaction. -/
theorem program_eq (call : PosterCall τ T) (tx : T) :
    call.program tx = call.pricing.getPosterInfo tx call.poster call.brotliCompressionLevel := by
  unfold program
  cases call.message with
  | none => rfl
  | some message => rfl

/-- One call returns what it returns without a cache, and it keeps the cached values. -/
theorem run_spec (hcache : CachesUnits start) (hsound : UnitsSound start tx)
    (call : PosterCall τ T) :
    (call.run h tx).1 = call.withoutCache h start ∧ UnitsSound start (call.run h tx).2 := by
  obtain ⟨hprogram, hnext⟩ := call.pricing.getPosterInfo_spec hcache hsound call.poster
    call.brotliCompressionLevel
  rw [run, program_eq, hprogram]
  refine ⟨?_, hnext⟩
  -- the price is read from the state of this call
  by_cases hposter : call.poster = batchPosterAddress
  · rw [L1PricingState.posterInfo, if_pos hposter, L1PricingState.exec_costOfUnits, withoutCache,
      if_pos hposter]
    simp only [getPosterUnitsWithoutCache_batchPoster]
  · rw [L1PricingState.posterInfo, if_neg hposter, withoutCache, if_neg hposter]
    rfl

/-- The calls return what they return without a cache, and they keep the cached values. -/
theorem runAll_spec (hcache : CachesUnits start) (calls : List (PosterCall τ T)) {tx : T}
    (hsound : UnitsSound start tx) :
    (runAll h calls tx).1 = calls.map (withoutCache h start)
      ∧ UnitsSound start (runAll h calls tx).2 := by
  -- the invariant is that the transaction after each call is sound
  induction calls generalizing tx with
  | nil => exact ⟨rfl, hsound⟩
  | cons call calls ih =>
    obtain ⟨hresult, hnext⟩ := run_spec h hcache hsound call
    obtain ⟨hresults, hlast⟩ := ih hnext
    refine ⟨?_, hlast⟩
    simp only [runAll, List.map_cons, hresult, hresults]

end PosterCall

/-- Take a transaction whose cache answers with what was last stored, and any calls of
`getPosterInfo` and `posterDataCost` on it, for any posters and levels. The state, and the
price in it, may change in any way from call to call. Every call returns what it returns
without a cache. After the calls, every cached value is the units of the batch poster, and
a call for another poster has stored nothing. -/
theorem units_cache_transparent {τ : Type} (h : Handler Resp τ) (hcache : CachesUnits start)
    (calls : List (PosterCall τ T)) :
    (PosterCall.runAll h calls start).1 = calls.map (PosterCall.withoutCache h start)
      ∧ (∀ (self : L1PricingState) level units,
          PosterTransaction.getCachedCalldataUnits (PosterCall.runAll h calls start).2 level
            = some units →
          units = self.getPosterUnitsWithoutCache start batchPosterAddress level)
      ∧ ∀ (call : PosterCall τ T) (tx : T), call.poster ≠ batchPosterAddress →
          call.run h tx = (.ok (0, 0), tx) := by
  obtain ⟨hresults, hsound⟩ := PosterCall.runAll_spec h hcache calls Cache.Honest.initial
  refine ⟨hresults, ?_, ?_⟩
  · intro self level units hget
    rw [getPosterUnitsWithoutCache_batchPoster]
    exact hsound.cached_eq hcache hget
  · intro call tx hne
    rw [PosterCall.run, PosterCall.program_eq, L1PricingState.getPosterInfo_of_ne _ hne]
    rfl

end

end

/-! ### A transaction with a list of stores -/

/-- A transaction that keeps every store, the latest first. -/
structure LoggedTx where
  bytes : Bytes
  stores : List (U64 × U64)

instance : PosterTransaction LoggedTx where
  encode tx := tx.bytes
  txType _ := 2
  getCachedCalldataUnits tx level := tx.stores.lookup level
  setCachedCalldataUnits tx level units := { tx with stores := (level, units) :: tx.stores }

/-- The log of a transaction has the last store in front. -/
theorem afterStores_loggedTx (tx : LoggedTx) (stores : List (U64 × U64)) :
    afterStores tx stores = { tx with stores := stores.reverse ++ tx.stores } := by
  induction stores generalizing tx with
  | nil => rfl
  | cons store stores ih =>
    rw [show afterStores tx (store :: stores)
      = afterStores { tx with stores := store :: tx.stores } stores from rfl, ih]
    simp

/-- A transaction with a log caches its units. -/
theorem cachesUnits_loggedTx (bytes : Bytes) : CachesUnits (LoggedTx.mk bytes []) where
  cached stores level := by
    rw [afterStores_loggedTx, List.append_nil]
    rfl
  encode stores := by
    rw [afterStores_loggedTx]
    rfl
  txType _ := rfl

/-- A stream with one stored block. The few bytes of the sample are compressed to it. -/
@[reducible] def storedBrotli : Brotli where
  compress _ _ _ input :=
    (beBytes 3 (0x80000b + 0x80 * (input.length - 1))).reverse ++ input ++ [0x03]

attribute [local instance] sampleHash specRlp storedBrotli

/-- A message with no fields of its own. -/
def bareMessage : Message LoggedTx where
  nonce := 0
  gasTipCap := 0
  gasFeeCap := 0
  gasLimit := 0
  isGasEstimation := false
  «to» := none
  value := 0
  data := []
  accessList := []
  tx := none

/-- A call with this price in every slot. -/
def sampleCall (price : U256) (message : Option (Message LoggedTx)) (poster : Address)
    (level : U64) : PosterCall World LoggedTx where
  pricing := openL1PricingState sampleRoot 50
  state := { World.blank with store := fun _ _ => price }
  message := message
  poster := poster
  brotliCompressionLevel := level

/-- A call for another poster comes first. The later calls see a new price, and the last one
a price whose cost does not fit. -/
theorem units_cache_transparent_sample :
    (PosterCall.runAll World.handle
        [sampleCall 7 none 0xBB 1, sampleCall 7 (some bareMessage) batchPosterAddress 1,
          sampleCall 9 none batchPosterAddress 1,
          sampleCall (BitVec.allOnes 256) (some bareMessage) batchPosterAddress 11]
        ⟨[0x02, 0xc0], []⟩).1
      = [.ok (0, 0), .ok (672, 96), .ok (864, 96), .ok (BitVec.allOnes 256, 96)] :=
  (units_cache_transparent World.handle (cachesUnits_loggedTx [0x02, 0xc0]) _).1.trans
    (by decide +kernel)

end ArbReth
