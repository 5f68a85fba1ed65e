import ArbReth.L1Pricing.Ledger
import ArbReth.Proofs.AddressSet

/-!
# `ArbReth.Proofs.L1Pricing.Represents`: the storage of the L1 pricer is a ledger

`L1Key` names every slot of the L1 pricer: the scalars, the total of the table, the
slots of the set of posters, and the two slots of each poster. `L1Pricing.layout`
gives the slots. All theorems about the pricer assume that the slots that are used are
slots of no other key (`Layout.Apart`). The accounts that are used as posters are a set `A`,
which each theorem takes from its own arguments. Nothing is assumed of the records of two
accounts outside `A`, which the hash may well put into one slot.

`Encodes L k v` says that the word `v` stands for what the ledger `L` holds at the
key `k`. An address cell is read through its low 20 bytes, so many words stand for
one address. `L1Pricing.Represents` asks this of every key, and the balances to be
those of the ledger.

The getters and setters are proved here. A getter returns the field of the ledger. A
setter ends in the ledger with the field updated.
-/

set_option autoImplicit false

namespace ArbReth

open ArbReth.Program

/-- The scalars of the L1 pricer, as names of slots. -/
inductive L1Scalar where
  | payRewardsTo
  | equilibrationUnits
  | inertia
  | perUnitReward
  | lastUpdateTime
  | fundsDueForRewards
  | unitsSinceUpdate
  | pricePerUnit
  | lastSurplus
  | perBatchGasCost
  | amortizedCostCapBips
  | l1FeesAvailable
  | gasFloorPerToken
deriving DecidableEq

/-- The offset of the slot of a scalar. -/
def L1Scalar.offset : L1Scalar → U64
  | .payRewardsTo => payRewardsToOffset
  | .equilibrationUnits => equilibrationUnitsOffset
  | .inertia => inertiaOffset
  | .perUnitReward => perUnitRewardOffset
  | .lastUpdateTime => lastUpdateTimeOffset
  | .fundsDueForRewards => fundsDueForRewardsOffset
  | .unitsSinceUpdate => unitsSinceOffset
  | .pricePerUnit => pricePerUnitOffset
  | .lastSurplus => lastSurplusOffset
  | .perBatchGasCost => perBatchGasCostOffset
  | .amortizedCostCapBips => amortizedCostCapBipsOffset
  | .l1FeesAvailable => l1FeesAvailableOffset
  | .gasFloorPerToken => gasFloorPerTokenOffset

/-- The slots of the L1 pricer. -/
inductive L1Key where
  | scalar (s : L1Scalar)
  | totalFundsDue
  | posters (k : SetKey)
  | fundsDue (p : Address)
  | payTo (p : Address)
deriving DecidableEq

/-- All slots but the ones of the accounts outside `A`. -/
def L1Key.Among (A : Set Address) : L1Key → Prop
  | .scalar _ => True
  | .totalFundsDue => True
  | .posters k => k.Among A
  | .fundsDue p => p ∈ A
  | .payTo p => p ∈ A

namespace L1Pricing

/-- The word stands for the scalar. -/
def EncodesScalar (S : L1Scalars) : L1Scalar → StorageValue → Prop
  | .payRewardsTo, v => Address.ofWord v = S.payRewardsTo
  | .equilibrationUnits, v => v = S.equilibrationUnits
  | .inertia, v => v = U256.ofU64 S.inertia
  | .perUnitReward, v => v = U256.ofU64 S.perUnitReward
  | .lastUpdateTime, v => v = U256.ofU64 S.lastUpdateTime
  | .fundsDueForRewards, v => v = S.fundsDueForRewards.intoRaw
  | .unitsSinceUpdate, v => v = U256.ofU64 S.unitsSinceUpdate
  | .pricePerUnit, v => v = S.pricePerUnit
  | .lastSurplus, v => v = S.lastSurplus.intoRaw
  | .perBatchGasCost, v => v = U256.ofU64 S.perBatchGasCost
  | .amortizedCostCapBips, v => v = U256.ofU64 S.amortizedCostCapBips
  | .l1FeesAvailable, v => v = S.l1FeesAvailable
  | .gasFloorPerToken, v => v = U256.ofU64 S.gasFloorPerToken

/-- The word stands for what the table holds at the key. -/
def EncodesTable (T : PosterTable) : L1Key → StorageValue → Prop
  | .scalar _, _ => True
  | .totalFundsDue, v => v = T.totalFundsDue.intoRaw
  | .posters (.list i), v => v = if i = 0 then U256.ofU64 T.count else T.member i
  | .posters (.index a), v => v = T.index a
  | .fundsDue p, v => v = (T.fundsDue p).intoRaw
  | .payTo p, v => Address.ofWord v = T.payTo p

variable [Keccak]

/-- The table of the batch posters in the space `sto` of the pricer. -/
def tableSpace (sto : Storage) : Storage := sto.openCachedSubStorage batchPosterTableKey

/-- The space of the set of posters. -/
def posterSpace (sto : Storage) : Storage := (tableSpace sto).openCachedSubStorage posterAddrsKey

/-- The space of one poster. -/
def recordSpace (sto : Storage) (p : Address) : Storage :=
  ((tableSpace sto).openSubStorage posterInfoKey).openSubStorage p.asSlice

/-- The slots of the L1 pricer in the space `sto`. -/
def layout (sto : Storage) : Layout L1Key where
  account := sto.account
  slot
    | .scalar s => sto.mapAddress s.offset
    | .totalFundsDue => (tableSpace sto).mapAddress totalFundsDueOffset
    | .posters k => (AddressSet.layout (posterSpace sto)).slot k
    | .fundsDue p => (recordSpace sto p).mapAddress 0
    | .payTo p => (recordSpace sto p).mapAddress 1

/-- The world represents the ledger, whose posters are accounts of `A`. -/
structure Represents (sto : Storage) (A : Set Address) (w : World) (L : L1Ledger) : Prop where
  writable : w.readOnly = false
  among : ∀ p, L.IsPoster p → p ∈ A
  balance : w.balance = L.balance
  scalar : ∀ s, EncodesScalar L.toL1Scalars s ((layout sto).read w (.scalar s))
  table : ∀ k, EncodesTable L.toPosterTable k ((layout sto).read w k)

section
variable {sto : Storage} {A : Set Address} {w : World} {L : L1Ledger} (hR : Represents sto A w L)
include hR

/-- The size of the set of posters, as the layout of the set reads it. -/
theorem Represents.read_size :
    (AddressSet.layout (posterSpace sto)).read w (.list 0) = U256.ofU64 L.count :=
  hR.table (.posters (.list 0))

/-- The list of the set, behind its size. -/
theorem Represents.read_member {i : U64} (hi : i ≠ 0) :
    (AddressSet.layout (posterSpace sto)).read w (.list i) = L.member i := by
  have hword : (layout sto).read w (.posters (.list i))
      = if i = 0 then U256.ofU64 L.count else L.member i := hR.table (.posters (.list i))
  rw [if_neg hi] at hword
  exact hword

/-- The mapping of the set. -/
theorem Represents.read_index (p : Address) :
    (AddressSet.layout (posterSpace sto)).read w (.index p) = L.index p :=
  hR.table (.posters (.index p))

end

/-! ### Reading -/

/-- A program that reads realizes its result in every ledger. -/
theorem realizes_of_run {ε α : Type} {sto : Storage} {A : Set Address} {L : L1Ledger} {p : Exec ε α}
    {r : Outcome ε α} (h : ∀ w, Represents sto A w L → World.run p w = (r, w)) :
    Realizes World.handle (Represents sto A) p L r L :=
  fun w hR => ⟨w, h w hR, hR⟩

/-- The posters of a ledger that a store represents are accounts of `A`. -/
theorem realizes_of_among {ε α : Type} {sto : Storage} {A : Set Address} {L L' : L1Ledger}
    {p : Exec ε α} {r : Outcome ε α} (h : (∀ q, L.IsPoster q → q ∈ A) →
      Realizes World.handle (Represents sto A) p L r L') :
    Realizes World.handle (Represents sto A) p L r L' :=
  fun w hR => h hR.among w hR

section
variable {sto : Storage} {A : Set Address} (version : U64) (L : L1Ledger)

/-- The recipient of the rewards is read from the low 20 bytes of its word. -/
theorem payRewardsTo_realizes :
    Realizes World.handle (Represents sto A) (openL1PricingState sto version).payRewardsTo L
      (.ok L.payRewardsTo) L :=
  realizes_of_run fun _ hR => StorageBackedAddress.run_get _ (hR.scalar .payRewardsTo)

/-- The equilibration units are read as a whole word. -/
theorem equilibrationUnits_realizes :
    Realizes World.handle (Represents sto A) (openL1PricingState sto version).equilibrationUnits L
      (.ok L.equilibrationUnits) L :=
  realizes_of_run fun _ hR => StorageBackedBigUint.run_get _ (hR.scalar .equilibrationUnits)

/-- The inertia is read as a `u64`, which its word never exceeds. -/
theorem inertia_realizes :
    Realizes World.handle (Represents sto A) (openL1PricingState sto version).inertia L
      (.ok L.inertia) L :=
  realizes_of_run fun _ hR => StorageBackedUint64.run_get _ (hR.scalar .inertia)

/-- The reward for a unit is read as a `u64`, which its word never exceeds. -/
theorem perUnitReward_realizes :
    Realizes World.handle (Represents sto A) (openL1PricingState sto version).perUnitReward L
      (.ok L.perUnitReward) L :=
  realizes_of_run fun _ hR => StorageBackedUint64.run_get _ (hR.scalar .perUnitReward)

/-- The time of the last update is read as a `u64`, which its word never exceeds. -/
theorem lastUpdateTime_realizes :
    Realizes World.handle (Represents sto A) (openL1PricingState sto version).lastUpdateTime L
      (.ok L.lastUpdateTime) L :=
  realizes_of_run fun _ hR => StorageBackedUint64.run_get _ (hR.scalar .lastUpdateTime)

/-- The funds due for rewards are read as a signed word. -/
theorem fundsDueForRewards_realizes :
    Realizes World.handle (Represents sto A) (openL1PricingState sto version).fundsDueForRewards L
      (.ok L.fundsDueForRewards) L :=
  realizes_of_run fun _ hR => StorageBackedBigInt.run_get _ (hR.scalar .fundsDueForRewards)

/-- The units since the last update are read as a `u64`, which their word never exceeds. -/
theorem unitsSinceUpdate_realizes :
    Realizes World.handle (Represents sto A) (openL1PricingState sto version).unitsSinceUpdate L
      (.ok L.unitsSinceUpdate) L :=
  realizes_of_run fun _ hR => StorageBackedUint64.run_get _ (hR.scalar .unitsSinceUpdate)

/-- The price of a unit is read as a whole word. -/
theorem pricePerUnit_realizes :
    Realizes World.handle (Represents sto A) (openL1PricingState sto version).pricePerUnit L
      (.ok L.pricePerUnit) L :=
  realizes_of_run fun _ hR => StorageBackedBigUint.run_get _ (hR.scalar .pricePerUnit)

/-- The last surplus is read as a signed word, in whatever format it was written. -/
theorem lastSurplus_realizes :
    Realizes World.handle (Represents sto A) (openL1PricingState sto version).lastSurplus L
      (.ok L.lastSurplus) L :=
  realizes_of_run fun _ hR => StorageBackedBigInt.run_get _ (hR.scalar .lastSurplus)

/-- The cap of the amortized cost is read as a `u64`, which its word never exceeds. -/
theorem amortizedCostCapBips_realizes :
    Realizes World.handle (Represents sto A) (openL1PricingState sto version).amortizedCostCapBips L
      (.ok L.amortizedCostCapBips) L :=
  realizes_of_run fun _ hR => StorageBackedUint64.run_get _ (hR.scalar .amortizedCostCapBips)

/-- The counter of the fees is read as a whole word. -/
theorem l1FeesAvailable_realizes :
    Realizes World.handle (Represents sto A) (openL1PricingState sto version).l1FeesAvailable L
      (.ok L.l1FeesAvailable) L :=
  realizes_of_run fun _ hR => StorageBackedBigUint.run_get _ (hR.scalar .l1FeesAvailable)

/-- The total of the table is read as a signed word. -/
theorem totalFundsDue_realizes :
    Realizes World.handle (Represents sto A)
      (openL1PricingState sto version).batchPosterTable.totalFundsDue L (.ok L.totalFundsDue) L :=
  realizes_of_run fun _ hR => StorageBackedBigInt.run_get _ (hR.table .totalFundsDue)

/-- The balance of the pool account comes from the context and not from the store. -/
theorem poolBalance_realizes :
    Realizes World.handle (Represents sto A) L1PricingState.poolBalance L
      (.ok (L.balance l1PricerFundsPoolAddress)) L :=
  realizes_of_run fun w hR => by
    rw [← hR.balance]
    rfl

/-- The record of a poster in the table of the pricer. -/
def record (sto : Storage) (p : Address) : BatchPosterState :=
  (BatchPostersTable.open (tableSpace sto)).internalOpen p

/-- The amount due to an account is read from its record, also for one that is no poster. -/
theorem fundsDue_realizes (p : Address) :
    Realizes World.handle (Represents sto A) (record sto p).fundsDue L (.ok (L.fundsDue p)) L :=
  realizes_of_run fun _ hR => StorageBackedBigInt.run_get _ (hR.table (.fundsDue p))

/-- The pay-to address of an account is read from its record, also for one that is no poster. -/
theorem payTo_realizes (p : Address) :
    Realizes World.handle (Represents sto A) (record sto p).payTo L (.ok (L.payTo p)) L :=
  realizes_of_run fun _ hR => StorageBackedAddress.run_get _ (hR.table (.payTo p))

omit version L in
/-- An account is a poster when its mapping holds a place, whatever `A` is. -/
theorem run_isMember {w : World} {L : L1Ledger} (hR : Represents sto A w L) (p : Address) :
    World.run ((BatchPostersTable.open (tableSpace sto)).posterAddrs.isMember p) w
      = (.ok (decide (L.IsPoster p)), w) := by
  have hrun : World.run ((BatchPostersTable.open (tableSpace sto)).posterAddrs.isMember p) w
      = (.ok ((AddressSet.layout (posterSpace sto)).read w (.index p) != 0), w) := rfl
  rw [hrun, hR.read_index, Bool.eq_iff_iff.mpr (bne_iff_ne.trans decide_eq_true_iff.symm)]
  rfl

variable (sto A) in
/-- The test for a poster leaves the ledger as it is. -/
theorem isMember_realizes (p : Address) :
    Realizes World.handle (Represents sto A)
      ((BatchPostersTable.open (tableSpace sto)).posterAddrs.isMember p) L
      (.ok (decide (L.IsPoster p))) L :=
  realizes_of_run fun _ hR => run_isMember hR p

end

/-! ### Writing -/

/-- The store does not hold the balances. -/
theorem Represents.withBalance {sto : Storage} {A : Set Address} {w : World} {L : L1Ledger}
    (hR : Represents sto A w L) (balance : Address → U256) :
    Represents sto A { w with balance := balance } { L with balance := balance } where
  writable := hR.writable
  among := hR.among
  balance := rfl
  scalar := hR.scalar
  table := hR.table

section
variable {sto : Storage} {A : Set Address} (hslots : (layout sto).Apart (L1Key.Among A))
include hslots

/-- A write to a scalar. `S` differs from the scalars of the ledger in that one. -/
theorem Represents.writeScalar {w : World} {L : L1Ledger} (hR : Represents sto A w L)
    (s : L1Scalar) (v : StorageValue) (S : L1Scalars) (hs : EncodesScalar S s v)
    (hother : ∀ s' x, s' ≠ s → EncodesScalar L.toL1Scalars s' x → EncodesScalar S s' x) :
    Represents sto A ((layout sto).write w (.scalar s) v) { L with toL1Scalars := S } := by
  refine ⟨hR.writable, hR.among, hR.balance, ?_, ?_⟩
  · intro s'
    rw [(hslots (.scalar s) trivial).read_write]
    split
    · rename_i heq
      cases heq
      exact hs
    · rename_i hne
      exact hother s' _ (fun h => hne (h ▸ rfl)) (hR.scalar s')
  · intro k
    rw [(hslots (.scalar s) trivial).read_write]
    split
    · rename_i heq
      subst heq
      exact trivial
    · exact hR.table k

/-- A write to the table. `T` differs from the table of the ledger at that key, and a new
poster in it is an account of `A`. -/
theorem Represents.writeTable {w : World} {L : L1Ledger} (hR : Represents sto A w L) (k : L1Key)
    (hkey : k.Among A) (v : StorageValue) (T : PosterTable) (hk : EncodesTable T k v)
    (hindex : ∀ p, T.index p ≠ 0 → L.IsPoster p ∨ p ∈ A)
    (hscalar : ∀ s, k ≠ .scalar s)
    (hother : ∀ k' x, k' ≠ k → EncodesTable L.toPosterTable k' x → EncodesTable T k' x) :
    Represents sto A ((layout sto).write w k v) { L with toPosterTable := T } := by
  refine ⟨hR.writable, fun p hp => (hindex p hp).elim (hR.among p) id, hR.balance, ?_, ?_⟩
  · intro s
    rw [(hslots k hkey).read_write, if_neg (hscalar s).symm]
    exact hR.scalar s
  · intro k'
    rw [(hslots k hkey).read_write]
    split
    · rename_i heq
      rw [heq]
      exact hk
    · rename_i hne
      exact hother k' _ hne (hR.table k')

/-- A setter of a scalar. -/
theorem set_realizes (L : L1Ledger) (s : L1Scalar) (v : StorageValue) (S : L1Scalars)
    (hs : EncodesScalar S s v)
    (hother : ∀ s' x, s' ≠ s → EncodesScalar L.toL1Scalars s' x → EncodesScalar S s' x) :
    Realizes World.handle (Represents sto A) ((sto.newSlot s.offset).set v) L (.ok ())
      { L with toL1Scalars := S } := fun _ hR =>
  ⟨_, StorageSlot.run_set _ hR.writable v, hR.writeScalar hslots s v S hs hother⟩

end

section
variable {sto : Storage} {A : Set Address} (hslots : (layout sto).Apart (L1Key.Among A))
  (version : U64) (L : L1Ledger)
include hslots

/-- Writing the recipient of the rewards changes that field only. -/
theorem setPayRewardsTo_realizes (a : Address) :
    Realizes World.handle (Represents sto A) ((openL1PricingState sto version).setPayRewardsTo a) L
      (.ok ()) { L with payRewardsTo := a } :=
  set_realizes hslots L .payRewardsTo _ { L.toL1Scalars with payRewardsTo := a }
    (Address.ofWord_intoWord a) fun s' x hne hx => by
      cases s' <;> first | exact hx | exact absurd rfl hne

/-- Writing the equilibration units changes that field only. -/
theorem setEquilibrationUnits_realizes (v : U256) :
    Realizes World.handle (Represents sto A)
      ((openL1PricingState sto version).setEquilibrationUnits v) L
      (.ok ()) { L with equilibrationUnits := v } :=
  set_realizes hslots L .equilibrationUnits _ { L.toL1Scalars with equilibrationUnits := v } rfl
    fun s' x hne hx => by cases s' <;> first | exact hx | exact absurd rfl hne

/-- Writing the inertia changes that field only. -/
theorem setInertia_realizes (v : U64) :
    Realizes World.handle (Represents sto A) ((openL1PricingState sto version).setInertia v) L
      (.ok ()) { L with inertia := v } :=
  set_realizes hslots L .inertia _ { L.toL1Scalars with inertia := v } rfl
    fun s' x hne hx => by cases s' <;> first | exact hx | exact absurd rfl hne

/-- Writing the reward for a unit changes that field only. -/
theorem setPerUnitReward_realizes (v : U64) :
    Realizes World.handle (Represents sto A) ((openL1PricingState sto version).setPerUnitReward v) L
      (.ok ()) { L with perUnitReward := v } :=
  set_realizes hslots L .perUnitReward _ { L.toL1Scalars with perUnitReward := v } rfl
    fun s' x hne hx => by cases s' <;> first | exact hx | exact absurd rfl hne

/-- Writing the time of the last update changes that field only. -/
theorem setLastUpdateTime_realizes (v : U64) :
    Realizes World.handle (Represents sto A) ((openL1PricingState sto version).setLastUpdateTime v)
      L (.ok ()) { L with lastUpdateTime := v } :=
  set_realizes hslots L .lastUpdateTime _ { L.toL1Scalars with lastUpdateTime := v } rfl
    fun s' x hne hx => by cases s' <;> first | exact hx | exact absurd rfl hne

/-- Writing the funds due for rewards changes that field only. -/
theorem setFundsDueForRewards_realizes (v : I256) :
    Realizes World.handle (Represents sto A)
      ((openL1PricingState sto version).setFundsDueForRewards v) L
      (.ok ()) { L with fundsDueForRewards := v } :=
  set_realizes hslots L .fundsDueForRewards _ { L.toL1Scalars with fundsDueForRewards := v } rfl
    fun s' x hne hx => by cases s' <;> first | exact hx | exact absurd rfl hne

/-- Writing the units since the last update changes that field only. -/
theorem setUnitsSinceUpdate_realizes (v : U64) :
    Realizes World.handle (Represents sto A)
      ((openL1PricingState sto version).setUnitsSinceUpdate v) L
      (.ok ()) { L with unitsSinceUpdate := v } :=
  set_realizes hslots L .unitsSinceUpdate _ { L.toL1Scalars with unitsSinceUpdate := v } rfl
    fun s' x hne hx => by cases s' <;> first | exact hx | exact absurd rfl hne

/-- Writing the price of a unit changes that field only. -/
theorem setPricePerUnit_realizes (v : U256) :
    Realizes World.handle (Represents sto A) ((openL1PricingState sto version).setPricePerUnit v) L
      (.ok ()) { L with pricePerUnit := v } :=
  set_realizes hslots L .pricePerUnit _ { L.toL1Scalars with pricePerUnit := v } rfl
    fun s' x hne hx => by cases s' <;> first | exact hx | exact absurd rfl hne

/-- Writing the last surplus changes that field only. Before version 7 the word is the magnitude,
so the field is what that word reads as. -/
theorem setLastSurplus_realizes (v : I256) (arbosVersion : U64) :
    Realizes World.handle (Represents sto A)
      ((openL1PricingState sto version).setLastSurplus v arbosVersion) L
      (.ok ()) { L with lastSurplus := L1Ledger.storedSurplus arbosVersion v } := by
  unfold L1PricingState.setLastSurplus L1Ledger.storedSurplus
  split
  · exact set_realizes hslots L .lastSurplus _
      { L.toL1Scalars with lastSurplus := I256.fromRaw v.unsignedAbs }
      (I256.intoRaw_fromRaw _).symm
      fun s' x hne hx => by cases s' <;> first | exact hx | exact absurd rfl hne
  · exact set_realizes hslots L .lastSurplus _ { L.toL1Scalars with lastSurplus := v } rfl
      fun s' x hne hx => by cases s' <;> first | exact hx | exact absurd rfl hne

/-- Writing the gas cost of a batch changes that field only. -/
theorem setPerBatchGasCost_realizes (v : I64) :
    Realizes World.handle (Represents sto A) ((openL1PricingState sto version).setPerBatchGasCost v)
      L (.ok ()) { L with perBatchGasCost := v } :=
  set_realizes hslots L .perBatchGasCost _ { L.toL1Scalars with perBatchGasCost := v } rfl
    fun s' x hne hx => by cases s' <;> first | exact hx | exact absurd rfl hne

/-- Writing the cap of the amortized cost changes that field only. -/
theorem setAmortizedCostCapBips_realizes (v : U64) :
    Realizes World.handle (Represents sto A)
      ((openL1PricingState sto version).setAmortizedCostCapBips v) L
      (.ok ()) { L with amortizedCostCapBips := v } :=
  set_realizes hslots L .amortizedCostCapBips _ { L.toL1Scalars with amortizedCostCapBips := v } rfl
    fun s' x hne hx => by cases s' <;> first | exact hx | exact absurd rfl hne

/-- Writing the counter of the fees changes that field only. -/
theorem setL1FeesAvailable_realizes (v : U256) :
    Realizes World.handle (Represents sto A)
      ((openL1PricingState sto version).setL1FeesAvailable v) L
      (.ok ()) { L with l1FeesAvailable := v } :=
  set_realizes hslots L .l1FeesAvailable _ { L.toL1Scalars with l1FeesAvailable := v } rfl
    fun s' x hne hx => by cases s' <;> first | exact hx | exact absurd rfl hne

/-- An addition to the units reads them and writes the saturating sum. -/
theorem addToUnitsSinceUpdate_realizes (units : U64) :
    Realizes World.handle (Represents sto A)
      ((openL1PricingState sto version).addToUnitsSinceUpdate units) L
      (.ok ()) { L with unitsSinceUpdate := saturatingAdd L.unitsSinceUpdate units } :=
  .bind (unitsSinceUpdate_realizes version L) (setUnitsSinceUpdate_realizes hslots version L _)

/-- An addition to the fees reads the counter, writes the saturating sum and returns it. -/
theorem addToL1FeesAvailable_realizes (delta : U256) :
    Realizes World.handle (Represents sto A)
      ((openL1PricingState sto version).addToL1FeesAvailable delta) L
      (.ok (saturatingAdd L.l1FeesAvailable delta))
      { L with l1FeesAvailable := saturatingAdd L.l1FeesAvailable delta } :=
  .bind (l1FeesAvailable_realizes version L)
    (.bind (setL1FeesAvailable_realizes hslots version L _) (.pure _))

end

end L1Pricing

end ArbReth
