import ArbReth.Proofs.L1Pricing.Initial
import ArbReth.Proofs.L1Pricing.LegacyUpdate

/-!
# `ArbReth.Proofs.L1Pricing.Units`: the calldata units are conserved

An accepted update takes its share of the units since the last update (`share`), in every
version. A rejected update takes none. `update_unitsSinceUpdate` says that the update
lowers the units by `taken`, however it ends: also a payment that is refused comes after
the allocation.

`units_conserved` is about every run of additions and updates: what was added is what is
left and what was taken.
-/

set_option autoImplicit false

namespace ArbReth

open ArbReth.Program

namespace L1Ledger
variable {L : L1Ledger}

/-- The times of an update of the version are accepted. -/
def Accepts (L : L1Ledger) (arbosVersion updateTime currentTime : U64) : Prop :=
  if arbosVersion < arbosVersion2 then L.LegacyTimeOk updateTime currentTime
  else L.TimeOk updateTime currentTime

instance (L : L1Ledger) (arbosVersion updateTime currentTime : U64) :
    Decidable (L.Accepts arbosVersion updateTime currentTime) :=
  inferInstanceAs (Decidable (if arbosVersion < arbosVersion2
    then L.LegacyTimeOk updateTime currentTime else L.TimeOk updateTime currentTime))

/-- The units that an accepted update allocates. -/
def share (L : L1Ledger) (arbosVersion updateTime currentTime : U64) : U64 :=
  if arbosVersion < arbosVersion2 then L.legacyAllocated updateTime currentTime
  else L.allocated updateTime currentTime

/-- The units that an update allocates. It comes to the allocation when the poster can be
opened and the times are accepted. -/
def taken (L : L1Ledger) (arbosVersion updateTime currentTime : U64) (p : Address) : U64 :=
  if (L.IsPoster p ∨ L.count ≠ BitVec.allOnes 64) ∧ L.Accepts arbosVersion updateTime currentTime
  then L.share arbosVersion updateTime currentTime
  else 0

/-- An accepted update allocates no more units than there are. Its times make the fraction of them
at most 1. -/
theorem share_le_units {arbosVersion updateTime currentTime : U64}
    (h : L.Accepts arbosVersion updateTime currentTime) :
    L.share arbosVersion updateTime currentTime ≤ L.unitsSinceUpdate := by
  unfold Accepts at h
  unfold share
  split
  · rename_i hversion
    rw [if_pos hversion] at h
    exact legacyAllocated_le h
  · rename_i hversion
    rw [if_neg hversion] at h
    exact allocated_le h

section
variable {arbosVersion updateTime currentTime : U64} {p : Address}

/-- An update that cannot open its poster allocates nothing. -/
theorem taken_of_full (h : ¬L.IsPoster p ∧ L.count = BitVec.allOnes 64) :
    L.taken arbosVersion updateTime currentTime p = 0 :=
  if_neg fun h' => h'.1.elim h.1 fun hne => hne h.2

/-- An update whose times are rejected allocates nothing. -/
theorem taken_of_rejected (h : ¬L.Accepts arbosVersion updateTime currentTime) :
    L.taken arbosVersion updateTime currentTime p = 0 :=
  if_neg fun h' => h h'.2

/-- An update that comes to the allocation takes its share. -/
theorem taken_of_accepted (hfull : ¬(¬L.IsPoster p ∧ L.count = BitVec.allOnes 64))
    (h : L.Accepts arbosVersion updateTime currentTime) :
    L.taken arbosVersion updateTime currentTime p
      = L.share arbosVersion updateTime currentTime :=
  if_pos ⟨L1Pricing.room_of_not_full hfull, h⟩

end

/-- No update allocates more units than there are. -/
theorem taken_le (L : L1Ledger) (arbosVersion updateTime currentTime : U64) (p : Address) :
    L.taken arbosVersion updateTime currentTime p ≤ L.unitsSinceUpdate := by
  unfold taken
  split
  · rename_i h
    exact share_le_units h.2
  · rw [BitVec.le_def]
    exact Nat.zero_le _

/-! ### What the update does to the units -/

/-- The payments, the time and the price leave the units alone, also when a payment is refused. -/
theorem settle_unitsSinceUpdate (f : Funding) (arbosVersion updateTime units : U64)
    (p : Address) :
    (L.settle f arbosVersion updateTime units p).2.unitsSinceUpdate = L.unitsSinceUpdate := by
  cases hrewards : (L.debitRewards (L.rewardPayment f units)).refusal L.payRewardsTo
      (L.rewardPayment f units) with
  | some e =>
      rw [settle_of_rewards_refused hrewards]
      rfl
  | none =>
      cases hposter : (L.paidRewards f units).refusal (L.payTo p)
          ((L.paidRewards f units).posterPayment f p) with
      | some e =>
          rw [settle_of_poster_refused hrewards hposter]
          rfl
      | none =>
          rw [settle_of_accepted hrewards hposter]
          -- The payment changes balances and dues, and the end the time and the price.
          unfold finish adjustPrice settlePoster
          split <;> split <;> rfl

/-- The payments before version 2 leave the scalars as they are. -/
theorem settleAll_toL1Scalars [Keccak] (posters : List Address) (availableFunds : U256)
    (L : L1Ledger) :
    (settleAll posters availableFunds L).2.toL1Scalars = L.toL1Scalars := by
  induction posters generalizing availableFunds L with
  | nil => rfl
  | cons p posters ih =>
      -- The loop ends early at an unknown account and at a refused payment.
      unfold settleAll
      split
      · rfl
      · dsimp only
        split
        · exact ih availableFunds L
        · split
          · rfl
          · exact ih _ _

/-- The payments before version 2 leave the units alone, also when one is refused. -/
theorem legacyPayAll_unitsSinceUpdate [Keccak] (updateTime units : U64) (availableFunds : U256)
    (oldSurplus : I256) :
    (L.legacyPayAll updateTime units availableFunds oldSurplus).2.unitsSinceUpdate
      = L.unitsSinceUpdate := by
  cases hrewards : (L.debitRewards (L.legacyReward availableFunds units)).refusal L.payRewardsTo
      (L.legacyReward availableFunds units) with
  | some e =>
      rw [legacyPayAll_of_refused hrewards]
      rfl
  | none =>
      rw [legacyPayAll_keeps (fun L => L.unitsSinceUpdate) _ hrewards, settleAll_toL1Scalars]
      · rfl
      · intro L₂
        unfold legacyAdjustPrice
        split <;> rfl

/-- A new poster leaves the units alone. -/
theorem register_unitsSinceUpdate (L : L1Ledger) (p : Address) :
    (L.register p).unitsSinceUpdate = L.unitsSinceUpdate :=
  congrArg L1Scalars.unitsSinceUpdate (register_toL1Scalars L p)

/-- A new poster leaves the time of the last update alone, as versions before 2 read it. -/
theorem register_legacyLastTime (L : L1Ledger) (p : Address) (updateTime currentTime : U64) :
    (L.register p).legacyLastTime updateTime currentTime
      = L.legacyLastTime updateTime currentTime := by
  rw [legacyLastTime, legacyLastTime, congrArg L1Scalars.lastUpdateTime (register_toL1Scalars L p)]

/-- So it does not change what an update before version 2 allocates. -/
theorem register_legacyAllocated (L : L1Ledger) (p : Address) (updateTime currentTime : U64) :
    (L.register p).legacyAllocated updateTime currentTime
      = L.legacyAllocated updateTime currentTime := by
  rw [legacyAllocated, legacyAllocated, legacyNumerator, legacyNumerator, legacyDenominator,
    legacyDenominator, register_legacyLastTime, register_unitsSinceUpdate]

/-- A new poster does not change which times are accepted. -/
theorem register_timeOk_iff (L : L1Ledger) (p : Address) (updateTime currentTime : U64) :
    (L.register p).TimeOk updateTime currentTime ↔ L.TimeOk updateTime currentTime := by
  rw [TimeOk, TimeOk, register_lastTime]

/-- The same before version 2. -/
theorem register_legacyTimeOk_iff (L : L1Ledger) (p : Address) (updateTime currentTime : U64) :
    (L.register p).LegacyTimeOk updateTime currentTime
      ↔ L.LegacyTimeOk updateTime currentTime := by
  rw [LegacyTimeOk, LegacyTimeOk, register_legacyLastTime]

/-- The update before version 2 lowers the units by what it allocates, however it ends. -/
theorem legacySpend_unitsSinceUpdate [Keccak] {arbosVersion : U64}
    (hversion : arbosVersion < arbosVersion2) (updateTime currentTime : U64) (p : Address)
    (weiSpent : U256) :
    (L.legacySpend updateTime currentTime p weiSpent).2.unitsSinceUpdate
      = L.unitsSinceUpdate - L.taken arbosVersion updateTime currentTime p := by
  have haccepts : L.Accepts arbosVersion updateTime currentTime
      ↔ (L.register p).LegacyTimeOk updateTime currentTime := by
    rw [Accepts, if_pos hversion, register_legacyTimeOk_iff]
  unfold legacySpend
  by_cases hfull : ¬L.IsPoster p ∧ L.count = BitVec.allOnes 64
  · rw [if_pos hfull, taken_of_full hfull]
    exact (BitVec.sub_zero _).symm
  rw [if_neg hfull]
  dsimp only
  by_cases htime : (L.register p).LegacyTimeOk updateTime currentTime
  -- What follows the allocation keeps the units, so they fall by the allocated ones.
  · rw [if_neg (not_not.mpr htime), legacyPayAll_unitsSinceUpdate, register_legacyAllocated,
      taken_of_accepted hfull (haccepts.mpr htime), share, if_pos hversion]
    show (L.register p).unitsSinceUpdate - _ = _
    rw [register_unitsSinceUpdate]
  · rw [if_pos htime, taken_of_rejected (fun h => htime (haccepts.mp h)),
      register_unitsSinceUpdate]
    exact (BitVec.sub_zero _).symm

/-- The update from version 2 on lowers the units by what it allocates, however it ends. -/
theorem spend_unitsSinceUpdate (f : Funding) {arbosVersion : U64}
    (hversion : ¬arbosVersion < arbosVersion2) (updateTime currentTime : U64) (p : Address)
    (weiSpent l1Basefee : U256) :
    (L.spend f arbosVersion updateTime currentTime p weiSpent l1Basefee).2.unitsSinceUpdate
      = L.unitsSinceUpdate - L.taken arbosVersion updateTime currentTime p := by
  have haccepts : L.Accepts arbosVersion updateTime currentTime
      ↔ (L.register p).TimeOk updateTime currentTime := by
    rw [Accepts, if_neg hversion, register_timeOk_iff]
  unfold spend
  by_cases hfull : ¬L.IsPoster p ∧ L.count = BitVec.allOnes 64
  · rw [if_pos hfull, taken_of_full hfull]
    exact (BitVec.sub_zero _).symm
  rw [if_neg hfull]
  dsimp only
  by_cases htime : (L.register p).TimeOk updateTime currentTime
  -- The same for the allocation from version 2 on.
  · rw [if_neg (not_not.mpr htime), settle_unitsSinceUpdate, register_allocated,
      taken_of_accepted hfull (haccepts.mpr htime), share, if_neg hversion]
    show (L.register p).unitsSinceUpdate - _ = _
    rw [register_unitsSinceUpdate]
  · rw [if_pos htime, taken_of_rejected (fun h => htime (haccepts.mp h)),
      register_unitsSinceUpdate]
    exact (BitVec.sub_zero _).symm

/-- The update of every version lowers the units by what it allocates. -/
theorem update_unitsSinceUpdate [Keccak] (L : L1Ledger) (arbosVersion updateTime currentTime : U64)
    (p : Address) (weiSpent l1Basefee : U256) :
    (L.update arbosVersion updateTime currentTime p weiSpent l1Basefee).2.unitsSinceUpdate
      = L.unitsSinceUpdate - L.taken arbosVersion updateTime currentTime p := by
  unfold update
  by_cases hversion : arbosVersion < arbosVersion2
  · have hspend : (L.legacySpend updateTime currentTime p weiSpent).2.unitsSinceUpdate = _ :=
      legacySpend_unitsSinceUpdate hversion updateTime currentTime p weiSpent
    rw [if_pos hversion]
    rcases hcase : L.legacySpend updateTime currentTime p weiSpent with ⟨u | e | m, L'⟩ <;>
      rw [hcase] at hspend <;> exact hspend
  · rw [if_neg hversion]
    exact spend_unitsSinceUpdate _ hversion updateTime currentTime p weiSpent l1Basefee

/-! ### How the update can end -/

/-- The message of a subtraction that underflows. -/
def underflow : String := "attempt to subtract with overflow"

/-- The message of a refused payment is another one. -/
theorem refused_ne_underflow (f : Funding) (e : TransferError) :
    f.rewardsRefused ++ e.debug ≠ underflow ∧ f.posterRefused ++ e.debug ≠ underflow
      ∧ "pre_version2: rewards transfer failed: " ++ e.debug ≠ underflow
      ∧ "pre_version2: poster payment transfer failed: " ++ e.debug ≠ underflow := by
  cases f <;> cases e <;> decide

/-- The payments from version 2 on can only panic at a refused transfer. -/
theorem settle_ne_underflow (f : Funding) (arbosVersion updateTime units : U64) (p : Address) :
    (L.settle f arbosVersion updateTime units p).1 ≠ .panic underflow := by
  cases hrewards : (L.debitRewards (L.rewardPayment f units)).refusal L.payRewardsTo
      (L.rewardPayment f units) with
  | some e =>
      rw [settle_of_rewards_refused hrewards]
      exact fun h => (refused_ne_underflow f e).1 (Outcome.panic.inj h)
  | none =>
      cases hposter : (L.paidRewards f units).refusal (L.payTo p)
          ((L.paidRewards f units).posterPayment f p) with
      | some e =>
          rw [settle_of_poster_refused hrewards hposter]
          exact fun h => (refused_ne_underflow f e).2.1 (Outcome.panic.inj h)
      | none =>
          rw [settle_of_accepted hrewards hposter]
          exact fun h => nomatch h

/-- The loop over the posters before version 2 can only panic at an unknown account and at a
refused transfer. -/
theorem settleAll_ne_underflow [Keccak] (posters : List Address) (availableFunds : U256)
    (L : L1Ledger) : (settleAll posters availableFunds L).1 ≠ .panic underflow := by
  induction posters generalizing availableFunds L with
  | nil => exact fun h => nomatch h
  | cons p posters ih =>
      unfold settleAll
      split
      -- the message starts with another letter, whatever the address
      · intro h
        have htext := congrArg String.toList (Outcome.panic.inj h)
        simp [underflow] at htext
      · dsimp only
        split
        · exact ih availableFunds L
        · split
          · rename_i e _
            exact fun h => (refused_ne_underflow .pool e).2.2.2 (Outcome.panic.inj h)
          · exact ih _ _

/-- The payments before version 2 end in no underflow. -/
theorem legacyPayAll_ne_underflow [Keccak] (updateTime units : U64) (availableFunds : U256)
    (oldSurplus : I256) :
    (L.legacyPayAll updateTime units availableFunds oldSurplus).1 ≠ .panic underflow := by
  cases hrewards : (L.debitRewards (L.legacyReward availableFunds units)).refusal L.payRewardsTo
      (L.legacyReward availableFunds units) with
  | some e =>
      rw [legacyPayAll_of_refused hrewards]
      exact fun h => (refused_ne_underflow .pool e).2.2.1 (Outcome.panic.inj h)
  | none =>
      have hloop := settleAll_ne_underflow L.posterList
        (availableFunds - L.legacyReward availableFunds units)
        (L.legacyPaidRewards availableFunds units)
      rw [legacyPayAll_of_accepted hrewards]
      rcases hall : settleAll L.posterList (availableFunds - L.legacyReward availableFunds units)
        (L.legacyPaidRewards availableFunds units) with ⟨u | e | m, L₂⟩ <;> rw [hall] at hloop
      · exact fun h => nomatch h
      · exact fun h => nomatch h
      · exact hloop

/-- The update of no version ends with an underflow. -/
theorem update_ne_underflow [Keccak] (L : L1Ledger) (arbosVersion updateTime currentTime : U64)
    (p : Address) (weiSpent l1Basefee : U256) :
    (L.update arbosVersion updateTime currentTime p weiSpent l1Basefee).1 ≠ .panic underflow := by
  unfold update
  by_cases hversion : arbosVersion < arbosVersion2
  · have hlegacy : (L.legacySpend updateTime currentTime p weiSpent).1 ≠ .panic underflow := by
      unfold legacySpend
      split
      · exact fun h => absurd (Outcome.panic.inj h) (by decide)
      · dsimp only
        split
        · exact fun h => nomatch h
        · exact legacyPayAll_ne_underflow _ _ _ _
    rw [if_pos hversion]
    rcases hcase : L.legacySpend updateTime currentTime p weiSpent with ⟨u | e | m, L'⟩ <;>
      rw [hcase] at hlegacy
    · exact fun h => nomatch h
    · exact fun h => nomatch h
    · exact fun h => hlegacy (congrArg _ (Outcome.panic.inj h))
  · rw [if_neg hversion]
    unfold spend
    split
    · exact fun h => absurd (Outcome.panic.inj h) (by decide)
    · dsimp only
      split
      · exact fun h => nomatch h
      · exact settle_ne_underflow _ _ _ _ _

end L1Ledger

/-! ### Runs -/

/-- An operation that changes the units since the last update. -/
inductive UnitsOp where
  | add (units : U64)
  | update (arbosVersion updateTime currentTime : U64) (batchPoster : Address)
      (weiSpent l1Basefee : U256)

namespace UnitsOp

/-- The program of the operation. -/
def program [Keccak] (self : L1PricingState) : UnitsOp → Exec UpdateSpendingError Unit
  | .add units => (self.addToUnitsSinceUpdate units).mapErr .db
  | .update arbosVersion updateTime currentTime batchPoster weiSpent l1Basefee =>
      self.updateForBatchPosterSpending arbosVersion updateTime currentTime batchPoster weiSpent
        l1Basefee

/-- The operation on a ledger. -/
def apply [Keccak] : UnitsOp → L1Ledger → Outcome UpdateSpendingError Unit × L1Ledger
  | .add units, L => (.ok (), { L with unitsSinceUpdate := saturatingAdd L.unitsSinceUpdate units })
  | .update arbosVersion updateTime currentTime batchPoster weiSpent l1Basefee, L =>
      L.update arbosVersion updateTime currentTime batchPoster weiSpent l1Basefee

/-- The poster of an update is an account of `A`. -/
def Among (A : Set Address) : UnitsOp → Prop
  | .add _ => True
  | .update _ _ _ batchPoster _ _ => batchPoster ∈ A

/-- The units that the operation adds. -/
def added : UnitsOp → Nat
  | .add units => units.toNat
  | .update .. => 0

/-- The units that the operation allocates. -/
def taken : UnitsOp → L1Ledger → Nat
  | .add _, _ => 0
  | .update arbosVersion updateTime currentTime batchPoster _ _, L =>
      (L.taken arbosVersion updateTime currentTime batchPoster).toNat

/-- The addition does not saturate. -/
def Fits (L : L1Ledger) (op : UnitsOp) : Prop := L.unitsSinceUpdate.toNat + op.added < 2 ^ 64

/-- All units that are added. -/
def totalAdded (ops : List UnitsOp) : Nat := (ops.map added).sum

/-- All units that are allocated, each operation in the state that it finds. -/
def totalTaken [Keccak] : List UnitsOp → L1Ledger → Nat
  | [], _ => 0
  | op :: ops, L => op.taken L + totalTaken ops (op.apply L).2

variable [Keccak]

/-- One operation keeps the account of the units. -/
theorem conserves {L : L1Ledger} {op : UnitsOp} (hfits : Fits L op) :
    L.unitsSinceUpdate.toNat + op.added
      = (op.apply L).2.unitsSinceUpdate.toNat + op.taken L := by
  cases op with
  | add units =>
      have hfit : L.unitsSinceUpdate.toNat + units.toNat < 2 ^ 64 := hfits
      show _ = (saturatingAdd L.unitsSinceUpdate units).toNat + 0
      rw [toNat_saturatingAdd, added]
      omega
  | update arbosVersion updateTime currentTime batchPoster weiSpent l1Basefee =>
      -- The allocated units are no more than there are, so the difference is exact.
      have hle := L.taken_le arbosVersion updateTime currentTime batchPoster
      show _ = (L.update arbosVersion updateTime currentTime batchPoster weiSpent
        l1Basefee).2.unitsSinceUpdate.toNat + (L.taken _ _ _ _).toNat
      rw [L1Ledger.update_unitsSinceUpdate, BitVec.toNat_sub_of_le hle, added]
      rw [BitVec.le_def] at hle
      omega

/-- A run keeps it. -/
theorem conserves_run (ops : List UnitsOp) (L : L1Ledger) (hfits : AdmissibleOps apply Fits ops L) :
    L.unitsSinceUpdate.toNat + totalAdded ops
      = (specOps apply ops L).2.unitsSinceUpdate.toNat + totalTaken ops L := by
  induction ops generalizing L with
  | nil => rfl
  | cons op ops ih =>
      -- The account of the first operation, and of the rest in the state after it.
      have hfirst := conserves hfits.1
      have hrest := ih _ hfits.2
      simp only [totalAdded, totalTaken, specOps, List.map_cons, List.sum_cons] at hrest ⊢
      omega

/-- No operation of a run ends with an underflow. -/
theorem specOps_ne_underflow (ops : List UnitsOp) (L : L1Ledger) :
    ∀ r ∈ (specOps apply ops L).1, r ≠ .panic L1Ledger.underflow := by
  induction ops generalizing L with
  | nil => exact fun _ h => nomatch h
  | cons op ops ih =>
      intro r hr
      rcases List.mem_cons.mp hr with rfl | hr
      · cases op with
        | add units => exact fun h => nomatch h
        | update => exact L1Ledger.update_ne_underflow L _ _ _ _ _ _
      · exact ih _ r hr

end UnitsOp

namespace L1Pricing

section
variable [Keccak] {sto : Storage} {A : Set Address} (hslots : (layout sto).Apart (L1Key.Among A))
include hslots

/-- The program of an addition or of an update does what the operation says on the ledger. -/
theorem unitsOp_realizes (version : U64) (L : L1Ledger) (op : UnitsOp) (hop : op.Among A) :
    Realizes World.handle (Represents sto A) (op.program (openL1PricingState sto version)) L
      (op.apply L).1 (op.apply L).2 := by
  cases op with
  | add units => exact .mapErr (addToUnitsSinceUpdate_realizes hslots version L units)
  | update => exact anyUpdate_realizes hslots version L _ _ _ hop _ _

/-- The calldata units are conserved. After every run of additions and updates of any
version, of which no addition saturates, the units that were there and were added are the
units that are left and that were allocated. No subtraction underflows. A further update
allocates no more than there is, and nothing when its times are rejected. `A` holds the
posters of the updates. -/
theorem units_conserved (version : U64) {w : World} {L : L1Ledger} (hR : Represents sto A w L)
    (ops : List UnitsOp) (hops : ∀ op ∈ ops, op.Among A)
    (hfits : AdmissibleOps UnitsOp.apply UnitsOp.Fits ops L) :
    let self := openL1PricingState sto version
    let final := runOps World.handle (UnitsOp.program self) ops w
    let L' := (specOps UnitsOp.apply ops L).2
    World.run self.unitsSinceUpdate final.2 = (.ok L'.unitsSinceUpdate, final.2)
    ∧ L.unitsSinceUpdate.toNat + UnitsOp.totalAdded ops
      = L'.unitsSinceUpdate.toNat + UnitsOp.totalTaken ops L
    ∧ (∀ r ∈ final.1, r ≠ .panic "attempt to subtract with overflow")
    ∧ ∀ (arbosVersion updateTime currentTime : U64), ∀ p ∈ A, ∀ weiSpent l1Basefee : U256,
        (L'.Accepts arbosVersion updateTime currentTime →
          L'.share arbosVersion updateTime currentTime ≤ L'.unitsSinceUpdate)
        ∧ ∃ left next, World.run (self.updateForBatchPosterSpending arbosVersion updateTime
              currentTime p weiSpent l1Basefee) final.2
            = ((L'.update arbosVersion updateTime currentTime p weiSpent l1Basefee).1, next)
          ∧ World.run self.unitsSinceUpdate next = (.ok left, next)
          ∧ L'.unitsSinceUpdate.toNat
            = left.toNat + (L'.taken arbosVersion updateTime currentTime p).toNat
          ∧ (¬L'.Accepts arbosVersion updateTime currentTime → left = L'.unitsSinceUpdate) := by
  intro self final L'
  obtain ⟨hout, hR'⟩ := runOps_realizes
    (fun L op hop => unitsOp_realizes hslots version L op hop) ops w L hR
    (admissibleOps_of_forall hops L)
  have hread : ∀ (w : World) (L : L1Ledger), Represents sto A w L →
      World.run self.unitsSinceUpdate w = (.ok L.unitsSinceUpdate, w) :=
    fun w L h => StorageBackedUint64.run_get _ (h.scalar .unitsSinceUpdate)
  refine ⟨hread _ _ hR', UnitsOp.conserves_run ops L hfits, ?_, ?_⟩
  · intro r hr
    rw [hout] at hr
    exact UnitsOp.specOps_ne_underflow ops L r hr
  · intro arbosVersion updateTime currentTime p hp weiSpent l1Basefee
    refine ⟨L1Ledger.share_le_units, ?_⟩
    -- One more update, whatever its outcome: its store is again the one of a ledger.
    obtain ⟨next, hrun, hnext⟩ := anyUpdate_realizes hslots version L' arbosVersion updateTime
      currentTime hp weiSpent l1Basefee _ hR'
    have hunits := L'.update_unitsSinceUpdate arbosVersion updateTime currentTime p weiSpent
      l1Basefee
    have hle := L'.taken_le arbosVersion updateTime currentTime p
    refine ⟨_, next, hrun, hread _ _ hnext, ?_, ?_⟩
    · rw [hunits, BitVec.toNat_sub_of_le hle]
      rw [BitVec.le_def] at hle
      omega
    · intro hreject
      rw [hunits, L1Ledger.taken_of_rejected hreject]
      exact BitVec.sub_zero _

end

end L1Pricing

namespace L1Pricing
attribute [local instance] sampleHash

/-- Half of four units are allocated in version 1, one is added, and an update of version
10 whose times are rejected allocates nothing. -/
theorem units_conserved_sample :
    4 + 1 = (specOps UnitsOp.apply [.update 1 5 6 7 0 0, .add 1, .update 10 9 8 7 0 0]
        sampleLedger).2.unitsSinceUpdate.toNat
      + UnitsOp.totalTaken [.update 1 5 6 7 0 0, .add 1, .update 10 9 8 7 0 0] sampleLedger := by
  have hupdate : (sampleLedger.update 1 5 6 7 0 0).2.unitsSinceUpdate = 2 := by
    rw [L1Ledger.update_unitsSinceUpdate]
    decide
  have hfits : AdmissibleOps UnitsOp.apply UnitsOp.Fits
      [.update 1 5 6 7 0 0, .add 1, .update 10 9 8 7 0 0] sampleLedger := by
    refine ⟨?_, ?_, ?_, trivial⟩
    · show sampleLedger.unitsSinceUpdate.toNat + 0 < 2 ^ 64
      decide
    · show (sampleLedger.update 1 5 6 7 0 0).2.unitsSinceUpdate.toNat + 1 < 2 ^ 64
      rw [hupdate]
      decide
    · show (saturatingAdd (sampleLedger.update 1 5 6 7 0 0).2.unitsSinceUpdate 1).toNat + 0 < 2 ^ 64
      rw [hupdate]
      decide
  exact (units_conserved sampleRoot_layout_apart 10 sampleWorld_represents
    [.update 1 5 6 7 0 0, .add 1, .update 10 9 8 7 0 0] (by simp [UnitsOp.Among]) hfits).2.1

end L1Pricing

end ArbReth
