import ArbReth.Proofs.L1Pricing.Units

/-!
# `ArbReth.Proofs.L1Pricing.Times`: the time check of the update

An update whose times are rejected changes nothing but the registration of the poster, and
the registration comes before the check. `opened` is the world after the registration:
five slots are written for a new poster, and none for a known one. `run_update_rejected`
says that a rejected update ends in exactly this world, in every version.

`L1Ledger.settlement` is the part of the update that follows the check. It sets the time of
the last update when it returns, and leaves it when a payment is refused. So the time never
goes back (`update_lastUpdateTime_le`), and this carries over to runs.
-/

set_option autoImplicit false

namespace ArbReth

open ArbReth.Program

namespace L1Ledger
variable {L : L1Ledger}

/-- The times of an update of the version are rejected. Below version 2 the period may not
end now. -/
def Rejects (L : L1Ledger) (arbosVersion updateTime currentTime : U64) : Prop :=
  if arbosVersion < arbosVersion2 then
    currentTime ≤ updateTime ∨ updateTime < L.legacyLastTime updateTime currentTime
  else currentTime < updateTime ∨ updateTime < L.lastTime updateTime

/-- How an update whose times are rejected ends. Below version 2 it is no error. -/
def rejection (arbosVersion : U64) : Outcome UpdateSpendingError Unit :=
  if arbosVersion < arbosVersion2 then .ok () else .err .invalidTime

/-- The update of a version from the allocation on. The poster is registered. -/
def settlement [Keccak] (L : L1Ledger) (arbosVersion updateTime currentTime : U64) (p : Address)
    (weiSpent l1Basefee : U256) : Outcome UpdateSpendingError Unit × L1Ledger :=
  if arbosVersion < arbosVersion2 then
    let units := L.legacyAllocated updateTime currentTime
    let result := (L.legacyAccount units p weiSpent).legacyPayAll updateTime units
      (L.legacyFunds updateTime currentTime) (L.surplus .pool)
    (result.1.mapErr .db, result.2)
  else
    let units := L.allocated updateTime currentTime
    (L.account arbosVersion units p weiSpent l1Basefee).settle (Funding.ofVersion arbosVersion)
      arbosVersion updateTime units p

/-- The times are refused in two cases. -/
theorem not_timeOk_iff {updateTime currentTime : U64} :
    ¬L.TimeOk updateTime currentTime
      ↔ currentTime < updateTime ∨ updateTime < L.lastTime updateTime := by
  rw [TimeOk, not_and_or, BitVec.not_le, BitVec.not_le]
  exact or_comm

/-- The registration has no part in the check of the times. -/
theorem register_rejects_iff (L : L1Ledger) (p : Address)
    (arbosVersion updateTime currentTime : U64) :
    (L.register p).Rejects arbosVersion updateTime currentTime
      ↔ L.Rejects arbosVersion updateTime currentTime := by
  unfold Rejects
  rw [register_lastTime, register_legacyLastTime]

section
variable [Keccak] (arbosVersion updateTime currentTime : U64) {p : Address}
  (weiSpent l1Basefee : U256)

/-- The update registers the poster, checks the times and settles. -/
theorem update_of_room (hroom : L.IsPoster p ∨ L.count ≠ BitVec.allOnes 64) :
    (L.Rejects arbosVersion updateTime currentTime →
      L.update arbosVersion updateTime currentTime p weiSpent l1Basefee
        = (rejection arbosVersion, L.register p))
    ∧ (¬L.Rejects arbosVersion updateTime currentTime →
      L.update arbosVersion updateTime currentTime p weiSpent l1Basefee
        = (L.register p).settlement arbosVersion updateTime currentTime p weiSpent l1Basefee) := by
  have hfull : ¬(¬L.IsPoster p ∧ L.count = BitVec.allOnes 64) :=
    fun h => hroom.elim h.1 fun hne => hne h.2
  rw [← register_rejects_iff L p]
  unfold update rejection settlement Rejects
  by_cases hversion : arbosVersion < arbosVersion2
  · simp only [if_pos hversion, ← not_legacyTimeOk_iff, legacySpend, if_neg hfull]
    generalize L.register p = L₁
    constructor
    · intro htime
      rw [if_pos htime]
    · intro htime
      rw [if_neg htime]
      -- the delegation converts the error
      rcases (L₁.legacyAccount _ p weiSpent).legacyPayAll _ _ _ _ with ⟨u | e | m, L'⟩ <;> rfl
  · simp only [if_neg hversion, ← not_timeOk_iff, spend, if_neg hfull]
    constructor
    · intro htime
      rw [if_pos htime]
    · intro htime
      rw [if_neg htime]

end

/-! ### The time of the last update -/

/-- The end of the payments sets the time. A payment that is refused leaves it. -/
def TimeSet (L : L1Ledger) (updateTime : U64) {ε : Type} (result : Outcome ε Unit × L1Ledger) :
    Prop :=
  (result.1 = .ok () ∧ result.2.lastUpdateTime = updateTime)
    ∨ ((∃ m, result.1 = .panic m) ∧ result.2.lastUpdateTime = L.lastUpdateTime)

/-- Payments never end with an error. -/
theorem TimeSet.ne_err {updateTime : U64} {ε : Type} {result : Outcome ε Unit × L1Ledger}
    (h : L.TimeSet updateTime result) (e : ε) : result.1 ≠ .err e := by
  rcases h with ⟨hok, -⟩ | ⟨⟨m, hm⟩, -⟩
  · simp [hok]
  · simp [hm]

/-- A run that returns has set the time. -/
theorem TimeSet.of_ok {updateTime : U64} {ε : Type} {result : Outcome ε Unit × L1Ledger}
    (h : L.TimeSet updateTime result) (hok : result.1 = .ok ()) :
    result.2.lastUpdateTime = updateTime := by
  rcases h with ⟨-, htime⟩ | ⟨⟨m, hm⟩, -⟩
  · exact htime
  · rw [hm] at hok
    cases hok

/-- The settlement sets the time when it returns. -/
theorem settle_timeSet (L : L1Ledger) (f : Funding) (arbosVersion updateTime units : U64)
    (p : Address) : L.TimeSet updateTime (L.settle f arbosVersion updateTime units p) := by
  cases hrewards : (L.debitRewards (L.rewardPayment f units)).refusal L.payRewardsTo
      (L.rewardPayment f units) with
  | some e =>
      rw [settle_of_rewards_refused hrewards]
      exact .inr ⟨⟨_, rfl⟩, rfl⟩
  | none =>
      cases hposter : (L.paidRewards f units).refusal (L.payTo p)
          ((L.paidRewards f units).posterPayment f p) with
      | some e =>
          rw [settle_of_poster_refused hrewards hposter]
          exact .inr ⟨⟨_, rfl⟩, rfl⟩
      | none =>
          rw [settle_of_accepted hrewards hposter]
          refine .inl ⟨rfl, ?_⟩
          unfold finish adjustPrice
          split <;> rfl

/-- The loop over the posters returns, or it ends with a payment that is refused. -/
theorem settleAll_ne_err [Keccak] (posters : List Address) (availableFunds : U256) (L : L1Ledger)
    (e : DbError) : (settleAll posters availableFunds L).1 ≠ .err e := by
  induction posters generalizing availableFunds L with
  | nil =>
      intro h
      cases h
  | cons p posters ih =>
      unfold settleAll
      split
      · intro h
        cases h
      · dsimp only
        split
        · exact ih availableFunds L
        · split
          · intro h
            cases h
          · exact ih _ _

/-- The payments before version 2 set the time when they return. -/
theorem legacyPayAll_timeSet [Keccak] (L : L1Ledger) (updateTime units : U64)
    (availableFunds : U256) (oldSurplus : I256) :
    L.TimeSet updateTime (L.legacyPayAll updateTime units availableFunds oldSurplus) := by
  cases hrewards : (L.debitRewards (L.legacyReward availableFunds units)).refusal L.payRewardsTo
      (L.legacyReward availableFunds units) with
  | some e =>
      rw [legacyPayAll_of_refused hrewards]
      exact .inr ⟨⟨_, rfl⟩, rfl⟩
  | none =>
      rw [legacyPayAll_of_accepted hrewards]
      have hscalars := settleAll_toL1Scalars L.posterList
        (availableFunds - L.legacyReward availableFunds units)
        (L.legacyPaidRewards availableFunds units)
      have herr := settleAll_ne_err L.posterList
        (availableFunds - L.legacyReward availableFunds units)
        (L.legacyPaidRewards availableFunds units)
      rcases hall : settleAll L.posterList (availableFunds - L.legacyReward availableFunds units)
        (L.legacyPaidRewards availableFunds units) with ⟨u | e | m, L₂⟩ <;>
        rw [hall] at hscalars herr
      · refine .inl ⟨rfl, ?_⟩
        show (legacyAdjustPrice _ oldSurplus units).lastUpdateTime = updateTime
        unfold legacyAdjustPrice
        split <;> rfl
      · exact absurd rfl (herr e)
      · -- the scalars are those after the rewards, which kept the time
        refine .inr ⟨⟨m, rfl⟩, ?_⟩
        show L₂.lastUpdateTime = (L.legacyPaidRewards availableFunds units).lastUpdateTime
        exact congrArg L1Scalars.lastUpdateTime hscalars

section
variable [Keccak] {arbosVersion updateTime currentTime : U64} {p : Address}
  {weiSpent l1Basefee : U256}

variable (arbosVersion updateTime currentTime p weiSpent l1Basefee) in
/-- On every path the settlement sets the time when it returns. -/
theorem settlement_timeSet (L : L1Ledger) :
    L.TimeSet updateTime
      (L.settlement arbosVersion updateTime currentTime p weiSpent l1Basefee) := by
  unfold settlement
  split
  · have hpaid := legacyPayAll_timeSet
      (L.legacyAccount (L.legacyAllocated updateTime currentTime) p weiSpent) updateTime
      (L.legacyAllocated updateTime currentTime) (L.legacyFunds updateTime currentTime)
      (L.surplus .pool)
    rcases hpaid with ⟨hok, htime⟩ | ⟨⟨m, hm⟩, htime⟩
    · exact .inl ⟨by simp only [hok, Outcome.mapErr], htime⟩
    · exact .inr ⟨⟨m, by simp only [hm, Outcome.mapErr]⟩, htime⟩
  · have hpaid := settle_timeSet
      (L.account arbosVersion (L.allocated updateTime currentTime) p weiSpent l1Basefee)
      (Funding.ofVersion arbosVersion) arbosVersion updateTime
      (L.allocated updateTime currentTime) p
    rcases hpaid with ⟨hok, htime⟩ | ⟨hm, htime⟩
    · exact .inl ⟨hok, htime⟩
    · exact .inr ⟨hm, htime⟩

omit [Keccak] in
/-- An update that is not rejected is no older than the last one. -/
theorem lastUpdateTime_le (h : ¬L.Rejects arbosVersion updateTime currentTime) :
    L.lastUpdateTime ≤ updateTime := by
  unfold Rejects legacyLastTime lastTime at h
  -- before the first update the stored time is zero
  by_cases hzero : L.lastUpdateTime = 0
  · rw [hzero, BitVec.le_def]
    exact Nat.zero_le _
  · simp only [hzero, false_and, if_false] at h
    split at h
    · exact BitVec.not_lt.mp fun hlt => h (.inr hlt)
    · exact BitVec.not_lt.mp fun hlt => h (.inr hlt)

/-- No update moves the time back, however it ends. -/
theorem update_lastUpdateTime_le (L : L1Ledger) :
    L.lastUpdateTime
      ≤ (L.update arbosVersion updateTime currentTime p weiSpent l1Basefee).2.lastUpdateTime := by
  have hregister : (L.register p).lastUpdateTime = L.lastUpdateTime :=
    congrArg L1Scalars.lastUpdateTime (register_toL1Scalars L p)
  by_cases hroom : L.IsPoster p ∨ L.count ≠ BitVec.allOnes 64
  · obtain ⟨hreject, haccept⟩ := update_of_room arbosVersion updateTime currentTime weiSpent
      l1Basefee hroom
    by_cases htimes : L.Rejects arbosVersion updateTime currentTime
    · rw [hreject htimes, hregister]
      exact BitVec.le_refl _
    · rw [haccept htimes]
      rcases settlement_timeSet arbosVersion updateTime currentTime p weiSpent l1Basefee
        (L.register p) with ⟨-, htime⟩ | ⟨-, htime⟩
      · rw [htime]
        exact lastUpdateTime_le htimes
      · rw [htime, hregister]
        exact BitVec.le_refl _
  · -- the registration panics
    rw [not_or, not_not] at hroom
    unfold update spend legacySpend
    simp only [if_pos hroom]
    split <;> exact BitVec.le_refl _

end

/-- The ledger `L'` differs from `L` by the registration of the poster at most. -/
structure OnlyRegisters (L : L1Ledger) (p : Address) (L' : L1Ledger) : Prop where
  scalars : L'.toL1Scalars = L.toL1Scalars
  balance : L'.balance = L.balance
  totalFundsDue : L'.totalFundsDue = L.totalFundsDue
  others : ∀ q, q ≠ p →
    L'.index q = L.index q ∧ L'.fundsDue q = L.fundsDue q ∧ L'.payTo q = L.payTo q
  known : L.IsPoster p → L' = L
  new : ¬L.IsPoster p → L'.IsPoster p ∧ L'.fundsDue p = I256.zero ∧ L'.payTo p = p

/-- The registration changes the table at the new poster only. -/
theorem register_onlyRegisters (L : L1Ledger) {p : Address}
    (hroom : L.IsPoster p ∨ L.count ≠ BitVec.allOnes 64) : L.OnlyRegisters p (L.register p) where
  scalars := register_toL1Scalars L p
  balance := register_balance L p
  totalFundsDue := register_totalFundsDue L p
  others q hq := by
    refine ⟨?_, register_of_ne L hq⟩
    unfold register
    split
    · rfl
    · exact Function.update_of_ne hq _ _
  known hp := if_pos hp
  new hp := by
    have hdue := register_fundsDue_self L p
    have hpayTo := register_payTo_self L p
    rw [dueTo, if_neg hp] at hdue
    rw [payee, if_neg hp] at hpayTo
    refine ⟨?_, hdue, hpayTo⟩
    -- the place in the list is not zero, because the set is not full
    have hcount := hroom.resolve_left hp
    have hindex : (L.register p).index p = U256.ofU64 (L.count + 1) := by
      rw [register, if_neg hp]
      exact Function.update_self _ _ _
    have hmax : BitVec.allOnes 64 = 18446744073709551615 := by decide
    have hne : L.count + 1 ≠ 0 := by
      rw [hmax] at hcount
      bv_omega
    intro hzero
    rw [hindex] at hzero
    exact hne (U256.ofU64_injective hzero)

/-! ### Runs -/

/-- No operation moves the last update time back. -/
theorem apply_lastUpdateTime_le [Keccak] (op : UnitsOp) (L : L1Ledger) :
    L.lastUpdateTime ≤ (op.apply L).2.lastUpdateTime := by
  cases op with
  | add units => exact BitVec.le_refl _
  | update => exact update_lastUpdateTime_le L

/-- No run moves the last update time back. -/
theorem specOps_lastUpdateTime_le [Keccak] (ops : List UnitsOp) (L : L1Ledger) :
    L.lastUpdateTime ≤ (specOps UnitsOp.apply ops L).2.lastUpdateTime := by
  induction ops generalizing L with
  | nil => exact BitVec.le_refl _
  | cons op ops ih => exact BitVec.le_trans (apply_lastUpdateTime_le op L) (ih _)

end L1Ledger

/-! ### The world after a rejected update -/

namespace L1Pricing

section
variable [Keccak]

/-- The store after the registration of a new poster: its record says that nothing is due and
that it is paid itself, and it is the member after the last one. -/
def registered (sto : Storage) (w : World) (p : Address) (count : U64) : World :=
  AddressSet.afterAdd (posterSpace sto)
    ((layout sto).write ((layout sto).write w (.fundsDue p) I256.zero.intoRaw) (.payTo p)
      p.intoWord) p count.toNat

/-- The store after the record of the poster is opened. -/
def opened (sto : Storage) (w : World) (L : L1Ledger) (p : Address) : World :=
  if L.IsPoster p then w else registered sto w p L.count

variable {sto : Storage} {A : Set Address} (hslots : (layout sto).Apart (L1Key.Among A))
  {w : World} {L : L1Ledger} (hR : Represents sto A w L) {p : Address} (hpA : p ∈ A)
  (hroom : L.IsPoster p ∨ L.count ≠ BitVec.allOnes 64)

include hslots hR hpA in
/-- A new poster is opened and registered. -/
theorem run_openPoster_new (hnew : ¬L.IsPoster p) (hcount : L.count ≠ BitVec.allOnes 64) :
    World.run ((BatchPostersTable.open (tableSpace sto)).openPoster p true) w
      = (.ok (record sto p), registered sto w p L.count) := by
  have hmember := run_isMember hR p
  rw [decide_eq_false hnew] at hmember
  -- the two writes to the record
  have hdue : World.run ((record sto p).fundsDueCell.setChecked I256.zero) w
      = (.ok (), (layout sto).write w (.fundsDue p) I256.zero.intoRaw) :=
    StorageSlot.run_set _ hR.writable _
  obtain ⟨w₁, hrun₁, hR₁⟩ := setDue_realizes hslots L hpA I256.zero w hR
  have hw₁ : w₁ = (layout sto).write w (.fundsDue p) I256.zero.intoRaw :=
    (congrArg Prod.snd (hrun₁.symm.trans hdue))
  rw [hw₁] at hR₁
  have hpayTo : World.run ((record sto p).setPayTo p)
      ((layout sto).write w (.fundsDue p) I256.zero.intoRaw)
      = (.ok (), (layout sto).write ((layout sto).write w (.fundsDue p) I256.zero.intoRaw)
          (.payTo p) p.intoWord) :=
    StorageSlot.run_set _ hR₁.writable _
  obtain ⟨w₂, hrun₂, hR₂⟩ := setPayTo_realizes hslots _ hpA p _ hR₁
  have hw₂ : w₂ = (layout sto).write ((layout sto).write w (.fundsDue p) I256.zero.intoRaw)
      (.payTo p) p.intoWord := congrArg Prod.snd (hrun₂.symm.trans hpayTo)
  rw [hw₂] at hR₂
  -- the addition to the set
  have hlt : L.count.toNat + 1 < 2 ^ 64 := by
    have h := L.count.isLt
    have hne : L.count.toNat ≠ 2 ^ 64 - 1 := fun h' => hcount (BitVec.eq_of_toNat_eq (by simp [h']))
    omega
  have hadd := AddressSet.run_add_of_index_eq_zero (posters_apart hslots) hpA hR₂.writable
    (n := L.count.toNat) ((hR₂.read_index p).trans (not_not.mp hnew))
    (hR₂.read_size.trans (by simp)) hlt
  rw [BatchPostersTable.openPoster, World.run_bind_ok (World.run_mapErr_ok hmember _)]
  simp only [Bool.not_false, if_true, Bool.not_true, Bool.false_eq_true, if_false]
  rw [BatchPostersTable.addPoster, World.run_bind_ok (World.run_mapErr_ok hmember _)]
  simp only [Bool.false_eq_true, if_false]
  have hdue' := World.run_mapErr_ok hdue OpenPosterResult.db
  have hpayTo' := World.run_mapErr_ok hpayTo OpenPosterResult.db
  have hadd' := World.run_mapErr_ok hadd OpenPosterResult.db
  exact (World.run_bind_ok hdue' _).trans
    ((World.run_bind_ok hpayTo' _).trans (World.run_bind_ok hadd' _))

include hslots hR hpA hroom in
/-- The record of the poster is opened, and the store is the one after the registration. -/
theorem run_openPoster :
    World.run ((BatchPostersTable.open (tableSpace sto)).openPoster p true) w
      = (.ok (record sto p), opened sto w L p) := by
  unfold opened
  by_cases hp : L.IsPoster p
  · have hmember := run_isMember hR p
    rw [decide_eq_true hp] at hmember
    rw [if_pos hp, BatchPostersTable.openPoster,
      World.run_bind_ok (World.run_mapErr_ok hmember _)]
    rfl
  · rw [if_neg hp]
    exact run_openPoster_new hslots hR hpA hp (hroom.resolve_left hp)

include hslots hR hpA hroom in
/-- The registration writes what it does in the ledger. -/
theorem opened_represents : Represents sto A (opened sto w L p) (L.register p) := by
  obtain ⟨w', hrun, hR'⟩ := openPoster_realizes hslots L hpA hroom w hR
  have hw' : w' = opened sto w L p :=
    congrArg Prod.snd (hrun.symm.trans (run_openPoster hslots hR hpA hroom))
  rwa [hw'] at hR'

/-! ### The runs that end at the time check -/

omit [Keccak] in
/-- The record that was opened is handed on by an error handler. -/
theorem run_opened {ε : Type} {w' : World} {bpState : BatchPosterState}
    {q : Exec OpenPosterResult BatchPosterState} (hq : World.run q w = (.ok bpState, w'))
    (handler : OpenPosterResult → Exec ε BatchPosterState) :
    World.run (q.handleErr handler) w = (.ok bpState, w') := by
  rw [World.run] at hq
  rw [World.run, Prog.exec_handleErr, hq]

include hR in
/-- The time check reads one slot, and writes nothing when it rejects. -/
theorem run_allocateUnits_rejected (version : U64) {updateTime currentTime : U64}
    (htime : ¬L.TimeOk updateTime currentTime) :
    World.run ((openL1PricingState sto version).allocateUnits updateTime currentTime) w
      = (.err .invalidTime, w) := by
  have hread : World.run (openL1PricingState sto version).lastUpdateTime w
      = (.ok L.lastUpdateTime, w) := StorageBackedUint64.run_get _ (hR.scalar .lastUpdateTime)
  have hreject := L1Ledger.not_timeOk_iff.mp htime
  rw [L1PricingState.allocateUnits, World.run_bind_ok (World.run_mapErr_ok hread _)]
  unfold L1Ledger.lastTime at hreject
  by_cases hfirst : L.lastUpdateTime = 0 ∧ 0 < updateTime
  · have hone : (1 : U64) ≤ updateTime := by
      have hpos := hfirst.2
      rw [BitVec.lt_def] at hpos
      rw [BitVec.le_def]
      exact hpos
    rw [if_pos hfirst] at hreject
    dsimp only
    rw [if_pos hfirst, World.run_bind_ok (World.run_checkedSub hone w), if_pos hreject]
    rfl
  · rw [if_neg hfirst] at hreject
    dsimp only
    rw [if_neg hfirst, World.run_bind_ok (World.run_pure _ w), if_pos hreject]
    rfl

section
variable (version : U64) {arbosVersion updateTime currentTime : U64} (weiSpent l1Basefee : U256)
include hslots hR hpA hroom

/-- Versions before 2: the values for the surplus are read, and then the update returns. -/
theorem run_preVersion2_rejected
    (htime : ¬(L.register p).LegacyTimeOk updateTime currentTime) :
    World.run ((openL1PricingState sto version).preVersion2UpdateForBatchPosterSpending updateTime
      currentTime p weiSpent) w = (.ok (), opened sto w L p) := by
  have hR₁ := opened_represents hslots hR hpA hroom
  have hopen := run_openPoster hslots hR hpA hroom
  have htotal : World.run (openL1PricingState sto version).batchPosterTable.totalFundsDue
      (opened sto w L p) = (.ok (L.register p).totalFundsDue, opened sto w L p) :=
    StorageBackedBigInt.run_get _ (hR₁.table .totalFundsDue)
  have hrewards : World.run (openL1PricingState sto version).fundsDueForRewards (opened sto w L p)
      = (.ok (L.register p).fundsDueForRewards, opened sto w L p) :=
    StorageBackedBigInt.run_get _ (hR₁.scalar .fundsDueForRewards)
  have hpool : World.run L1PricingState.poolBalance (opened sto w L p)
      = (.ok ((opened sto w L p).balance l1PricerFundsPoolAddress), opened sto w L p) := rfl
  have hstored : World.run (openL1PricingState sto version).lastUpdateTime (opened sto w L p)
      = (.ok (L.register p).lastUpdateTime, opened sto w L p) :=
    StorageBackedUint64.run_get _ (hR₁.scalar .lastUpdateTime)
  have hreject := L1Ledger.not_legacyTimeOk_iff.mp htime
  unfold L1Ledger.legacyLastTime at hreject
  refine (World.run_bind_ok (run_opened hopen _) _).trans <| (World.run_bind_ok htotal _).trans <|
    (World.run_bind_ok hrewards _).trans <| (World.run_bind_ok hpool _).trans <|
    (World.run_bind_ok hstored _).trans ?_
  rw [if_pos hreject]
  rfl

/-- From version 2 on: the check fails before anything but the registration is written. -/
theorem run_update_rejected (hreject : L.Rejects arbosVersion updateTime currentTime) :
    World.run ((openL1PricingState sto version).updateForBatchPosterSpending arbosVersion updateTime
        currentTime p weiSpent l1Basefee) w
      = (L1Ledger.rejection arbosVersion, opened sto w L p) := by
  have hR₁ := opened_represents hslots hR hpA hroom
  rw [← L1Ledger.register_rejects_iff L p] at hreject
  unfold L1Ledger.Rejects at hreject
  unfold L1Ledger.rejection L1PricingState.updateForBatchPosterSpending
  by_cases htwo : arbosVersion < arbosVersion2
  · rw [if_pos htwo, ← L1Ledger.not_legacyTimeOk_iff] at hreject
    have hten : arbosVersion < arbosVersion10 := by
      rw [BitVec.lt_def] at htwo ⊢
      exact htwo.trans (by decide)
    have hlegacy := run_preVersion2_rejected hslots hR hpA hroom version weiSpent hreject
    rw [if_pos hten, if_pos htwo, L1PricingState.preVersion10UpdateForBatchPosterSpending,
      if_pos htwo]
    exact World.run_mapErr_ok hlegacy _
  rw [if_neg htwo, ← L1Ledger.not_timeOk_iff] at hreject
  have hcheck := run_allocateUnits_rejected hR₁ version hreject
  have hrewards : World.run (openL1PricingState sto version).fundsDueForRewards (opened sto w L p)
      = (.ok (L.register p).fundsDueForRewards, opened sto w L p) :=
    StorageBackedBigInt.run_get _ (hR₁.scalar .fundsDueForRewards)
  have hopen : ∀ context, World.run ((openL1PricingState sto version).openForSpending context p) w
      = (.ok (record sto p), opened sto w L p) :=
    fun context => run_opened (run_openPoster hslots hR hpA hroom) _
  rw [if_neg htwo]
  by_cases hten : arbosVersion < arbosVersion10
  · rw [if_pos hten, L1PricingState.preVersion10UpdateForBatchPosterSpending, if_neg htwo]
    exact (World.run_bind_ok (hopen _) _).trans <|
      (World.run_bind_ok (World.run_mapErr_ok hrewards _) _).trans (World.run_bind_err hcheck _)
  · rw [if_neg hten]
    have hfees : World.run (openL1PricingState sto version).l1FeesAvailable (opened sto w L p)
        = (.ok (L.register p).l1FeesAvailable, opened sto w L p) :=
      StorageBackedBigUint.run_get _ (hR₁.scalar .l1FeesAvailable)
    exact (World.run_bind_ok (hopen _) _).trans <|
      (World.run_bind_ok (World.run_mapErr_ok hrewards _) _).trans <|
      (World.run_bind_ok (World.run_mapErr_ok hfees _) _).trans (World.run_bind_err hcheck _)

end

end

section
variable [Keccak] {sto : Storage} {A : Set Address} (hslots : (layout sto).Apart (L1Key.Among A))
include hslots

/-- The time check of the update, for a poster that is known or for which there is room.

From version 2 on, the update returns `InvalidTime` exactly when it is later than the current
time or earlier than the last one. Below version 2 it returns when it is not earlier than the
current time or earlier than the last one. An update whose times are rejected only registers
the poster: for a known one the store stays as it is. Any other update settles. It does not
underflow, and when it returns the time of the last update is its own.

Along every run of additions and updates the time of the last update does not fall. -/
theorem update_times (version : U64) {w : World} {L : L1Ledger} (hR : Represents sto A w L) :
    let self := openL1PricingState sto version
    (∀ (arbosVersion updateTime currentTime : U64), ∀ p ∈ A, ∀ weiSpent l1Basefee : U256,
      (L.IsPoster p ∨ L.count ≠ BitVec.allOnes 64) →
      let out := World.run (self.updateForBatchPosterSpending arbosVersion updateTime currentTime p
        weiSpent l1Basefee) w
      let settled := (L.register p).settlement arbosVersion updateTime currentTime p weiSpent
        l1Basefee
      (arbosVersion2 ≤ arbosVersion → (out.1 = .err .invalidTime
        ↔ currentTime < updateTime ∨ updateTime < L.lastTime updateTime))
      ∧ (arbosVersion < arbosVersion2 →
        currentTime ≤ updateTime ∨ updateTime < L.legacyLastTime updateTime currentTime →
        out.1 = .ok ())
      ∧ (L.Rejects arbosVersion updateTime currentTime →
        out.2 = opened sto w L p ∧ ∃ L', Represents sto A out.2 L' ∧ L.OnlyRegisters p L')
      ∧ (¬L.Rejects arbosVersion updateTime currentTime →
        out.1 = settled.1 ∧ Represents sto A out.2 settled.2
        ∧ out.1 ≠ .panic "attempt to subtract with overflow"
        ∧ (out.1 = .ok () →
          World.run self.lastUpdateTime out.2 = (.ok updateTime, out.2))))
    ∧ ∀ ops ops' : List UnitsOp, (∀ op ∈ ops ++ ops', op.Among A) →
        let mid := (runOps World.handle (UnitsOp.program self) ops w).2
        let final := (runOps World.handle (UnitsOp.program self) ops' mid).2
        ∃ t t', World.run self.lastUpdateTime mid = (.ok t, mid)
          ∧ World.run self.lastUpdateTime final = (.ok t', final) ∧ t ≤ t' := by
  intro self
  have hread : ∀ (w : World) (L : L1Ledger), Represents sto A w L →
      World.run self.lastUpdateTime w = (.ok L.lastUpdateTime, w) :=
    fun w L h => StorageBackedUint64.run_get _ (h.scalar .lastUpdateTime)
  constructor
  · intro arbosVersion updateTime currentTime p hpA weiSpent l1Basefee hroom out settled
    obtain ⟨w', hrun, hR'⟩ := anyUpdate_realizes hslots version L arbosVersion updateTime
      currentTime hpA weiSpent l1Basefee w hR
    obtain ⟨hrejected, haccepted⟩ := L1Ledger.update_of_room arbosVersion updateTime currentTime
      weiSpent l1Basefee hroom
    have hout : out = (_, w') := hrun
    have hreject : L.Rejects arbosVersion updateTime currentTime →
        out = (L1Ledger.rejection arbosVersion, opened sto w L p) :=
      run_update_rejected hslots hR hpA hroom version weiSpent l1Basefee
    have haccept : ¬L.Rejects arbosVersion updateTime currentTime →
        out.1 = settled.1 ∧ Represents sto A out.2 settled.2 := by
      intro htimes
      rw [haccepted htimes] at hout hR'
      rw [hout]
      exact ⟨rfl, hR'⟩
    have htimeSet : L1Ledger.TimeSet _ updateTime settled :=
      L1Ledger.settlement_timeSet _ _ _ _ _ _ (L.register p)
    refine ⟨?_, ?_, ?_, ?_⟩
    · intro htwo
      have hversion := BitVec.not_lt.mpr htwo
      constructor
      · -- a settlement never fails with an error
        intro herr
        by_contra htimes
        have hsettled : ¬L.Rejects arbosVersion updateTime currentTime := by
          rwa [L1Ledger.Rejects, if_neg hversion]
        rw [(haccept hsettled).1] at herr
        exact htimeSet.ne_err _ herr
      · intro htimes
        rw [hreject (by rwa [L1Ledger.Rejects, if_neg hversion]), L1Ledger.rejection,
          if_neg hversion]
    · intro hversion htimes
      rw [hreject (by rwa [L1Ledger.Rejects, if_pos hversion]), L1Ledger.rejection,
        if_pos hversion]
    · intro htimes
      rw [hreject htimes]
      exact ⟨rfl, L.register p, opened_represents hslots hR hpA hroom,
        L1Ledger.register_onlyRegisters L hroom⟩
    · intro htimes
      obtain ⟨hresult, hsettled⟩ := haccept htimes
      refine ⟨hresult, hsettled, ?_, ?_⟩
      · rw [hout]
        exact L1Ledger.update_ne_underflow L _ _ _ _ _ _
      · intro hok
        rw [hresult] at hok
        rw [hread _ _ hsettled, htimeSet.of_ok hok]
  · intro ops ops' hops mid final
    rw [List.forall_mem_append] at hops
    have hstep : ∀ (L : L1Ledger) (op : UnitsOp), op.Among A → Realizes World.handle
        (Represents sto A) (op.program self) L (op.apply L).1 (op.apply L).2 :=
      fun L op hop => unitsOp_realizes hslots version L op hop
    obtain ⟨-, hmid⟩ := runOps_realizes hstep ops w L hR (admissibleOps_of_forall hops.1 L)
    obtain ⟨-, hfinal⟩ := runOps_realizes hstep ops' _ _ hmid (admissibleOps_of_forall hops.2 _)
    exact ⟨_, _, hread _ _ hmid, hread _ _ hfinal, L1Ledger.specOps_lastUpdateTime_le ops' _⟩

end

end L1Pricing

namespace L1Pricing
attribute [local instance] sampleHash

/-- An update for a new poster that is later than the current time registers the poster and
no more. -/
theorem update_times_sample :
    World.run ((openL1PricingState sampleRoot 10).updateForBatchPosterSpending 10 9 8 7 64 0)
      sampleWorld = (.err .invalidTime, opened sampleRoot sampleWorld sampleLedger 7) := by
  have htimes := (update_times sampleRoot_layout_apart 10 sampleWorld_represents).1 10 9 8 7
    (Set.mem_univ 7) 64 0 (.inr (by decide +kernel))
  have hreject : sampleLedger.Rejects 10 9 8 := .inl (by decide)
  exact Prod.ext ((htimes.1 (by decide)).mpr (.inl (by decide))) (htimes.2.2.1 hreject).1

/-- The set of posters is full. -/
def fullLedger : L1Ledger := { sampleLedger with count := BitVec.allOnes 64 }

/-- A store whose list of posters has the largest length. -/
def fullWorld : World :=
  (layout sampleRoot).write sampleWorld (.posters (.list 0)) (U256.ofU64 (BitVec.allOnes 64))

/-- The store represents the ledger with the full list. -/
theorem fullWorld_represents : Represents sampleRoot Set.univ fullWorld fullLedger :=
  sampleWorld_represents.writeTable sampleRoot_layout_apart (.posters (.list 0)) trivial _
    fullLedger.toPosterTable rfl (fun _ => Or.inl) (fun _ => L1Key.noConfusion)
    fun k' x hne hx => by
      rcases k' with s | _ | (i | a) | q | q
      case posters.list =>
        have hi : i ≠ 0 := fun h => hne (h ▸ rfl)
        show x = if i = 0 then U256.ofU64 (BitVec.allOnes 64) else sampleLedger.member i
        simpa only [EncodesTable, if_neg hi] using hx
      all_goals exact hx

/-- Two updates of version 10 that do not do as the time check asks. One is later than the
current time, but the set is full and its poster is new: the registration panics. The times of
the other one are accepted, but the payment of rewards is refused: the time of the last update
stays at zero. -/
theorem not_update_times_sample :
    ((9 : U64) > 8 ∧ (World.run ((openL1PricingState sampleRoot 10).updateForBatchPosterSpending 10
      9 8 7 64 0) fullWorld).1 = .panic "attempt to add with overflow")
    ∧ ¬richLedger.Rejects 10 5 5
    ∧ Represents sampleRoot Set.univ richWorld richLedger
    ∧ ∃ next, World.run ((openL1PricingState sampleRoot 10).updateForBatchPosterSpending 10 5 5 7 64
        0) richWorld = (.panic ("transfer_from_l1_fees_available: EVM balance transfer failed: "
          ++ TransferError.overflowPayment.debug), next)
      ∧ World.run (openL1PricingState sampleRoot 10).lastUpdateTime next = (.ok 0, next) := by
  refine ⟨⟨by decide, ?_⟩, ?_, richWorld_represents, ?_⟩
  · obtain ⟨w', hrun, -⟩ := anyUpdate_realizes sampleRoot_layout_apart 10 fullLedger 10 9 8
      (Set.mem_univ 7) 64 0 fullWorld fullWorld_represents
    have hpanic : (fullLedger.update 10 9 8 7 64 0).1 = .panic "attempt to add with overflow" := by
      decide +kernel
    exact (congrArg Prod.fst hrun).trans hpanic
  · unfold L1Ledger.Rejects
    decide +kernel
  · obtain ⟨w', hrun, hR'⟩ := anyUpdate_realizes sampleRoot_layout_apart 10 richLedger 10 5 5
      (Set.mem_univ 7) 64 0 richWorld richWorld_represents
    have hpanic : (richLedger.update 10 5 5 7 64 0).1
        = .panic ("transfer_from_l1_fees_available: EVM balance transfer failed: "
          ++ TransferError.overflowPayment.debug) := by
      decide +kernel
    have htime : (richLedger.update 10 5 5 7 64 0).2.lastUpdateTime = 0 := by decide +kernel
    refine ⟨w', ?_, ?_⟩
    · rw [← hpanic]
      exact hrun
    · rw [← htime]
      exact StorageBackedUint64.run_get _ (hR'.scalar .lastUpdateTime)

end L1Pricing

end ArbReth
