import ArbReth.L1Pricing.LegacyLedger
import ArbReth.Proofs.L1Pricing.Update

/-!
# `ArbReth.Proofs.L1Pricing.LegacyUpdate`: the update of every version on the ledger

`preVersion2_realizes` says that the update before version 2 ends in the ledger
`L1Ledger.legacySpend`, for every ledger and all arguments. `anyUpdate_realizes` adds the
later versions, so `L1Ledger.update` is the update of every version.

The list of the posters is read as it is in the slots. The loop over it is by induction,
and a payment that is refused or a slot that does not hold a poster ends it.
-/

set_option autoImplicit false

namespace ArbReth

open ArbReth.Program

namespace L1Ledger
variable {L : L1Ledger}

/-- The update compares the times the other way to reject them. -/
theorem not_legacyTimeOk_iff {updateTime currentTime : U64} :
    ¬L.LegacyTimeOk updateTime currentTime
      ↔ currentTime ≤ updateTime ∨ updateTime < L.legacyLastTime updateTime currentTime := by
  rw [LegacyTimeOk, not_and_or, BitVec.not_le, BitVec.not_lt]
  exact or_comm

/-- The period of an accepted update is not empty, and the update is for a part of it. -/
theorem legacy_period {updateTime currentTime : U64} (h : L.LegacyTimeOk updateTime currentTime) :
    (L.legacyNumerator updateTime currentTime).toNat
        ≤ (L.legacyDenominator updateTime currentTime).toNat
      ∧ 0 < (L.legacyDenominator updateTime currentTime).toNat := by
  obtain ⟨h₁, h₂⟩ := h
  rw [BitVec.le_def] at h₁
  rw [BitVec.lt_def] at h₂
  have hnum : (L.legacyNumerator updateTime currentTime).toNat
      = updateTime.toNat - (L.legacyLastTime updateTime currentTime).toNat :=
    BitVec.toNat_sub_of_le (BitVec.le_def.mpr h₁)
  have hden : (L.legacyDenominator updateTime currentTime).toNat
      = currentTime.toNat - (L.legacyLastTime updateTime currentTime).toNat :=
    BitVec.toNat_sub_of_le (by rw [BitVec.le_def]; omega)
  omega

/-- A share of the units is no more than the units. -/
theorem share_le {updateTime currentTime : U64} (h : L.LegacyTimeOk updateTime currentTime)
    (n : Nat) :
    n * (L.legacyNumerator updateTime currentTime).toNat
        / (L.legacyDenominator updateTime currentTime).toNat ≤ n := by
  obtain ⟨hle, hpos⟩ := legacy_period h
  calc n * (L.legacyNumerator updateTime currentTime).toNat
          / (L.legacyDenominator updateTime currentTime).toNat
      ≤ n * (L.legacyDenominator updateTime currentTime).toNat
          / (L.legacyDenominator updateTime currentTime).toNat :=
        Nat.div_le_div_right (Nat.mul_le_mul_left _ hle)
    _ = n := Nat.mul_div_cancel _ hpos

/-- The units that fall to the update are the exact quotient: it fits in 64 bits. -/
theorem toNat_legacyAllocated {updateTime currentTime : U64}
    (h : L.LegacyTimeOk updateTime currentTime) :
    (L.legacyAllocated updateTime currentTime).toNat
      = L.unitsSinceUpdate.toNat * (L.legacyNumerator updateTime currentTime).toNat
        / (L.legacyDenominator updateTime currentTime).toNat := by
  have hle := share_le h L.unitsSinceUpdate.toNat
  have hlt := L.unitsSinceUpdate.isLt
  rw [legacyAllocated, BitVec.toNat_ofNat, Nat.mod_eq_of_lt (by omega)]

/-- An accepted update takes no more units than there are. -/
theorem legacyAllocated_le {updateTime currentTime : U64}
    (h : L.LegacyTimeOk updateTime currentTime) :
    L.legacyAllocated updateTime currentTime ≤ L.unitsSinceUpdate := by
  rw [BitVec.le_def, toNat_legacyAllocated h]
  exact share_le h _

/-! ### The ways the payments end -/

section
variable [Keccak] {updateTime units : U64} {availableFunds : U256} {oldSurplus : I256}

/-- The ledger after the rewards are paid. -/
def legacyPaidRewards (L : L1Ledger) (availableFunds : U256) (units : U64) : L1Ledger :=
  (L.debitRewards (L.legacyReward availableFunds units)).pay .pool L.payRewardsTo
    (L.legacyReward availableFunds units)

/-- A refused reward ends the payments. -/
theorem legacyPayAll_of_refused {e : TransferError}
    (h : (L.debitRewards (L.legacyReward availableFunds units)).refusal L.payRewardsTo
      (L.legacyReward availableFunds units) = some e) :
    L.legacyPayAll updateTime units availableFunds oldSurplus
      = (.panic ("pre_version2: rewards transfer failed: " ++ e.debug),
          (L.debitRewards (L.legacyReward availableFunds units)).transferred L.payRewardsTo
          (L.legacyReward availableFunds units)) := by
  unfold legacyPayAll
  simp only [show (L.debitRewards (L.legacyReward availableFunds units)).payRewardsTo
    = L.payRewardsTo from rfl, h]

/-- After an accepted reward the posters are paid in order. -/
theorem legacyPayAll_of_accepted
    (h : (L.debitRewards (L.legacyReward availableFunds units)).refusal L.payRewardsTo
      (L.legacyReward availableFunds units) = none) :
    L.legacyPayAll updateTime units availableFunds oldSurplus
      = match settleAll L.posterList (availableFunds - L.legacyReward availableFunds units)
          (L.legacyPaidRewards availableFunds units) with
        | (.ok (), L₂) =>
            (.ok (), { L₂ with lastUpdateTime := updateTime }.legacyAdjustPrice oldSurplus units)
        | r => r := by
  unfold legacyPayAll
  simp only [show (L.debitRewards (L.legacyReward availableFunds units)).payRewardsTo
    = L.payRewardsTo from rfl, h]
  rfl

/-- What the end of the update keeps is as the payments leave it, also when one of them is
refused. -/
theorem legacyPayAll_keeps {α : Type} (g : L1Ledger → α)
    (hg : ∀ L₂ : L1Ledger,
      g ({ L₂ with lastUpdateTime := updateTime }.legacyAdjustPrice oldSurplus units) = g L₂)
    (h : (L.debitRewards (L.legacyReward availableFunds units)).refusal L.payRewardsTo
      (L.legacyReward availableFunds units) = none) :
    g (L.legacyPayAll updateTime units availableFunds oldSurplus).2
      = g (settleAll L.posterList (availableFunds - L.legacyReward availableFunds units)
          (L.legacyPaidRewards availableFunds units)).2 := by
  rw [legacyPayAll_of_accepted h]
  rcases settleAll L.posterList (availableFunds - L.legacyReward availableFunds units)
    (L.legacyPaidRewards availableFunds units) with ⟨u | e | m, L₂⟩
  · exact hg L₂
  · rfl
  · rfl

end

end L1Ledger

namespace L1Pricing
variable [Keccak]

/-! ### The posters -/

section
variable {sto : Storage} {A : Set Address} (version : U64) (L : L1Ledger)

/-- The loop over the list of the posters reads the slots. -/
theorem run_membersFrom {w : World} (hR : Represents sto A w L) (i count : Nat)
    (hle : i + count < 2 ^ 64) :
    World.run ((BatchPostersTable.open (tableSpace sto)).posterAddrs.membersFrom i count) w
      = (.ok ((List.range' i count).map fun j => rawToAddr (L.member (BitVec.ofNat 64 (j + 1)))),
          w) := by
  induction count generalizing i with
  | zero => rfl
  | succ count ih =>
      have hne : BitVec.ofNat 64 (i + 1) ≠ 0 := by bv_omega
      have hread : World.run
          ((BatchPostersTable.open (tableSpace sto)).posterAddrs.backingStorage.readSlot
            (BitVec.ofNat 64 (i + 1))) w = (.ok (L.member (BitVec.ofNat 64 (i + 1))), w) :=
        congrArg (fun v => (Outcome.ok v, w)) (hR.read_member hne)
      rw [AddressSet.membersFrom, World.run_bind_ok hread,
        World.run_bind_ok (ih (i + 1) (by omega))]
      rfl

/-- All posters are listed. -/
theorem run_allPosters {w : World} (hR : Represents sto A w L) :
    World.run ((openL1PricingState sto version).batchPosterTable.allPosters (BitVec.allOnes 64)) w
      = (.ok L.posterList, w) := by
  have hsize : World.run (BatchPostersTable.open (tableSpace sto)).posterAddrs.sizeCell.get w
      = (.ok L.count, w) := StorageBackedUint64.run_get _ hR.read_size
  have hcount : (minWord L.count (BitVec.allOnes 64)).toNat = L.count.toNat := by
    have hlt := L.count.isLt
    rw [toNat_minWord]
    simp only [BitVec.toNat_allOnes]
    omega
  refine (World.run_bind_ok hsize _).trans ?_
  rw [hcount, L1Ledger.posterList, List.range_eq_range']
  exact run_membersFrom L hR 0 L.count.toNat (by have := L.count.isLt; omega)

/-- Listing the posters reads the list. -/
theorem allPosters_realizes :
    Realizes World.handle (Represents sto A)
      ((openL1PricingState sto version).batchPosterTable.allPosters (BitVec.allOnes 64)) L
      (.ok L.posterList) L :=
  realizes_of_run fun _ hR => run_allPosters version L hR

/-- The record of a registered poster is opened. -/
theorem run_openMember {w : World} (hR : Represents sto A w L) {p : Address} (hp : L.IsPoster p) :
    World.run ((BatchPostersTable.open (tableSpace sto)).openPoster p false) w
      = (.ok (record sto p), w) := by
  have hmember := run_isMember hR p
  rw [decide_eq_true hp] at hmember
  rw [BatchPostersTable.openPoster, World.run_bind_ok (World.run_mapErr_ok hmember _)]
  rfl

/-- A poster of the list is opened. -/
theorem openMember_realizes {p : Address} (hp : L.IsPoster p) :
    Realizes World.handle (Represents sto A)
      ((BatchPostersTable.open (tableSpace sto)).openPoster p false) L (.ok (record sto p)) L :=
  realizes_of_run fun _ hR => run_openMember L hR hp

/-- An address outside the list is not opened. -/
theorem openMember_rejects {p : Address} (hp : ¬L.IsPoster p) :
    Realizes World.handle (Represents sto A)
      ((BatchPostersTable.open (tableSpace sto)).openPoster p false) L
      (.err (.semantic .notExist)) L := by
  have hmember := isMember_realizes sto A L p
  rw [decide_eq_false hp] at hmember
  exact .bind (.mapErr hmember) (.fail _)

end

/-! ### The payments to the posters -/

section
variable {sto : Storage} {A : Set Address} (hslots : (layout sto).Apart (L1Key.Among A))
  (version : U64)
include hslots

/-- The loop over the posters. -/
theorem preVersion2SettlePosters_realizes (posters : List Address) (availableFunds : U256)
    (L : L1Ledger) :
    Realizes World.handle (Represents sto A)
      ((openL1PricingState sto version).preVersion2SettlePosters posters availableFunds) L
      (L1Ledger.settleAll posters availableFunds L).1
      (L1Ledger.settleAll posters availableFunds L).2 := by
  induction posters generalizing availableFunds L with
  | nil => exact .pure _
  | cons p posters ih =>
      unfold L1PricingState.preVersion2SettlePosters L1Ledger.settleAll
      by_cases hp : L.IsPoster p
      swap
      -- the slot of the list does not hold a poster
      · rw [if_pos hp]
        exact .bind_panic (.handleErr_err (openMember_rejects L hp) (.panic _))
      rw [if_neg (not_not.mpr hp)]
      -- a poster is an account whose record is in slots of its own
      refine realizes_of_among fun hamong => ?_
      have hpA : p ∈ A := hamong p hp
      refine .bind (.handleErr (openMember_realizes L hp)) (.bind (fundsDue_realizes L p) ?_)
      dsimp only
      unfold L1Ledger.legacyPayment
      by_cases hdue : (L.fundsDue p).isPositive = true
      swap
      · rw [if_neg hdue, if_neg hdue, if_pos rfl]
        exact ih availableFunds L
      rw [if_pos hdue, if_pos hdue]
      generalize hamount : minWord (L.fundsDue p).toU256 availableFunds = amount
      by_cases hzero : amount = 0
      · rw [if_pos hzero, hzero, if_neg (by simp)]
        exact ih availableFunds L
      have hpos : 0 < amount := by
        rw [BitVec.lt_def]
        exact Nat.pos_of_ne_zero fun h => hzero (BitVec.eq_of_toNat_eq h)
      rw [if_neg hzero, if_pos hpos]
      refine .bind (payTo_realizes L p) ?_
      cases hrefusal : L.refusal (L.payTo p) amount with
      | some e => exact .bind_panic (payFromPool_refused _ hrefusal)
      | none =>
          refine .bind (payFromPool_realizes _ hrefusal) ?_
          -- the amount is at most what is due, so the checked subtraction is exact
          have hle : (amount.toNat : Int) ≤ (L.fundsDue p).toInt := by
            have hnonneg : 0 ≤ (L.fundsDue p).toInt := by
              have := (I256.isPositive_iff _).mp hdue
              omega
            rw [← I256.toNat_toU256 hnonneg, ← hamount, toNat_minWord]
            omega
          have hlt := (L.fundsDue p).toInt_lt
          have hrange : I256.InRange ((L.fundsDue p).toInt - (I256.ofU256 amount).toInt) := by
            rw [I256.toInt_ofU256]
            constructor <;> omega
          have hsub : Realizes World.handle (Represents sto A)
              ((L.fundsDue p).checkedSub (I256.ofU256 amount) : Exec DbError I256)
              (L.pay .pool (L.payTo p) amount)
              (.ok ((L.fundsDue p).saturatingSub (I256.ofU256 amount)))
              (L.pay .pool (L.payTo p) amount) := by
            rw [I256.checkedSub, if_pos hrange]
            exact .pure _
          exact .bind hsub (.bind (setFundsDue_realizes hslots _ hpA _) (ih _ _))

/-! ### The price -/

/-- The price before version 2 is that of the ledger. -/
theorem preVersion2AdjustPrice_realizes (L : L1Ledger) (oldSurplus : I256) (units : U64) :
    Realizes World.handle (Represents sto A)
      ((openL1PricingState sto version).preVersion2AdjustPrice oldSurplus units) L (.ok ())
      (L.legacyAdjustPrice oldSurplus units) := by
  unfold L1PricingState.preVersion2AdjustPrice L1Ledger.legacyAdjustPrice
  by_cases hunits : 0 < units
  swap
  · rw [if_neg hunits, if_neg hunits]
    exact .pure _
  rw [if_pos hunits, if_pos hunits]
  refine .bind (totalFundsDue_realizes version L) ?_
  refine .bind (fundsDueForRewards_realizes version L) (.bind (poolBalance_realizes L) ?_)
  refine .bind (inertia_realizes version L) (.bind (equilibrationUnits_realizes version L) ?_)
  simp only [expectI256_eq]
  -- a divisor that is not zero is never refused
  have hinertia : Realizes World.handle (Represents sto A)
      (if L.inertia = 0 then pure I256.zero
        else do
          let inertia ← pure (I256.ofU256 (U256.ofU64 L.inertia))
          (I256.ofU256 L.equilibrationUnits).wrappingDiv inertia : Exec DbError I256) L
      (.ok (if L.inertia = 0 then I256.zero
        else (I256.ofU256 L.equilibrationUnits).wrappingQuot
          (I256.ofU256 (U256.ofU64 L.inertia)))) L := by
    by_cases hzero : L.inertia = 0
    · rw [if_pos hzero, if_pos hzero]
      exact .pure _
    · rw [if_neg hzero, if_neg hzero]
      have hpos : L.inertia.toNat ≠ 0 := fun h => hzero (BitVec.eq_of_toNat_eq h)
      have hne : (I256.ofU256 (U256.ofU64 L.inertia)).toInt ≠ 0 := by
        rw [I256.toInt_ofU256_ofU64]
        omega
      refine .bind (.pure _) ?_
      rw [I256.wrappingDiv, if_neg hne]
      exact .pure _
  refine .bind_ite hinertia ?_
  refine .bind (pricePerUnit_realizes version L) (.bind (.pure _) ?_)
  unfold legacyPriceChangeOf
  dsimp only
  generalize (I256.ofU256 L.equilibrationUnits).saturatingMul _ = denom
  refine .bind_ite (a := if denom.isZero then I256.zero else _) ?_
    (setPricePerUnit_realizes hslots version L _)
  by_cases hzero : denom.isZero = true
  · rw [if_pos hzero, if_pos hzero]
    exact .pure _
  · rw [if_neg hzero, if_neg hzero]
    have hne : denom.toInt ≠ 0 := fun h => hzero ((I256.isZero_iff _).mpr h)
    rw [I256.wrappingDiv, if_neg hne]
    exact .pure _

/-! ### The update -/

/-- The update before version 2, from the payments to the end. -/
theorem preVersion2PayAll_realizes (L : L1Ledger) (updateTime units : U64) (availableFunds : U256)
    (oldSurplus : I256) :
    Realizes World.handle (Represents sto A)
      (do
        (openL1PricingState sto version).setFundsDueForRewards
          (L.fundsDueForRewards.saturatingSub
            (I256.ofU256 (L.legacyReward availableFunds units)))
        let payRewardsTo ← (openL1PricingState sto version).payRewardsTo
        L1PricingState.payFromPool "pre_version2: rewards transfer failed: " payRewardsTo
          (L.legacyReward availableFunds units)
        let allPosterAddrs ←
          (openL1PricingState sto version).batchPosterTable.allPosters (BitVec.allOnes 64)
        (openL1PricingState sto version).preVersion2SettlePosters allPosterAddrs
          (availableFunds - L.legacyReward availableFunds units)
        (openL1PricingState sto version).setLastUpdateTime updateTime
        (openL1PricingState sto version).preVersion2AdjustPrice oldSurplus units)
      L (L.legacyPayAll updateTime units availableFunds oldSurplus).1
      (L.legacyPayAll updateTime units availableFunds oldSurplus).2 := by
  refine .bind (setFundsDueForRewards_realizes hslots version L _) ?_
  refine .bind (payRewardsTo_realizes version _) ?_
  cases hrewards : (L.debitRewards (L.legacyReward availableFunds units)).refusal L.payRewardsTo
      (L.legacyReward availableFunds units) with
  | some e =>
      rw [L1Ledger.legacyPayAll_of_refused hrewards]
      exact .bind_panic (payFromPool_refused _ hrewards)
  | none =>
      rw [L1Ledger.legacyPayAll_of_accepted hrewards]
      have hpaid : Realizes World.handle (Represents sto A)
          (L1PricingState.payFromPool "pre_version2: rewards transfer failed: " L.payRewardsTo
            (L.legacyReward availableFunds units))
          (L.debitRewards (L.legacyReward availableFunds units)) (.ok ())
          (L.legacyPaidRewards availableFunds units) :=
        payFromPool_realizes _ hrewards
      have hlist : (L.legacyPaidRewards availableFunds units).posterList = L.posterList := rfl
      have hloop := preVersion2SettlePosters_realizes hslots version L.posterList
        (availableFunds - L.legacyReward availableFunds units)
        (L.legacyPaidRewards availableFunds units)
      refine .bind hpaid (.bind (allPosters_realizes version _) ?_)
      rw [hlist]
      rcases hall : L1Ledger.settleAll L.posterList
        (availableFunds - L.legacyReward availableFunds units)
        (L.legacyPaidRewards availableFunds units) with ⟨u | e | m, L₂⟩ <;>
        rw [hall] at hloop
      · refine .bind hloop (.bind (setLastUpdateTime_realizes hslots version _ _) ?_)
        exact preVersion2AdjustPrice_realizes hslots version _ _ _
      · exact .bind_err hloop
      · exact .bind_panic hloop

/-- The update before version 2, for every ledger and all arguments. -/
theorem preVersion2_realizes (L : L1Ledger) (updateTime currentTime : U64) {p : Address}
    (hp : p ∈ A) (weiSpent : U256) :
    Realizes World.handle (Represents sto A)
      ((openL1PricingState sto version).preVersion2UpdateForBatchPosterSpending updateTime
        currentTime p weiSpent) L
      (L.legacySpend updateTime currentTime p weiSpent).1
      (L.legacySpend updateTime currentTime p weiSpent).2 := by
  unfold L1PricingState.preVersion2UpdateForBatchPosterSpending L1Ledger.legacySpend
  by_cases hfull : ¬L.IsPoster p ∧ L.count = BitVec.allOnes 64
  · rw [if_pos hfull]
    exact .bind_panic (.handleErr_panic (openPoster_panics hslots L hp hfull.1 hfull.2))
  rw [if_neg hfull]
  refine .bind (.handleErr (openPoster_realizes hslots L hp (room_of_not_full hfull))) ?_
  -- From here on the poster is registered.
  generalize L.register p = L₁
  refine .bind (totalFundsDue_realizes version L₁) ?_
  refine .bind (fundsDueForRewards_realizes version L₁) (.bind (poolBalance_realizes L₁) ?_)
  refine .bind (lastUpdateTime_realizes version L₁) ?_
  have hlastTime : (if L₁.lastUpdateTime = 0 ∧ 0 < currentTime then updateTime - 1
      else L₁.lastUpdateTime) = L₁.legacyLastTime updateTime currentTime := rfl
  simp only [hlastTime]
  by_cases htime : L₁.LegacyTimeOk updateTime currentTime
  swap
  · rw [if_pos (L1Ledger.not_legacyTimeOk_iff.mp htime), if_pos htime]
    exact .pure _
  rw [if_neg fun hreject => L1Ledger.not_legacyTimeOk_iff.mpr hreject htime,
    if_neg (not_not.mpr htime)]
  obtain ⟨-, hpos⟩ := L1Ledger.legacy_period htime
  have hle := L1Ledger.legacyAllocated_le htime
  have hlast : L₁.legacyLastTime updateTime currentTime ≤ currentTime := by
    have h₁ := htime.1
    have h₂ := htime.2
    rw [BitVec.le_def] at h₁ ⊢
    rw [BitVec.lt_def] at h₂
    omega
  refine .bind (checkedSub_realizes L₁ htime.1) (.bind (checkedSub_realizes L₁ hlast) ?_)
  have hden : ¬currentTime - L₁.legacyLastTime updateTime currentTime = 0 := by
    intro h
    have hzero : L₁.legacyDenominator updateTime currentTime = 0 := h
    rw [hzero] at hpos
    exact absurd hpos (by decide)
  simp only [if_neg hden]
  -- the period is not empty, so no case of the source is left out
  refine .bind (unitsSinceUpdate_realizes version L₁) (.bind (checkedSub_realizes L₁ hle) ?_)
  refine .bind (setUnitsSinceUpdate_realizes hslots version L₁ _) ?_
  refine .bind (creditPoster_realizes _ hslots hp weiSpent) ?_
  refine .bind (accrueRewards_realizes version _ hslots _) ?_
  refine .bind (poolBalance_realizes _) ?_
  exact preVersion2PayAll_realizes hslots version (L₁.legacyAccount _ p weiSpent) _ _ _ _

/-- The update of every version, for every ledger and all arguments. -/
theorem anyUpdate_realizes (L : L1Ledger) (arbosVersion updateTime currentTime : U64)
    {p : Address} (hp : p ∈ A) (weiSpent l1Basefee : U256) :
    Realizes World.handle (Represents sto A)
      ((openL1PricingState sto version).updateForBatchPosterSpending arbosVersion updateTime
        currentTime p weiSpent l1Basefee) L
      (L.update arbosVersion updateTime currentTime p weiSpent l1Basefee).1
      (L.update arbosVersion updateTime currentTime p weiSpent l1Basefee).2 := by
  unfold L1Ledger.update
  by_cases htwo : arbosVersion < arbosVersion2
  swap
  · rw [if_neg htwo]
    exact update_realizes hslots version L (BitVec.not_lt.mp htwo) _ _ hp _ _
  rw [if_pos htwo]
  have hten : arbosVersion < arbosVersion10 := by
    rw [BitVec.lt_def] at htwo ⊢
    exact htwo.trans (by decide)
  have hlegacy := preVersion2_realizes hslots version L updateTime currentTime hp weiSpent
  -- the delegation converts the error
  refine .ite_pos hten (.ite_pos htwo ?_)
  rcases hspend : L.legacySpend updateTime currentTime p weiSpent with ⟨u | e | m, L'⟩ <;>
    rw [hspend] at hlegacy
  · exact .mapErr hlegacy
  · exact .handleErr_err hlegacy (.fail _)
  · exact .mapErr_panic hlegacy

end

end L1Pricing

end ArbReth
