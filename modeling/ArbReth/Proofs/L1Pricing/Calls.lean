import ArbReth.L1Pricing.Calls
import ArbReth.Proofs.L1Pricing.Aggregate
import ArbReth.Proofs.L1Pricing.Footprint
import ArbReth.Proofs.L1Pricing.StoredSurplus

/-!
# `ArbReth.Proofs.L1Pricing.Calls`: the interface of the L1 pricer refines the ledger

Each call of the L1 pricer ends as on the ledger, from each world that represents one and
with each argument, also when it fails or panics half-way. There are no provisos: sets that
are full, payments that are refused and lists with accounts that are no posters are part of
the ledger. `calls_refine` is the run of any sequence of calls after the initialization.
-/

set_option autoImplicit false

namespace ArbReth

open ArbReth.Program

/-- A call that writes the record of an account writes one of `A`. -/
def L1Call.Among (A : Set Address) : L1Call → Prop
  | .addPoster p _ => p ∈ A
  | .openPoster p create => create = true → p ∈ A
  | .setFundsDue p _ => p ∈ A
  | .setPayTo p _ => p ∈ A
  | .updateForBatchPosterSpending _ _ _ p _ _ => p ∈ A
  | _ => True

namespace L1Pricing
variable [Keccak]

section
variable {sto : Storage} {A : Set Address} (version : U64) (L : L1Ledger)

/-! ### Queries -/

/-- The cost of a batch is read from its cell. -/
theorem perBatchGasCost_realizes :
    Realizes World.handle (Represents sto A) (openL1PricingState sto version).perBatchGasCost L
      (.ok L.perBatchGasCost) L := by
  refine realizes_of_run fun w hR => ?_
  have hword : w.store sto.account (sto.mapAddress perBatchGasCostOffset)
      = U256.ofU64 L.perBatchGasCost := hR.scalar .perBatchGasCost
  exact StorageSlot.run_getWord _ hword (Nat.le_pred_of_lt L.perBatchGasCost.isLt) _

/-- Before version 50 the slot is not read. -/
theorem parentGasFloorPerToken_realizes :
    Realizes World.handle (Represents sto A)
      (openL1PricingState sto version).parentGasFloorPerToken L
      (.ok (if version < arbosVersion50 then 0 else L.gasFloorPerToken)) L := by
  by_cases hold : version < arbosVersion50
  · rw [if_pos hold]
    exact .ite_pos hold (.pure 0)
  · rw [if_neg hold]
    exact .ite_neg hold
      (realizes_of_run fun _ hR => StorageBackedUint64.run_get _ (hR.scalar .gasFloorPerToken))

/-- The first posters of the list. -/
theorem somePosters_realizes (max : U64) :
    Realizes World.handle (Represents sto A)
      ((openL1PricingState sto version).batchPosterTable.allPosters max) L
      (.ok (L.posterList.take max.toNat)) L := by
  refine realizes_of_run fun w hR => ?_
  have hsize : World.run (BatchPostersTable.open (tableSpace sto)).posterAddrs.sizeCell.get w
      = (.ok L.count, w) := StorageBackedUint64.run_get _ hR.read_size
  have hbound : 0 + (minWord L.count max).toNat < 2 ^ 64 := by
    have hlt := (minWord L.count max).isLt
    omega
  have htake : L.posterList.take max.toNat
      = (List.range' 0 (minWord L.count max).toNat).map
        fun j => rawToAddr (L.member (BitVec.ofNat 64 (j + 1))) := by
    rw [L1Ledger.posterList, ← List.map_take, List.take_range, ← List.range_eq_range',
      toNat_minWord, Nat.min_comm]
  rw [htake]
  exact (World.run_bind_ok hsize _).trans (run_membersFrom L hR 0 _ hbound)

/-- The loop over the posters opens each of them, and ends at the first that is none. -/
theorem fundsDueItems_realizes (posters : List Address) :
    Realizes World.handle (Represents sto A)
      ((BatchPostersTable.open (tableSpace sto)).fundsDueItems posters) L
      (L1Query.fundsDueItems L posters) L := by
  induction posters with
  | nil =>
      rw [L1Query.fundsDueItems, if_pos fun p hp => absurd hp List.not_mem_nil]
      exact .pure []
  | cons p posters ih =>
      unfold L1Query.fundsDueItems at ih ⊢
      rw [BatchPostersTable.fundsDueItems]
      by_cases hp : L.IsPoster p
      swap
      · have hnot : ¬∀ q ∈ p :: posters, L.IsPoster q := fun h => hp (h p List.mem_cons_self)
        rw [if_neg hnot]
        exact .bind_err (openMember_rejects L hp)
      refine .bind (openMember_realizes L hp) (.bind (.mapErr (fundsDue_realizes L p)) ?_)
      by_cases hrest : ∀ q ∈ posters, L.IsPoster q
      · rw [if_pos hrest] at ih
        have hall : ∀ q ∈ p :: posters, L.IsPoster q := by
          intro q hq
          rcases List.mem_cons.mp hq with rfl | hq
          · exact hp
          · exact hrest q hq
        rw [if_pos hall]
        refine .bind ih ?_
        by_cases hpos : (L.fundsDue p).isPositive
        · rw [List.filter_cons_of_pos (by simpa using hpos)]
          exact .ite_pos hpos (.pure _)
        · rw [List.filter_cons_of_neg (by simpa using hpos)]
          exact .ite_neg hpos (.pure _)
      · have hnot : ¬∀ q ∈ p :: posters, L.IsPoster q := fun h =>
          hrest fun q hq => h q (List.mem_cons_of_mem p hq)
        rw [if_neg hrest] at ih
        rw [if_neg hnot]
        exact .bind_err ih

/-- The amounts due are listed poster by poster. -/
theorem getFundsDueList_realizes :
    Realizes World.handle (Represents sto A)
      (openL1PricingState sto version).batchPosterTable.getFundsDueList L
      (L1Query.fundsDueItems L L.posterList) L :=
  .bind (.mapErr (allPosters_realizes version L)) (fundsDueItems_realizes L L.posterList)

/-- Each query has the answer of the ledger. -/
theorem query_realizes (q : L1Query) :
    Realizes World.handle (Represents sto A) (q.program (openL1PricingState sto version)) L
      (q.answer version L) L := by
  cases q with
  | payRewardsTo => exact Exec.reply_realizes _ _ (payRewardsTo_realizes version L)
  | equilibrationUnits => exact Exec.reply_realizes _ _ (equilibrationUnits_realizes version L)
  | inertia => exact Exec.reply_realizes _ _ (inertia_realizes version L)
  | perUnitReward => exact Exec.reply_realizes _ _ (perUnitReward_realizes version L)
  | lastUpdateTime => exact Exec.reply_realizes _ _ (lastUpdateTime_realizes version L)
  | fundsDueForRewards => exact Exec.reply_realizes _ _ (fundsDueForRewards_realizes version L)
  | unitsSinceUpdate => exact Exec.reply_realizes _ _ (unitsSinceUpdate_realizes version L)
  | pricePerUnit => exact Exec.reply_realizes _ _ (pricePerUnit_realizes version L)
  | lastSurplus => exact Exec.reply_realizes _ _ (lastSurplus_realizes version L)
  | perBatchGasCost => exact Exec.reply_realizes _ _ (perBatchGasCost_realizes version L)
  | amortizedCostCapBips =>
      exact Exec.reply_realizes _ _ (amortizedCostCapBips_realizes version L)
  | l1FeesAvailable => exact Exec.reply_realizes _ _ (l1FeesAvailable_realizes version L)
  | parentGasFloorPerToken =>
      exact Exec.reply_realizes _ _ (parentGasFloorPerToken_realizes version L)
  | getL1PricingSurplus => exact Exec.reply_realizes _ _ (getL1PricingSurplus_realizes version L)
  | totalFundsDue => exact Exec.reply_realizes _ _ (totalFundsDue_realizes version L)
  | containsPoster p => exact Exec.reply_realizes _ _ (isMember_realizes sto A L p)
  | allPosters max => exact Exec.reply_realizes _ _ (somePosters_realizes version L max)
  | getFundsDueList =>
      rw [L1Query.answer]
      exact Exec.reply_realizes _ _ (getFundsDueList_realizes version L)
  | fundsDue p => exact Exec.reply_realizes _ _ (fundsDue_realizes L p)
  | payTo p => exact Exec.reply_realizes _ _ (payTo_realizes L p)

/-! ### Payments -/

/-- A payment of the EVM, between any two accounts. -/
theorem payment_realizes (src dst : Address) (amount : U256) :
    Realizes World.handle (Represents sto A) (Exec.transfer src dst amount) L
      (.ok (transferRefusal L.balance src dst amount)) (L1Call.pay L src dst amount) := by
  intro w hR
  have hrefusal : w.refusal src dst amount = transferRefusal L.balance src dst amount := by
    rw [World.refusal, hR.balance]
  have hrun := World.run_transfer w src dst amount
  rw [hrefusal] at hrun
  refine ⟨_, hrun, hR.writable, hR.among, ?_, hR.scalar, hR.table⟩
  show transferBalance w.balance _ _ _ = transferBalance L.balance _ _ _
  rw [hR.balance]

end

section
variable {sto : Storage} {A : Set Address} (hslots : (layout sto).Apart (L1Key.Among A))
  (version : U64) (L : L1Ledger)
include hslots

/-! ### Setters -/

/-- The floor is written from version 50 on. Before it the setter panics. -/
theorem setParentGasFloorPerToken_realizes (floor : U64) :
    Realizes World.handle (Represents sto A)
      ((openL1PricingState sto version).setParentGasFloorPerToken floor) L
      ((L1Setter.parentGasFloorPerToken floor).apply version L).1
      ((L1Setter.parentGasFloorPerToken floor).apply version L).2 := by
  unfold L1Setter.apply
  by_cases hnew : arbosVersion50 ≤ version
  · simp only [if_pos hnew]
    exact .ite_pos hnew (set_realizes hslots L .gasFloorPerToken _
      { L.toL1Scalars with gasFloorPerToken := floor } rfl
      fun s' x hne hx => by cases s' <;> first | exact hx | exact absurd rfl hne)
  · simp only [if_neg hnew]
    exact .ite_neg hnew (.panic _)

/-- Every setter realizes what it does to the ledger. -/
theorem setter_realizes (s : L1Setter) :
    Realizes World.handle (Represents sto A) (s.program (openL1PricingState sto version)) L
      (s.apply version L).1 (s.apply version L).2 := by
  cases s with
  | payRewardsTo a => exact setPayRewardsTo_realizes hslots version L a
  | equilibrationUnits v => exact setEquilibrationUnits_realizes hslots version L v
  | inertia v => exact setInertia_realizes hslots version L v
  | perUnitReward v => exact setPerUnitReward_realizes hslots version L v
  | lastUpdateTime v => exact setLastUpdateTime_realizes hslots version L v
  | fundsDueForRewards v => exact setFundsDueForRewards_realizes hslots version L v
  | unitsSinceUpdate v => exact setUnitsSinceUpdate_realizes hslots version L v
  | lastSurplus v arbosVersion => exact setLastSurplus_realizes hslots version L v arbosVersion
  | pricePerUnit v => exact setPricePerUnit_realizes hslots version L v
  | perBatchGasCost v => exact setPerBatchGasCost_realizes hslots version L v
  | amortizedCostCapBips v => exact setAmortizedCostCapBips_realizes hslots version L v
  | l1FeesAvailable v => exact setL1FeesAvailable_realizes hslots version L v
  | parentGasFloorPerToken floor =>
      exact setParentGasFloorPerToken_realizes hslots version L floor

/-! ### The posters -/

/-- The addition of an account that is no poster, to a set that may be full. -/
theorem insertNew_realizes {p : Address} (hpA : p ∈ A) (hnew : ¬L.IsPoster p) (q : Address) :
    Realizes World.handle (Represents sto A)
      (((BatchPostersTable.open (tableSpace sto)).addPoster p q).reply .ofOpen fun _ => .done) L
      (L1Call.insertNew L p q).1 (L1Call.insertNew L p q).2 := by
  unfold L1Call.insertNew
  by_cases hfull : L.count = BitVec.allOnes 64
  · simp only [if_pos hfull]
    exact Exec.reply_realizes _ _ (addPoster_panics hslots L hpA q hnew hfull)
  · simp only [if_neg hfull]
    exact Exec.reply_realizes _ _ (addPoster_realizes hslots L hpA q hnew hfull)

omit hslots in
/-- A poster is not added again. -/
theorem addPoster_rejects {p : Address} (hp : L.IsPoster p) (q : Address) :
    Realizes World.handle (Represents sto A)
      ((BatchPostersTable.open (tableSpace sto)).addPoster p q) L
      (.err (.semantic .alreadyExists)) L := by
  have hmember := isMember_realizes sto A L p
  rw [decide_eq_true hp] at hmember
  exact .bind (.mapErr hmember) (.fail _)

/-- An addition realizes what it does to the ledger. -/
theorem addPosterCall_realizes {p : Address} (hpA : p ∈ A) (q : Address) :
    Realizes World.handle (Represents sto A)
      ((L1Call.addPoster p q).program (openL1PricingState sto version)) L
      ((L1Call.addPoster p q).apply version L).1 ((L1Call.addPoster p q).apply version L).2 := by
  unfold L1Call.apply
  by_cases hp : L.IsPoster p
  · simp only [if_pos hp]
    exact Exec.reply_realizes _ _ (addPoster_rejects L hp q)
  · simp only [if_neg hp]
    exact insertNew_realizes hslots L hpA hp q

/-- Opening a poster realizes what it does to the ledger, with or without leave to create. -/
theorem openPosterCall_realizes {p : Address} {create : Bool} (hpA : create = true → p ∈ A) :
    Realizes World.handle (Represents sto A)
      ((L1Call.openPoster p create).program (openL1PricingState sto version)) L
      ((L1Call.openPoster p create).apply version L).1
      ((L1Call.openPoster p create).apply version L).2 := by
  have hmember := isMember_realizes sto A L p
  unfold L1Call.apply
  by_cases hp : L.IsPoster p
  · rw [decide_eq_true hp] at hmember
    have hopen : Realizes World.handle (Represents sto A)
        ((BatchPostersTable.open (tableSpace sto)).openPoster p create) L (.ok (record sto p)) L :=
      .bind (.mapErr hmember) (.pure _)
    simp only [if_pos hp]
    exact Exec.reply_realizes _ _ hopen
  simp only [if_neg hp]
  cases create with
  | false => exact Exec.reply_realizes _ _ (openMember_rejects L hp)
  | true =>
      rw [if_pos rfl]
      unfold L1Call.insertNew
      by_cases hfull : L.count = BitVec.allOnes 64
      · rw [if_pos hfull]
        exact Exec.reply_realizes _ _ (openPoster_panics hslots L (hpA rfl) hp hfull)
      · have hopen := openPoster_realizes hslots L (hpA rfl) (Or.inr hfull)
        rw [L.registerWith_self hp] at hopen
        rw [if_neg hfull]
        exact Exec.reply_realizes _ _ hopen

/-- The payment of the pricer. When the counter is too small, the funds have moved before
the call panics. -/
theorem transferOut_realizes (recipient : Address) (amount : U256) :
    Realizes World.handle (Represents sto A)
      ((L1Call.transferFromL1FeesAvailable recipient amount).program
        (openL1PricingState sto version)) L
      (L1Call.transferOut L recipient amount).1 (L1Call.transferOut L recipient amount).2 := by
  unfold L1Call.transferOut
  cases hrefusal : L.refusal recipient amount with
  | some err =>
      exact Exec.reply_realizes _ _ (transferFromL1FeesAvailable_refused version hrefusal)
  | none =>
      by_cases hle : amount ≤ L.l1FeesAvailable
      · simp only [if_pos hle]
        exact Exec.reply_realizes _ _
          (transferFromL1FeesAvailable_realizes version hslots hrefusal hle)
      · simp only [if_neg hle]
        have hpanic : Realizes World.handle (Represents sto A)
            ((openL1PricingState sto version).transferFromL1FeesAvailable recipient amount) L
            (.panic _) (L.pay .pool recipient amount) :=
          .bind (transfer_accepted hrefusal) <|
            .bind (l1FeesAvailable_realizes version (L.pay .pool recipient amount))
              (.ite_neg hle (.panic _))
        exact Exec.reply_realizes _ _ hpanic

/-! ### All calls -/

/-- Each call ends as on the ledger. -/
theorem call_realizes {c : L1Call} (hc : c.Among A) :
    Realizes World.handle (Represents sto A) (c.program (openL1PricingState sto version)) L
      (c.apply version L).1 (c.apply version L).2 := by
  cases c with
  | query q => exact query_realizes version L q
  | set s => exact Exec.reply_realizes _ _ (setter_realizes hslots version L s)
  | addToUnitsSinceUpdate units =>
      exact Exec.reply_realizes _ _ (addToUnitsSinceUpdate_realizes hslots version L units)
  | addToL1FeesAvailable delta =>
      exact Exec.reply_realizes _ _ (addToL1FeesAvailable_realizes hslots version L delta)
  | transferFromL1FeesAvailable recipient amount =>
      exact transferOut_realizes hslots version L recipient amount
  | addPoster p q => exact addPosterCall_realizes hslots version L hc q
  | openPoster p create => exact openPosterCall_realizes hslots version L hc
  | setFundsDue p val => exact Exec.reply_realizes _ _ (setFundsDue_realizes hslots L hc val)
  | setPayTo p addr => exact Exec.reply_realizes _ _ (setPayTo_realizes hslots L hc addr)
  | updateForBatchPosterSpending v updateTime currentTime p weiSpent l1Basefee =>
      exact Exec.reply_realizes _ _
        (anyUpdate_realizes hslots version L v updateTime currentTime hc weiSpent l1Basefee)
  | payment src dst amount => exact Exec.reply_realizes _ _ (payment_realizes L src dst amount)

end

/-! ### What a call reaches -/

section
variable {sto : Storage} {version : U64}

/-- Every query keeps to the footprint of the pricer. -/
theorem query_keepsTo (q : L1Query) :
    KeepsTo (footprint sto) (q.program (openL1PricingState sto version)) := by
  have htable := footprint_hasTable sto
  cases q with
  | payRewardsTo => exact payRewardsTo_keepsTo.dbReply _
  | equilibrationUnits => exact (getWord_keepsTo .equilibrationUnits).dbReply _
  | inertia => exact (getScalar_keepsTo .inertia).dbReply _
  | perUnitReward => exact (getScalar_keepsTo .perUnitReward).dbReply _
  | lastUpdateTime => exact (getScalar_keepsTo .lastUpdateTime).dbReply _
  | fundsDueForRewards => exact fundsDueForRewards_keepsTo.dbReply _
  | unitsSinceUpdate => exact (getScalar_keepsTo .unitsSinceUpdate).dbReply _
  | pricePerUnit => exact (getWord_keepsTo .pricePerUnit).dbReply _
  | lastSurplus => exact (getSigned_keepsTo .lastSurplus).dbReply _
  | perBatchGasCost =>
      exact KeepsTo.dbReply
        (StorageSlot.getWord_keepsTo (footprint_scalar sto .perBatchGasCost) _ _) _
  | amortizedCostCapBips => exact (getScalar_keepsTo .amortizedCostCapBips).dbReply _
  | l1FeesAvailable => exact (getWord_keepsTo .l1FeesAvailable).dbReply _
  | parentGasFloorPerToken => exact parentGasFloorPerToken_keepsTo.dbReply _
  | getL1PricingSurplus => exact getL1PricingSurplus_keepsTo.dbReply _
  | totalFundsDue => exact (BatchPostersTable.totalFundsDue_keepsTo htable).dbReply _
  | containsPoster p => exact (BatchPostersTable.containsPoster_keepsTo htable p).dbReply _
  | allPosters max => exact (BatchPostersTable.allPosters_keepsTo htable max).dbReply _
  | getFundsDueList => exact (BatchPostersTable.getFundsDueList_keepsTo htable).openReply _
  | fundsDue p => exact (BatchPostersTable.fundsDue_keepsTo htable p).dbReply _
  | payTo p => exact (BatchPostersTable.payTo_keepsTo htable p).dbReply _

/-- Every setter keeps to the footprint of the pricer. -/
theorem setter_keepsTo (s : L1Setter) :
    KeepsTo (footprint sto) (s.program (openL1PricingState sto version)) := by
  cases s with
  | payRewardsTo a => exact setScalar_keepsTo .payRewardsTo _
  | equilibrationUnits v => exact setScalar_keepsTo .equilibrationUnits _
  | inertia v => exact setScalar_keepsTo .inertia _
  | perUnitReward v => exact setScalar_keepsTo .perUnitReward _
  | lastUpdateTime v => exact setScalar_keepsTo .lastUpdateTime _
  | fundsDueForRewards v => exact setFundsDueForRewards_keepsTo v
  | unitsSinceUpdate v => exact setScalar_keepsTo .unitsSinceUpdate _
  | lastSurplus v arbosVersion => exact setLastSurplus_keepsTo v arbosVersion
  | pricePerUnit v => exact setScalar_keepsTo .pricePerUnit _
  | perBatchGasCost v => exact setScalar_keepsTo .perBatchGasCost _
  | amortizedCostCapBips v => exact setScalar_keepsTo .amortizedCostCapBips _
  | l1FeesAvailable v => exact setScalar_keepsTo .l1FeesAvailable _
  | parentGasFloorPerToken floor => exact setParentGasFloorPerToken_keepsTo floor

/-- A call reaches the slots of the pricer and the balances only. -/
theorem call_keepsTo (c : L1Call) :
    KeepsTo (footprint sto) (c.program (openL1PricingState sto version)) := by
  have htable := footprint_hasTable sto
  cases c with
  | query q => exact query_keepsTo q
  | set s => exact (setter_keepsTo s).dbReply _
  | addToUnitsSinceUpdate units => exact (addToUnitsSinceUpdate_keepsTo units).dbReply _
  | addToL1FeesAvailable delta => exact (addToL1FeesAvailable_keepsTo delta).dbReply _
  | transferFromL1FeesAvailable recipient amount =>
      exact (transferFromL1FeesAvailable_keepsTo recipient amount).dbReply _
  | addPoster p q => exact (BatchPostersTable.addPoster_keepsTo htable p q).openReply _
  | openPoster p create =>
      exact (BatchPostersTable.openPoster_keepsTo htable p create).openReply _
  | setFundsDue p val => exact (BatchPostersTable.setFundsDue_keepsTo htable p val).dbReply _
  | setPayTo p addr => exact (BatchPostersTable.setPayTo_keepsTo htable p addr).dbReply _
  | updateForBatchPosterSpending v updateTime currentTime p weiSpent l1Basefee =>
      exact (updateForBatchPosterSpending_keepsTo v updateTime currentTime p weiSpent
        l1Basefee).reply .ofUpdate _ (fun _ => rfl) fun _ he _ h => by
          cases he
          cases h
  | payment src dst amount => exact (Exec.transfer_keepsTo trivial src dst amount).dbReply _

end

/-! ### Runs -/

/-- The L1 pricer refines the ledger. After the initialization in a blank space, and in
every sequence of calls with every argument, each call has the result, the error or the
panic that it has on the ledger, and the store represents the ledger at the end. No slot
outside the pricer changes. `A` holds the accounts whose records the calls write. -/
theorem calls_refine {sto : Storage} {A : Set Address}
    (hslots : (layout sto).Apart (L1Key.Among A)) (hbatch : batchPosterAddress ∈ A)
    (version : U64) {w : World} (hw : w.readOnly = false)
    (hfresh : ∀ k, (layout sto).read w k = 0)
    (initialRewardsRecipient : Address) (initialL1BaseFee : U256) (calls : List L1Call)
    (hcalls : ∀ c ∈ calls, c.Among A) :
    let init := World.run
      (initializeL1PricingState sto initialRewardsRecipient initialL1BaseFee) w
    let final := runOps World.handle (L1Call.program (openL1PricingState sto version)) calls init.2
    let spec := specOps (L1Call.apply version) calls
      (L1Ledger.initial w.balance initialRewardsRecipient initialL1BaseFee)
    init.1 = .ok () ∧ final.1 = spec.1 ∧ Represents sto A final.2 spec.2
      ∧ ∀ a k, ¬(footprint sto).slots a k → final.2.store a k = w.store a k := by
  intro init final spec
  obtain ⟨w₀, hrun, hR₀⟩ := initialize_realizes hslots hbatch w.balance
    initialRewardsRecipient initialL1BaseFee w (represents_fresh hw hfresh)
  have hinit : init = (.ok (), w₀) := hrun
  obtain ⟨hresults, hfinal⟩ := runOps_realizes
    (fun L c hc => call_realizes hslots version L hc) calls w₀ _ hR₀
    (admissibleOps_of_forall hcalls _)
  have hfinalw : final = runOps World.handle (L1Call.program (openL1PricingState sto version))
      calls w₀ := by
    simp only [final, hinit]
  rw [← hfinalw] at hresults hfinal
  refine ⟨by rw [hinit], hresults, hfinal, ?_⟩
  have hframe : World.UnchangedOutside (footprint sto) w final.2 :=
    runOps_preserves (fun c _ h => KeepsTo.unchanged (call_keepsTo c) h) calls
      (KeepsTo.unchanged (initialize_keepsTo _ _) (.refl _ w))
  exact hframe.store

end L1Pricing

namespace L1Pricing
attribute [local instance] sampleHash

/-- Calls that succeed, fail and panic. -/
def sampleCalls : List L1Call :=
  [.addPoster 7 8, .addPoster 7 9, .addToL1FeesAvailable 100, .addToUnitsSinceUpdate 4,
    .updateForBatchPosterSpending 10 5 6 7 4 0, .set (.parentGasFloorPerToken 3),
    .transferFromL1FeesAvailable 9 200, .query .getFundsDueList, .query .getL1PricingSurplus]

/-- After the initialization, a run in which calls succeed, fail and panic. -/
theorem calls_refine_sample :
    let init := World.run (initializeL1PricingState sampleRoot 9 1) sampleStart
    let final := runOps World.handle (L1Call.program (openL1PricingState sampleRoot 10))
      sampleCalls init.2
    let spec := specOps (L1Call.apply 10) sampleCalls (L1Ledger.initial sampleStart.balance 9 1)
    init.1 = .ok () ∧ final.1 = spec.1 ∧ Represents sampleRoot Set.univ final.2 spec.2
      ∧ ∀ a k, ¬(footprint sampleRoot).slots a k → final.2.store a k = sampleStart.store a k :=
  calls_refine sampleRoot_layout_apart (Set.mem_univ _) 10 rfl (fun _ => rfl) 9 1 sampleCalls
    (by simp [sampleCalls, L1Call.Among])

end L1Pricing

end ArbReth
