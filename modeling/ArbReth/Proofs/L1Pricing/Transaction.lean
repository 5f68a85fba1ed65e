import ArbReth.L1Pricing.Transaction
import ArbReth.Proofs.L1Pricing.Update
import ArbReth.Proofs.Storage.Transaction

/-!
# `ArbReth.Proofs.L1Pricing.Transaction`: an update in a transaction realizes `spendOver`

Each read and each write of the update is taken over from its run on a coherent store, with
the ledger `D` of the database for what is read and the latest ledger for what is written
(`Asks.over`, `Tells.over`). A stage that reads what an earlier stage has written ends as its
counterpart with the suffix `Over` says. `updateForBatchPosterSpending_over` assembles the
stages.
-/

set_option autoImplicit false

namespace ArbReth

open ArbReth.Program

namespace L1Ledger
variable {L D : L1Ledger} {p : Address}

/-- A poster to whom the database owes something is paid from what the counter holds now. -/
theorem posterPaymentOver_of_isPositive (h : (D.fundsDue p).isPositive = true) :
    L.posterPaymentOver D p = minWord L.l1FeesAvailable (D.fundsDue p).toU256 := if_pos h

/-- A poster to whom the database owes nothing is not paid. -/
theorem posterPaymentOver_of_not_isPositive (h : ¬(D.fundsDue p).isPositive = true) :
    L.posterPaymentOver D p = 0 := if_neg h

end L1Ledger

namespace L1Pricing
variable [Keccak]

/-! ### The registration -/

section
variable {sto : Storage} {A : Set Address} (D L : L1Ledger)

variable (sto A) in
/-- The membership of a poster is that of the database, whatever the transaction has added. -/
theorem isMember_over (p : Address) :
    Realizes TwoLayer.handle (InTransaction (Represents sto A) D)
      ((BatchPostersTable.open (tableSpace sto)).posterAddrs.isMember p) L
      (.ok (decide (D.IsPoster p))) L :=
  Asks.over ((Exec.storage_asks _ _).bind fun _ => .pure _) (isMember_realizes sto A D p) L

/-- The number of posters is that of the database. -/
theorem count_over :
    Realizes TwoLayer.handle (InTransaction (Represents sto A) D)
      (BatchPostersTable.open (tableSpace sto)).posterAddrs.sizeCell.get L (.ok D.count) L := by
  have hsize : Realizes World.handle (Represents sto A)
      (BatchPostersTable.open (tableSpace sto)).posterAddrs.sizeCell.get D (.ok D.count) D :=
    realizes_of_run fun _ hR => StorageBackedUint64.run_get _ hR.read_size
  exact Asks.over (StorageSlot.getWord_asks _ _ _) hsize L

end

section
variable {sto : Storage} {A : Set Address} (hslots : (layout sto).Apart (L1Key.Among A))
  (D L : L1Ledger)
include hslots

/-- A write to the table with no guard. -/
theorem sstoreTable_over (k : L1Key) (hkey : k.Among A) (v : StorageValue) (T : PosterTable)
    (hk : EncodesTable T k v) (hindex : ∀ p, T.index p ≠ 0 → L.IsPoster p ∨ p ∈ A)
    (hscalar : ∀ s, k ≠ .scalar s)
    (hother : ∀ k' x, k' ≠ k → EncodesTable L.toPosterTable k' x → EncodesTable T k' x) :
    Realizes TwoLayer.handle (InTransaction (Represents sto A) D)
      (Exec.sstore sto.account ((layout sto).slot k) v) L (.ok ()) { L with toPosterTable := T } :=
  Tells.over (Exec.sstore_tells _ _ _)
    (fun _ hR => ⟨_, rfl, hR.writeTable hslots k hkey v T hk hindex hscalar hother⟩) D

/-- The amount due to a poster is written, with no change of the total. -/
theorem writeDue_over {p : Address} (hp : p ∈ A) (val : I256) :
    Realizes TwoLayer.handle (InTransaction (Represents sto A) D)
      ((record sto p).fundsDueCell.setChecked val) L (.ok ())
      { L with fundsDue := Function.update L.fundsDue p val } :=
  Tells.over (StorageSlot.set_tells _ _) (setDue_realizes hslots L hp val) D

/-- The write of a pay-to address reaches the latest ledger. -/
theorem writePayTo_over {p : Address} (hp : p ∈ A) (a : Address) :
    Realizes TwoLayer.handle (InTransaction (Represents sto A) D)
      ((record sto p).payToCell.set a) L (.ok ())
      { L with payTo := Function.update L.payTo p a } :=
  Tells.over (StorageSlot.set_tells _ _) (setPayTo_realizes hslots L hp a) D

/-- The mapping of the set is written. -/
theorem setIndex_over {p : Address} (hp : p ∈ A) (slot : U64) :
    Realizes TwoLayer.handle (InTransaction (Represents sto A) D)
      ((BatchPostersTable.open (tableSpace sto)).posterAddrs.byAddress.setByKey (addrToKey p)
        (U256.ofU64 slot)) L (.ok ())
      { L with index := Function.update L.index p (U256.ofU64 slot) } :=
  sstoreTable_over hslots D L (.posters (.index p)) hp _
    { L.toPosterTable with index := Function.update L.index p (U256.ofU64 slot) }
    (by simp [EncodesTable]) (fun _ => isPoster_or_among hp) (fun _ => L1Key.noConfusion)
    fun k' x hne hx => by
      rcases k' with s | _ | (i | a) | q | q
      case posters.index =>
        have ha : a ≠ p := fun h => hne (h ▸ rfl)
        simpa only [EncodesTable, Function.update_of_ne ha] using hx
      all_goals exact hx

/-- A slot of the list of the set is written. -/
theorem setMember_over (p : Address) {slot : U64} (hslot : slot ≠ 0) :
    Realizes TwoLayer.handle (InTransaction (Represents sto A) D)
      ((BatchPostersTable.open (tableSpace sto)).posterAddrs.backingStorage.writeSlot slot
        (addrToValue p)) L (.ok ())
      { L with member := Function.update L.member slot p.intoWord } :=
  sstoreTable_over hslots D L (.posters (.list slot)) trivial _
    { L.toPosterTable with member := Function.update L.member slot p.intoWord }
    (by simpa [EncodesTable, addrToValue, addrToKey] using fun h => absurd h hslot)
    (fun _ => Or.inl) (fun _ => L1Key.noConfusion) fun k' x hne hx => by
      rcases k' with s | _ | (i | a) | q | q
      case posters.list =>
        have hi : i ≠ slot := fun h => hne (h ▸ rfl)
        simpa only [EncodesTable, Function.update_of_ne hi] using hx
      all_goals exact hx

/-- The size of the set is written. -/
theorem setCount_over (count : U64) :
    Realizes TwoLayer.handle (InTransaction (Represents sto A) D)
      ((BatchPostersTable.open (tableSpace sto)).posterAddrs.sizeCell.set count) L (.ok ())
      { L with count := count } := by
  have hset : Realizes World.handle (Represents sto A)
      ((StorageSlot.mk sto.account ((layout sto).slot (.posters (.list 0)))).set
        (U256.ofU64 count)) L (.ok ()) { L with count := count } :=
    setTable_realizes hslots L (.posters (.list 0)) trivial _
      { L.toPosterTable with count := count } rfl rfl (fun _ => L1Key.noConfusion)
      fun k' x hne hx => by
        rcases k' with s | _ | (i | a) | q | q
        case posters.list =>
          have hi : i ≠ 0 := fun h => hne (h ▸ rfl)
          simpa only [EncodesTable, if_neg hi] using hx
        all_goals exact hx
  exact Tells.over (StorageSlot.set_tells _ _) hset D

/-- Adding an account to a set of posters that has room in the database. -/
theorem addMember_over {p : Address} (hp : p ∈ A) (hnew : ¬D.IsPoster p)
    (hroom : D.count ≠ BitVec.allOnes 64) :
    Realizes TwoLayer.handle (InTransaction (Represents sto A) D)
      ((BatchPostersTable.open (tableSpace sto)).posterAddrs.add p) L (.ok ())
      { L with
          count := D.count + 1
          member := Function.update L.member (D.count + 1) p.intoWord
          index := Function.update L.index p (U256.ofU64 (D.count + 1)) } := by
  have hmember := isMember_over sto A D L p
  rw [decide_eq_false hnew] at hmember
  have hlt : D.count.toNat + 1 < 2 ^ 64 := U64.toNat_add_one_lt hroom
  have hne0 : D.count + 1 ≠ 0 := by bv_omega
  have hadd : Realizes TwoLayer.handle (InTransaction (Represents sto A) D)
      (checkedAdd D.count 1 : Exec DbError U64) L (.ok (D.count + 1)) L := by
    unfold checkedAdd
    exact .ite_pos hlt (.pure _)
  refine .bind hmember (.bind (count_over D L) (.bind hadd ?_))
  refine .bind (setIndex_over hslots D L hp _) (.bind (setMember_over hslots D _ p hne0) ?_)
  -- the size is read again, and is still the one of the database
  have hincrement : ∀ L : L1Ledger, Realizes TwoLayer.handle (InTransaction (Represents sto A) D)
      (BatchPostersTable.open (tableSpace sto)).posterAddrs.sizeCell.increment L
      (.ok (D.count + 1)) { L with count := D.count + 1 } := fun L =>
    .bind (count_over D L) (.ite_neg hroom (.bind (setCount_over hslots D L _) (.pure _)))
  exact .bind (hincrement _) (.pure _)

/-- The registration of a poster with room for it. -/
theorem openForSpending_over (version : U64) (context : String) {p : Address} (hpA : p ∈ A)
    (hroom : D.IsPoster p ∨ D.count ≠ BitVec.allOnes 64) :
    Realizes TwoLayer.handle (InTransaction (Represents sto A) D)
      ((openL1PricingState sto version).openForSpending context p) D (.ok (record sto p))
      (D.register p) := by
  refine .handleErr ?_
  have hmember := isMember_over sto A D D p
  by_cases hp : D.IsPoster p
  · rw [decide_eq_true hp] at hmember
    rw [L1Ledger.register, if_pos hp]
    exact .bind (.mapErr hmember) (.pure _)
  · rw [decide_eq_false hp] at hmember
    rw [L1Ledger.register, if_neg hp]
    refine .bind (.mapErr hmember) (.bind (.mapErr hmember) ?_)
    refine .bind (.mapErr (writeDue_over hslots D D hpA I256.zero)) ?_
    refine .bind (.mapErr (writePayTo_over hslots D _ hpA p)) ?_
    exact .bind (.mapErr (addMember_over hslots D (D.enroll p) hpA hp (hroom.resolve_left hp)))
      (.pure _)

/-- The registration of a new poster in a full set panics, after the record is written. -/
theorem openForSpending_full (version : U64) (context : String) {p : Address} (hp : p ∈ A)
    (hnew : ¬D.IsPoster p) (hfull : D.count = BitVec.allOnes 64) :
    Realizes TwoLayer.handle (InTransaction (Represents sto A) D)
      ((openL1PricingState sto version).openForSpending context p) D
      (.panic "attempt to add with overflow") (D.enroll p) := by
  have hmember := fun L => isMember_over sto A D L p
  simp only [decide_eq_false hnew] at hmember
  have hadd : Realizes TwoLayer.handle (InTransaction (Represents sto A) D)
      (checkedAdd D.count 1 : Exec DbError U64) (D.enroll p)
      (.panic "attempt to add with overflow") (D.enroll p) := by
    rw [checkedAdd, hfull, if_neg (by decide)]
    exact .panic _
  refine .handleErr_panic (.bind (.mapErr (hmember D)) (.bind (.mapErr (hmember D)) ?_))
  refine .bind (.mapErr (writeDue_over hslots D D hp I256.zero)) ?_
  refine .bind (.mapErr (writePayTo_over hslots D _ hp p)) ?_
  exact .bind_panic (.mapErr_panic (.bind (hmember _) (.bind (count_over D _) (.bind_panic hadd))))

end

/-! ### The allocation, the cap, the credit and the reward -/

section
variable {sto : Storage} {A : Set Address} (version : U64) (D L : L1Ledger)

/-- A 64-bit scalar is read. -/
theorem uint64_over {cell : StorageBackedUint64} {v : U64}
    (h : Realizes World.handle (Represents sto A) cell.get D (.ok v) D) :
    Realizes TwoLayer.handle (InTransaction (Represents sto A) D) cell.get L (.ok v) L :=
  Asks.over (cell.slot.getWord_asks _ _) h L

/-- An unsigned word is read from the database. -/
theorem bigUint_over {cell : StorageBackedBigUint} {v : U256}
    (h : Realizes World.handle (Represents sto A) cell.get D (.ok v) D) :
    Realizes TwoLayer.handle (InTransaction (Represents sto A) D) cell.get L (.ok v) L :=
  Asks.over cell.slot.get_asks h L

/-- A signed word is read from the database. -/
theorem bigInt_over {cell : StorageBackedBigInt} {v : I256}
    (h : Realizes World.handle (Represents sto A) cell.get D (.ok v) D) :
    Realizes TwoLayer.handle (InTransaction (Represents sto A) D) cell.get L (.ok v) L :=
  Asks.over cell.get_asks h L

/-- An address is read from the database. -/
theorem address_over {cell : StorageBackedAddress} {a : Address}
    (h : Realizes World.handle (Represents sto A) cell.get D (.ok a) D) :
    Realizes TwoLayer.handle (InTransaction (Represents sto A) D) cell.get L (.ok a) L :=
  Asks.over cell.get_asks h L

/-- A cell is written. -/
theorem slot_over {slot : StorageSlot} {v : StorageValue} {L' : L1Ledger}
    (h : Realizes World.handle (Represents sto A) (slot.set v) L (.ok ()) L') :
    Realizes TwoLayer.handle (InTransaction (Represents sto A) D) (slot.set v) L (.ok ()) L' :=
  Tells.over (slot.set_tells v) h D

/-- A subtraction that does not wrap touches neither layer. -/
theorem checkedSub_over {ε : Type} {x y : U64} (h : y ≤ x) :
    Realizes TwoLayer.handle (InTransaction (Represents sto A) D) (checkedSub x y : Exec ε U64) L
      (.ok (x - y)) L := by
  unfold checkedSub
  exact .ite_pos h (.pure _)

/-- The last update time is that of the database. -/
theorem lastTime_over {ε : Type} (updateTime : U64) :
    Realizes TwoLayer.handle (InTransaction (Represents sto A) D)
      (if D.lastUpdateTime = 0 ∧ 0 < updateTime then checkedSub updateTime 1
        else pure D.lastUpdateTime : Exec ε U64) L (.ok (D.lastTime updateTime)) L := by
  unfold L1Ledger.lastTime
  split
  · rename_i h
    exact checkedSub_over D L (by bv_omega)
  · exact .pure _

/-- The times are checked against the last update of the database. -/
theorem allocateUnits_over_rejects {updateTime currentTime : U64}
    (h : ¬D.TimeOk updateTime currentTime) :
    Realizes TwoLayer.handle (InTransaction (Represents sto A) D)
      ((openL1PricingState sto version).allocateUnits updateTime currentTime) L
      (.err .invalidTime) L := by
  refine .bind (.mapErr (uint64_over D L (lastUpdateTime_realizes version D))) ?_
  refine .bind_ite (lastTime_over D L updateTime) ?_
  have hreject : currentTime < updateTime ∨ updateTime < D.lastTime updateTime := by
    by_contra hcon
    simp only [not_or, BitVec.not_lt] at hcon
    exact h ⟨hcon.2, hcon.1⟩
  beta_reduce
  rw [if_pos hreject]
  exact .fail _

/-- The units are allocated from those of the database, and what is left of them is written. -/
theorem allocateUnits_over (hslots : (layout sto).Apart (L1Key.Among A))
    {updateTime currentTime : U64} (h : D.TimeOk updateTime currentTime) :
    Realizes TwoLayer.handle (InTransaction (Represents sto A) D)
      ((openL1PricingState sto version).allocateUnits updateTime currentTime) L
      (.ok (D.allocated updateTime currentTime))
      { L with unitsSinceUpdate := D.unitsSinceUpdate - D.allocated updateTime currentTime } := by
  have hle := L1Ledger.allocated_le h
  obtain ⟨h₁, h₂⟩ := h
  refine .bind (.mapErr (uint64_over D L (lastUpdateTime_realizes version D))) ?_
  refine .bind_ite (lastTime_over D L updateTime) ?_
  have haccept : ¬(currentTime < updateTime ∨ updateTime < D.lastTime updateTime) := by
    simp only [not_or, BitVec.not_lt]
    exact ⟨h₂, h₁⟩
  beta_reduce
  rw [if_neg haccept]
  refine .bind (checkedSub_over D L h₁) (.bind (checkedSub_over D L (by bv_omega)) ?_)
  refine .bind (.mapErr (uint64_over D L (unitsSinceUpdate_realizes version D))) ?_
  have hdiv : Realizes TwoLayer.handle (InTransaction (Represents sto A) D)
      (checkedDiv (saturatingMul D.unitsSinceUpdate
          (if currentTime - D.lastTime updateTime = 0 then 1
            else updateTime - D.lastTime updateTime))
        (if currentTime - D.lastTime updateTime = 0 then 1
          else currentTime - D.lastTime updateTime) : Exec UpdateSpendingError U64) L
      (.ok (D.allocated updateTime currentTime)) L := by
    unfold checkedDiv
    refine .ite_neg ?_ (.pure _)
    split
    · decide
    · assumption
  refine .bind hdiv (.bind (checkedSub_over D L hle) ?_)
  exact .bind (.mapErr (slot_over D L (setUnitsSinceUpdate_realizes hslots version L _))) (.pure _)

/-- The cap is taken from the cells of the database. -/
theorem imposeCostCap_over (arbosVersion units : U64) (weiSpent l1Basefee : U256) :
    Realizes TwoLayer.handle (InTransaction (Represents sto A) D)
      ((openL1PricingState sto version).imposeCostCap arbosVersion units weiSpent l1Basefee) L
      (.ok (D.accounted arbosVersion units weiSpent l1Basefee)) L := by
  unfold L1PricingState.imposeCostCap L1Ledger.accounted
  by_cases hversion : arbosVersion3 ≤ arbosVersion
  · rw [if_pos hversion]
    refine .bind (uint64_over D L (amortizedCostCapBips_realizes version D)) ?_
    by_cases hcap : D.amortizedCostCapBips ≠ 0
    · rw [if_pos hcap, if_pos ⟨hversion, hcap⟩]
      exact .pure _
    · rw [if_neg hcap, if_neg fun h => hcap h.2]
      exact .pure _
  · rw [if_neg hversion, if_neg fun h => hversion h.1]
    exact .pure _

/-- The surplus is written with or without its sign, as the version has it. -/
theorem setLastSurplus_over (hslots : (layout sto).Apart (L1Key.Among A)) (val : I256)
    (arbosVersion : U64) :
    Realizes TwoLayer.handle (InTransaction (Represents sto A) D)
      ((openL1PricingState sto version).setLastSurplus val arbosVersion) L (.ok ())
      { L with lastSurplus := L1Ledger.storedSurplus arbosVersion val } := by
  have hset := setLastSurplus_realizes hslots version L val arbosVersion
  unfold L1PricingState.setLastSurplus at hset ⊢
  by_cases hseven : arbosVersion < arbosVersion7
  · rw [if_pos hseven] at hset ⊢
    exact slot_over D L hset
  · rw [if_neg hseven] at hset ⊢
    exact slot_over D L hset

/-- The amount due is written to the latest ledger, and the total from the sums of the database. -/
theorem setFundsDue_over (hslots : (layout sto).Apart (L1Key.Among A)) {p : Address}
    (hp : p ∈ A) (val : I256) :
    Realizes TwoLayer.handle (InTransaction (Represents sto A) D)
      ((record sto p).setFundsDue val) L (.ok ())
      (L.setFundsDueOver D p val) :=
  .bind (bigInt_over D L (fundsDue_realizes D p)) <|
  .bind (bigInt_over D L (totalFundsDue_realizes 0 D)) <|
  .bind (slot_over D L (setTotal_realizes hslots L _))
    (slot_over D _ (setDue_realizes hslots _ hp val))

/-- The credit adds to the amount that the database owes to the poster. -/
theorem creditPoster_over (hslots : (layout sto).Apart (L1Key.Among A)) {p : Address}
    (hp : p ∈ A) (wei : U256) :
    Realizes TwoLayer.handle (InTransaction (Represents sto A) D)
      (L1PricingState.creditPoster (record sto p) wei) L (.ok ())
      (L.setFundsDueOver D p ((D.fundsDue p).saturatingAdd (I256.ofU256 wei))) :=
  .bind (bigInt_over D L (fundsDue_realizes D p)) (setFundsDue_over D L hslots hp _)

/-- The reward accrues over the database, where the two cells it reads are those of the ledger. -/
theorem accrueRewards_over (hslots : (layout sto).Apart (L1Key.Among A)) (units : U64)
    (hrewards : L.fundsDueForRewards = D.fundsDueForRewards)
    (hreward : L.perUnitReward = D.perUnitReward) :
    Realizes TwoLayer.handle (InTransaction (Represents sto A) D)
      ((openL1PricingState sto version).accrueRewards D.fundsDueForRewards units) L
      (.ok (L.perUnitReward, (L.accrue units).fundsDueForRewards)) (L.accrue units) := by
  have hread : Realizes TwoLayer.handle (InTransaction (Represents sto A) D)
      (openL1PricingState sto version).perUnitReward L (.ok D.perUnitReward) L :=
    uint64_over D L (perUnitReward_realizes version D)
  rw [← hreward] at hread
  rw [← hrewards]
  unfold L1PricingState.accrueRewards
  simp only [expectI256_eq]
  refine .bind hread (.bind (.pure _) (.bind (.pure _) ?_))
  exact .bind (slot_over D L (setFundsDueForRewards_realizes hslots version L _)) (.pure _)

end

/-! ### The payments and the price -/

section
variable {sto : Storage} {A : Set Address} (hslots : (layout sto).Apart (L1Key.Among A))
  (version : U64)
  {D L : L1Ledger}

/-- A payment that is refused. -/
theorem transferFromL1FeesAvailable_over_refused {dst : Address} {amount : U256}
    {e : TransferError} (hrefused : L.refusal dst amount = some e) :
    Realizes TwoLayer.handle (InTransaction (Represents sto A) D)
      ((openL1PricingState sto version).transferFromL1FeesAvailable dst amount) L
      (.panic (Funding.counter.rewardsRefused ++ e.debug)) (L.transferred dst amount) :=
  .bind (Tells.over (Exec.transfer_tells _ _ _) (transfer_refused hrefused) D)
    (.panic _)

include hslots

/-- A payment lowers the counter from that of the database. -/
theorem transferFromL1FeesAvailable_over {dst : Address} {amount : U256}
    (hok : L.refusal dst amount = none) (hle : amount ≤ D.l1FeesAvailable) :
    Realizes TwoLayer.handle (InTransaction (Represents sto A) D)
      ((openL1PricingState sto version).transferFromL1FeesAvailable dst amount) L
      (.ok (D.l1FeesAvailable - amount))
      { L with
          balance := movedBalance L.balance l1PricerFundsPoolAddress dst amount
          l1FeesAvailable := D.l1FeesAvailable - amount } := by
  refine .bind (Tells.over (Exec.transfer_tells _ _ _) (transfer_accepted hok) D) ?_
  refine .bind (bigUint_over D _ (l1FeesAvailable_realizes version D)) (.ite_pos hle ?_)
  exact .bind (slot_over D _ (setL1FeesAvailable_realizes hslots version _ _)) (.pure _)

/-- The poster is paid what was due to it in the database. -/
theorem settlePoster_over {p : Address} (hp : p ∈ A)
    (hle : L.l1FeesAvailable ≤ D.l1FeesAvailable)
    (hok : L.refusal (D.payTo p) (L.posterPaymentOver D p) = none) :
    Realizes TwoLayer.handle (InTransaction (Represents sto A) D)
      ((openL1PricingState sto version).settlePoster (record sto p) L.l1FeesAvailable) L
      (.ok (L.settlePosterOver D p (L.posterPaymentOver D p)).l1FeesAvailable)
      (L.settlePosterOver D p (L.posterPaymentOver D p)) := by
  refine .bind (bigInt_over D L (fundsDue_realizes D p)) ?_
  by_cases hdue : (D.fundsDue p).isPositive = true
  · rw [L1Ledger.posterPaymentOver_of_isPositive hdue] at hok ⊢
    refine .ite_pos hdue ?_
    unfold L1Ledger.settlePosterOver
    by_cases hzero : minWord L.l1FeesAvailable (D.fundsDue p).toU256 = 0
    · rw [if_pos hzero]
      exact .ite_neg (not_not.mpr hzero) (.pure _)
    · rw [if_neg hzero]
      have hfunds : minWord L.l1FeesAvailable (D.fundsDue p).toU256 ≤ D.l1FeesAvailable := by
        rw [BitVec.le_def, toNat_minWord]
        rw [BitVec.le_def] at hle
        omega
      refine .ite_pos hzero (.bind (address_over D L (payTo_realizes D p)) ?_)
      refine .bind (transferFromL1FeesAvailable_over hslots version hok hfunds) ?_
      exact .bind (setFundsDue_over D _ hslots hp _) (.pure _)
  · rw [L1Ledger.posterPaymentOver_of_not_isPositive hdue]
    exact .ite_neg hdue (.pure _)

omit hslots in
/-- A refused payment to the poster ends in the panic of the transfer. -/
theorem settlePoster_over_refused {p : Address} {e : TransferError}
    (hrefused : L.refusal (D.payTo p) (L.posterPaymentOver D p) = some e) :
    Realizes TwoLayer.handle (InTransaction (Represents sto A) D)
      ((openL1PricingState sto version).settlePoster (record sto p) L.l1FeesAvailable) L
      (.panic (Funding.counter.posterRefused ++ e.debug))
      (L.transferred (D.payTo p) (L.posterPaymentOver D p)) := by
  have hne := L1Ledger.ne_zero_of_refused hrefused
  refine .bind (bigInt_over D L (fundsDue_realizes D p)) ?_
  by_cases hdue : (D.fundsDue p).isPositive = true
  · rw [L1Ledger.posterPaymentOver_of_isPositive hdue] at hrefused hne ⊢
    exact .ite_pos hdue <| .ite_pos hne <| .bind (address_over D L (payTo_realizes D p)) <|
      .bind_panic (transferFromL1FeesAvailable_over_refused version hrefused)
  · exact absurd (L1Ledger.posterPaymentOver_of_not_isPositive hdue) hne

/-- The price is adjusted by the amounts of the database, but for the funds. -/
theorem adjustPrice_over (D L : L1Ledger) (arbosVersion units : U64) :
    Realizes TwoLayer.handle (InTransaction (Represents sto A) D)
      ((openL1PricingState sto version).adjustPrice (pure L.l1FeesAvailable) arbosVersion units)
      L (.ok ()) (L.adjustPriceOver D arbosVersion units) := by
  unfold L1PricingState.adjustPrice L1Ledger.adjustPriceOver
  by_cases hunits : 0 < units
  · rw [if_pos hunits, if_pos hunits]
    refine .bind (bigInt_over D L (totalFundsDue_realizes version D)) ?_
    refine .bind (bigInt_over D L (fundsDueForRewards_realizes version D)) (.bind (.pure _) ?_)
    refine .bind (uint64_over D L (inertia_realizes version D)) ?_
    refine .bind (bigUint_over D L (equilibrationUnits_realizes version D)) ?_
    refine .bind (bigUint_over D L (pricePerUnit_realizes version D)) ?_
    refine .bind (bigInt_over D L (lastSurplus_realizes version D)) ?_
    rw [priceChange_eq _ _ _ _ hunits]
    refine .bind (.pure _) (.bind (setLastSurplus_over version D L hslots _ _) ?_)
    exact slot_over D _ (setPricePerUnit_realizes hslots version _ _)
  · rw [if_neg hunits, if_neg hunits]
    exact .pure _

/-- The payment to the poster and the end of the update. -/
theorem settle_over {p : Address} (hp : p ∈ A) (hle : L.l1FeesAvailable ≤ D.l1FeesAvailable)
    (arbosVersion updateTime units : U64) :
    Realizes TwoLayer.handle (InTransaction (Represents sto A) D)
      (do
        let l1FeesAvailable ← ((openL1PricingState sto version).settlePoster (record sto p)
          L.l1FeesAvailable).mapErr UpdateSpendingError.db
        ((openL1PricingState sto version).setLastUpdateTime updateTime).mapErr .db
        ((openL1PricingState sto version).adjustPrice (pure l1FeesAvailable) arbosVersion
          units).mapErr .db)
      L (L.settleOver D arbosVersion updateTime units p).1
      (L.settleOver D arbosVersion updateTime units p).2 := by
  unfold L1Ledger.settleOver
  cases hposter : L.refusal (D.payTo p) (L.posterPaymentOver D p) with
  | some e =>
      simp only [hposter]
      exact .bind_panic (.mapErr_panic (settlePoster_over_refused version hposter))
  | none =>
      simp only [hposter]
      refine .bind (.mapErr (settlePoster_over hslots version hp hle hposter)) ?_
      generalize L.settlePosterOver D p (L.posterPaymentOver D p) = L₁
      refine .bind (.mapErr (slot_over D L₁ (setLastUpdateTime_realizes hslots version _ _))) ?_
      exact .mapErr (adjustPrice_over hslots version D { L₁ with lastUpdateTime := updateTime } _ _)

/-- The payments and the end of the update. Until then the counter is that of the database. -/
theorem pay_over {p : Address} (hp : p ∈ A) (hfees : L.l1FeesAvailable = D.l1FeesAvailable)
    (hto : L.payRewardsTo = D.payRewardsTo) (arbosVersion updateTime units : U64) :
    Realizes TwoLayer.handle (InTransaction (Represents sto A) D)
      (do
        ((openL1PricingState sto version).setFundsDueForRewards
          (L.fundsDueForRewards.saturatingSub
            (I256.ofU256 (L.rewardPayment .counter units)))).mapErr UpdateSpendingError.db
        let payRewardsTo ← (openL1PricingState sto version).payRewardsTo.mapErr .db
        let l1FeesAvailable ← ((openL1PricingState sto version).transferFromL1FeesAvailable
          payRewardsTo (L.rewardPayment .counter units)).mapErr .db
        let l1FeesAvailable ← ((openL1PricingState sto version).settlePoster (record sto p)
          l1FeesAvailable).mapErr .db
        ((openL1PricingState sto version).setLastUpdateTime updateTime).mapErr .db
        ((openL1PricingState sto version).adjustPrice (pure l1FeesAvailable) arbosVersion
          units).mapErr .db)
      L (L.payOver D arbosVersion updateTime units p).1
      (L.payOver D arbosVersion updateTime units p).2 := by
  have hread : Realizes TwoLayer.handle (InTransaction (Represents sto A) D)
      (openL1PricingState sto version).payRewardsTo
      (L.debitRewards (L.rewardPayment .counter units)) (.ok L.payRewardsTo)
      (L.debitRewards (L.rewardPayment .counter units)) := by
    rw [hto]
    exact address_over D _ (payRewardsTo_realizes version D)
  have hle : L.rewardPayment .counter units ≤ D.l1FeesAvailable := by
    rw [← hfees]
    exact L.rewardPayment_le .counter units
  refine .bind (.mapErr (slot_over D L (setFundsDueForRewards_realizes hslots version L _))) ?_
  refine .bind (.mapErr hread) ?_
  unfold L1Ledger.payOver
  cases hrewards : (L.debitRewards (L.rewardPayment .counter units)).refusal L.payRewardsTo
      (L.rewardPayment .counter units) with
  | some e =>
      rw [L1Ledger.payRewards_of_refused hrewards]
      exact .bind_panic (.mapErr_panic (transferFromL1FeesAvailable_over_refused version hrewards))
  | none =>
      have hpaid := transferFromL1FeesAvailable_over hslots version hrewards hle
      rw [← hfees] at hpaid
      rw [L1Ledger.payRewards_of_accepted hrewards]
      refine .bind (.mapErr hpaid) ?_
      refine settle_over hslots version hp (L := L.paidRewards .counter units) ?_ _ _ _
      -- what the rewards leave is at most what there was
      rw [← hfees] at hle
      show L.l1FeesAvailable - L.rewardPayment .counter units ≤ D.l1FeesAvailable
      rw [← hfees, BitVec.le_def, BitVec.toNat_sub_of_le hle]
      exact Nat.sub_le _ _

/-- The update from version 10 on, for every ledger and all arguments. -/
theorem updateForBatchPosterSpending_over {arbosVersion : U64}
    (hversion : arbosVersion10 ≤ arbosVersion) (updateTime currentTime : U64) {p : Address}
    (hp : p ∈ A) (weiSpent l1Basefee : U256) :
    Realizes TwoLayer.handle (InTransaction (Represents sto A) D)
      ((openL1PricingState sto version).updateForBatchPosterSpending arbosVersion updateTime
        currentTime p weiSpent l1Basefee) D
      (D.spendOver arbosVersion updateTime currentTime p weiSpent l1Basefee).1
      (D.spendOver arbosVersion updateTime currentTime p weiSpent l1Basefee).2 := by
  refine .ite_neg (BitVec.not_lt.mpr hversion) ?_
  unfold L1Ledger.spendOver
  by_cases hfull : ¬D.IsPoster p ∧ D.count = BitVec.allOnes 64
  · rw [if_pos hfull]
    exact .bind_panic (openForSpending_full hslots D version _ hp hfull.1 hfull.2)
  rw [if_neg hfull]
  refine .bind (openForSpending_over hslots D version _ hp (room_of_not_full hfull)) ?_
  have hscalars := L1Ledger.register_toL1Scalars D p
  unfold L1Ledger.accountOver
  generalize D.register p = L at hscalars
  refine .bind (.mapErr (bigInt_over D L (fundsDueForRewards_realizes version D))) ?_
  refine .bind (.mapErr (bigUint_over D L (l1FeesAvailable_realizes version D))) ?_
  by_cases htime : D.TimeOk updateTime currentTime
  swap
  · simp only [if_pos htime]
    exact .bind_err (allocateUnits_over_rejects version D L htime)
  simp only [htime, not_true_eq_false, if_false]
  have hallocate := allocateUnits_over version D L hslots htime
  rw [← congrArg L1Scalars.unitsSinceUpdate hscalars] at hallocate
  refine .bind hallocate ?_
  generalize D.allocated updateTime currentTime = units
  refine .bind (.mapErr (imposeCostCap_over version D _ _ _ _ _)) ?_
  refine .bind (.mapErr (creditPoster_over D _ hslots hp _)) ?_
  generalize D.accounted arbosVersion units weiSpent l1Basefee = wei
  have hrewards : L.fundsDueForRewards = D.fundsDueForRewards := by rw [hscalars]
  have hreward : L.perUnitReward = D.perUnitReward := by rw [hscalars]
  have hto : L.payRewardsTo = D.payRewardsTo := by rw [hscalars]
  have hfees : L.l1FeesAvailable = D.l1FeesAvailable := by rw [hscalars]
  refine .bind (.mapErr (accrueRewards_over version D _ hslots units hrewards hreward)) ?_
  rw [← hfees]
  exact pay_over hslots version hp (L := ((L.takeUnits units).setFundsDueOver D p
    ((D.fundsDue p).saturatingAdd (I256.ofU256 wei))).accrue units) hfees hto _ _ _

end

end L1Pricing

end ArbReth
