import ArbReth.Proofs.L1Pricing.Ledger
import ArbReth.Proofs.L1Pricing.Represents

/-!
# `ArbReth.Proofs.L1Pricing.Spending`: the update realizes its ledger function

One theorem for each stage of the update says that the program of the stage ends in
the ledger of the stage. `updateForBatchPosterSpending_realizes` assembles them for
the versions from 10 on, with the stored counter as the source of the funds.
`preVersion10_realizes` does so for the versions 2 to 9, with the balance of the pool
account.

The stages that the two generations share are proved once. A payment is refused in
the ledger exactly when it is refused in the world, so the panics agree as well.
-/

set_option autoImplicit false

namespace ArbReth

open ArbReth.Program

namespace L1Pricing

/-- A `u64` always fits in an `I256`. -/
theorem expectI256_eq {ε : Type} (x : U64) :
    (L1PricingState.expectI256 x : Exec ε I256) = pure (I256.ofU256 (U256.ofU64 x)) := by
  have hx := x.isLt
  have hlt : (U256.ofU64 x).toNat < 2 ^ 255 := by
    rw [U256.toNat_ofU64]
    omega
  unfold L1PricingState.expectI256 I256.ofU256 I256.tryFrom
  rw [dif_pos hlt]
  rfl

variable [Keccak]

/-! ### The posters -/

/-- Adding an account to a set of posters that is full panics. -/
theorem addMember_panics {sto : Storage} {A : Set Address} (L : L1Ledger) (p : Address)
    (hnew : ¬L.IsPoster p) (hfull : L.count = BitVec.allOnes 64) :
    Realizes World.handle (Represents sto A)
      ((BatchPostersTable.open (tableSpace sto)).posterAddrs.add p) L
      (.panic "attempt to add with overflow") L := by
  have hmember := isMember_realizes sto A L p
  rw [decide_eq_false hnew] at hmember
  have hsize : Realizes World.handle (Represents sto A)
      (BatchPostersTable.open (tableSpace sto)).posterAddrs.sizeCell.get L (.ok L.count) L :=
    realizes_of_run fun _ hR => StorageBackedUint64.run_get _ hR.read_size
  -- The size is read, and the next slot would be the slot `2 ^ 64`.
  have hadd : Realizes World.handle (Represents sto A) (checkedAdd L.count 1 : Exec DbError U64) L
      (.panic "attempt to add with overflow") L := by
    rw [checkedAdd, hfull, if_neg (by decide)]
    exact .panic _
  exact .bind hmember (.bind hsize (.bind_panic hadd))

section
variable {sto : Storage} {A : Set Address} (hslots : (layout sto).Apart (L1Key.Among A))
  (version : U64) (L : L1Ledger)
include hslots

/-- A setter of a slot of the table. -/
theorem setTable_realizes (L : L1Ledger) (k : L1Key) (hkey : k.Among A) (v : StorageValue)
    (T : PosterTable) (hk : EncodesTable T k v) (hindex : T.index = L.index)
    (hscalar : ∀ s, k ≠ .scalar s)
    (hother : ∀ k' x, k' ≠ k → EncodesTable L.toPosterTable k' x → EncodesTable T k' x) :
    Realizes World.handle (Represents sto A)
      ((StorageSlot.mk sto.account ((layout sto).slot k)).set v) L (.ok ())
      { L with toPosterTable := T } := fun _ hR =>
  ⟨_, StorageSlot.run_set _ hR.writable v, hR.writeTable hslots k hkey v T hk
    (fun p hp => Or.inl (by rwa [hindex] at hp)) hscalar hother⟩

/-- Writing the total. -/
theorem setTotal_realizes (L : L1Ledger) (val : I256) :
    Realizes World.handle (Represents sto A)
      ((StorageSlot.mk sto.account ((layout sto).slot .totalFundsDue)).set val.intoRaw) L (.ok ())
      { L with totalFundsDue := val } :=
  setTable_realizes hslots L .totalFundsDue trivial _
    { L.toPosterTable with totalFundsDue := val } rfl rfl (fun _ => L1Key.noConfusion)
    fun k' x hne hx => by
      rcases k' with s | _ | (i | a) | p | p <;> first | exact hx | exact absurd rfl hne

/-- Writing the amount due to one poster. -/
theorem setDue_realizes (L : L1Ledger) {p : Address} (hp : p ∈ A) (val : I256) :
    Realizes World.handle (Represents sto A)
      ((StorageSlot.mk sto.account ((layout sto).slot (.fundsDue p))).set val.intoRaw) L (.ok ())
      { L with fundsDue := Function.update L.fundsDue p val } :=
  setTable_realizes hslots L (.fundsDue p) hp _
    { L.toPosterTable with fundsDue := Function.update L.fundsDue p val }
    (by simp [EncodesTable]) rfl (fun _ => L1Key.noConfusion) fun k' x hne hx => by
      rcases k' with s | _ | (i | a) | q | q
      -- the only other slots of this kind are those of other posters
      case fundsDue =>
        have hq : q ≠ p := fun h => hne (h ▸ rfl)
        simpa only [EncodesTable, Function.update_of_ne hq] using hx
      all_goals exact hx

/-- Writing the account that one poster is paid on. -/
theorem setPayTo_realizes (L : L1Ledger) {p : Address} (hp : p ∈ A) (a : Address) :
    Realizes World.handle (Represents sto A) ((record sto p).setPayTo a) L (.ok ())
      { L with payTo := Function.update L.payTo p a } :=
  setTable_realizes hslots L (.payTo p) hp _
    { L.toPosterTable with payTo := Function.update L.payTo p a }
    (by simp [EncodesTable]) rfl (fun _ => L1Key.noConfusion) fun k' x hne hx => by
      rcases k' with s | _ | (i | a) | q | q
      case payTo =>
        have hq : q ≠ p := fun h => hne (h ▸ rfl)
        simpa only [EncodesTable, Function.update_of_ne hq] using hx
      all_goals exact hx

/-- The setter of the amount due moves the total with it. -/
theorem setFundsDue_realizes {p : Address} (hp : p ∈ A) (val : I256) :
    Realizes World.handle (Represents sto A) ((record sto p).setFundsDue val) L (.ok ())
      (L.setFundsDue p val) :=
  .bind (fundsDue_realizes L p) <|
  .bind (totalFundsDue_realizes 0 L) <|
  .bind (setTotal_realizes hslots L _) (setDue_realizes hslots _ hp val)

/-- The set of posters in the space of the pricer has its slots apart. -/
theorem posters_apart : (AddressSet.layout (posterSpace sto)).Apart (SetKey.Among A) :=
  hslots.of_part .posters (fun _ _ h => L1Key.posters.inj h) (fun _ hk => hk) fun _ => rfl

omit [Keccak] hslots in
/-- When the mapping of an account of `A` is written, a new poster is one of `A`. -/
theorem isPoster_or_among {L : L1Ledger} {p q : Address} (hp : p ∈ A) {v : StorageValue}
    (hq : Function.update L.index p v q ≠ 0) : L.IsPoster q ∨ q ∈ A := by
  by_cases hqp : q = p
  · exact Or.inr (hqp ▸ hp)
  · rw [Function.update_of_ne hqp] at hq
    exact Or.inl hq

/-- Adding an account to the set of posters that has room. -/
theorem addMember_realizes {p : Address} (hp : p ∈ A) (hnew : ¬L.IsPoster p)
    (hroom : L.count ≠ BitVec.allOnes 64) :
    Realizes World.handle (Represents sto A)
      ((BatchPostersTable.open (tableSpace sto)).posterAddrs.add p) L (.ok ())
      { L with
          count := L.count + 1
          member := Function.update L.member (L.count + 1) p.intoWord
          index := Function.update L.index p (U256.ofU64 (L.count + 1)) } := by
  intro w hR
  have hlt : L.count.toNat + 1 < 2 ^ 64 := by
    have h := L.count.isLt
    have hne : L.count.toNat ≠ 2 ^ 64 - 1 := fun h' => hroom (BitVec.eq_of_toNat_eq (by simp [h']))
    omega
  have hcount : BitVec.ofNat 64 L.count.toNat = L.count := by simp
  have hsucc : BitVec.ofNat 64 (L.count.toNat + 1) = L.count + 1 := by
    rw [BitVec.ofNat_add, hcount]
    rfl
  have hne0 : L.count + 1 ≠ 0 := by bv_omega
  have hindex : (AddressSet.layout (posterSpace sto)).read w (.index p) = 0 :=
    (hR.read_index p).trans (not_not.mp hnew)
  have hsize : (AddressSet.layout (posterSpace sto)).read w (.list 0)
      = U256.ofU64 (BitVec.ofNat 64 L.count.toNat) := by
    rw [hcount]
    exact hR.read_size
  have hrun := AddressSet.run_add_of_index_eq_zero (posters_apart hslots) hp hR.writable hindex
    hsize hlt
  rw [AddressSet.afterAdd, hsucc] at hrun
  -- The mapping, the new list slot and the size are written one after another.
  have h₁ := hR.writeTable hslots (.posters (.index p)) hp (U256.ofU64 (L.count + 1))
    { L.toPosterTable with index := Function.update L.index p (U256.ofU64 (L.count + 1)) }
    (by simp [EncodesTable]) (fun _ => isPoster_or_among hp) (fun _ => L1Key.noConfusion)
    fun k' x hne hx => by
      rcases k' with s | _ | (i | a) | q | q
      case posters.index =>
        have ha : a ≠ p := fun h => hne (h ▸ rfl)
        simpa only [EncodesTable, Function.update_of_ne ha] using hx
      all_goals exact hx
  have h₂ := h₁.writeTable hslots (.posters (.list (L.count + 1))) trivial p.intoWord
    { L.toPosterTable with
        member := Function.update L.member (L.count + 1) p.intoWord
        index := Function.update L.index p (U256.ofU64 (L.count + 1)) }
    (by
      show p.intoWord = if L.count + 1 = 0 then _ else Function.update L.member _ _ _
      rw [if_neg hne0, Function.update_self])
    (fun _ => Or.inl) (fun _ => L1Key.noConfusion) fun k' x hne hx => by
      rcases k' with s | _ | (i | a) | q | q
      case posters.list =>
        have hi : i ≠ L.count + 1 := fun h => hne (h ▸ rfl)
        simpa only [EncodesTable, Function.update_of_ne hi] using hx
      all_goals exact hx
  have h₃ := h₂.writeTable hslots (.posters (.list 0)) trivial (U256.ofU64 (L.count + 1))
    { L.toPosterTable with
        count := L.count + 1
        member := Function.update L.member (L.count + 1) p.intoWord
        index := Function.update L.index p (U256.ofU64 (L.count + 1)) }
    rfl (fun _ => Or.inl) (fun _ => L1Key.noConfusion) fun k' x hne hx => by
      rcases k' with s | _ | (i | a) | q | q
      case posters.list =>
        have hi : i ≠ 0 := fun h => hne (h ▸ rfl)
        simpa only [EncodesTable, if_neg hi] using hx
      all_goals exact hx
  exact ⟨_, hrun, h₃⟩

/-- The addition of a new poster. -/
theorem addPoster_realizes {p : Address} (hp : p ∈ A) (q : Address) (hnew : ¬L.IsPoster p)
    (hroom : L.count ≠ BitVec.allOnes 64) :
    Realizes World.handle (Represents sto A)
      ((BatchPostersTable.open (tableSpace sto)).addPoster p q) L (.ok (record sto p))
      (L.registerWith p q) := by
  have hmember := isMember_realizes sto A L p
  rw [decide_eq_false hnew] at hmember
  -- The record of the poster is written first, and then the set of posters.
  refine .bind (.mapErr hmember) ?_
  refine .bind (.mapErr (setDue_realizes hslots L hp I256.zero)) ?_
  refine .bind (.mapErr (setPayTo_realizes hslots _ hp q)) ?_
  exact .bind (.mapErr (addMember_realizes hslots (L.enrollWith p q) hp hnew hroom)) (.pure _)

/-- The addition of a new poster to a full set panics, after the record is written. -/
theorem addPoster_panics {p : Address} (hp : p ∈ A) (q : Address) (hnew : ¬L.IsPoster p)
    (hfull : L.count = BitVec.allOnes 64) :
    Realizes World.handle (Represents sto A)
      ((BatchPostersTable.open (tableSpace sto)).addPoster p q) L
      (.panic "attempt to add with overflow") (L.enrollWith p q) := by
  have hmember := isMember_realizes sto A L p
  rw [decide_eq_false hnew] at hmember
  refine .bind (.mapErr hmember) ?_
  refine .bind (.mapErr (setDue_realizes hslots L hp I256.zero)) ?_
  refine .bind (.mapErr (setPayTo_realizes hslots _ hp q)) ?_
  exact .bind_panic (.mapErr_panic (addMember_panics (L.enrollWith p q) p hnew hfull))

/-- The registration of a poster with room for it. -/
theorem openPoster_realizes {p : Address} (hpA : p ∈ A)
    (hroom : L.IsPoster p ∨ L.count ≠ BitVec.allOnes 64) :
    Realizes World.handle (Represents sto A)
      ((BatchPostersTable.open (tableSpace sto)).openPoster p true) L (.ok (record sto p))
      (L.register p) := by
  have hmember := isMember_realizes sto A L p
  by_cases hp : L.IsPoster p
  · rw [decide_eq_true hp] at hmember
    rw [L1Ledger.register, if_pos hp]
    exact .bind (.mapErr hmember) (.pure _)
  · rw [decide_eq_false hp] at hmember
    rw [L1Ledger.register, if_neg hp]
    exact .bind (.mapErr hmember) (addPoster_realizes hslots L hpA p hp (hroom.resolve_left hp))

/-- The registration of a new poster in a full set panics, after the record is written. -/
theorem openPoster_panics {p : Address} (hp : p ∈ A) (hnew : ¬L.IsPoster p)
    (hfull : L.count = BitVec.allOnes 64) :
    Realizes World.handle (Represents sto A)
      ((BatchPostersTable.open (tableSpace sto)).openPoster p true) L
      (.panic "attempt to add with overflow") (L.enroll p) := by
  have hmember := isMember_realizes sto A L p
  -- `openPoster` and `addPoster` both ask whether the account is a poster.
  rw [decide_eq_false hnew] at hmember
  exact .bind (.mapErr hmember) (addPoster_panics hslots L hp p hnew hfull)

end

/-! ### The allocation -/

section
variable {sto : Storage} {A : Set Address} (version : U64) (L : L1Ledger)

/-- A checked subtraction that does not underflow. -/
theorem checkedSub_realizes {ε : Type} {x y : U64} (h : y ≤ x) :
    Realizes World.handle (Represents sto A) (checkedSub x y : Exec ε U64) L (.ok (x - y)) L :=
  realizes_of_run fun w _ => World.run_checkedSub h w

/-- The last update time is that of the cell, or just before the first update. -/
theorem lastTime_realizes {ε : Type} (updateTime : U64) :
    Realizes World.handle (Represents sto A)
      (if L.lastUpdateTime = 0 ∧ 0 < updateTime then checkedSub updateTime 1
        else pure L.lastUpdateTime : Exec ε U64) L (.ok (L.lastTime updateTime)) L := by
  unfold L1Ledger.lastTime
  split
  · rename_i h
    refine checkedSub_realizes L ?_
    have := h.2
    simp only [BitVec.lt_def, BitVec.le_def] at this ⊢
    exact this
  · exact .pure _

/-- Times out of order are refused before anything is written. -/
theorem allocateUnits_rejects {updateTime currentTime : U64}
    (h : ¬L.TimeOk updateTime currentTime) :
    Realizes World.handle (Represents sto A)
      ((openL1PricingState sto version).allocateUnits updateTime currentTime) L
      (.err .invalidTime) L := by
  refine .bind (.mapErr (lastUpdateTime_realizes version L)) ?_
  refine .bind_ite (lastTime_realizes L updateTime) ?_
  have hreject : currentTime < updateTime ∨ updateTime < L.lastTime updateTime := by
    by_contra hcon
    simp only [not_or, BitVec.not_lt] at hcon
    exact h ⟨hcon.2, hcon.1⟩
  beta_reduce
  rw [if_pos hreject]
  exact .fail _

/-- The allocated units are taken from those since the last update. -/
theorem allocateUnits_realizes (hslots : (layout sto).Apart (L1Key.Among A))
    {updateTime currentTime : U64} (h : L.TimeOk updateTime currentTime) :
    Realizes World.handle (Represents sto A)
      ((openL1PricingState sto version).allocateUnits updateTime currentTime) L
      (.ok (L.allocated updateTime currentTime))
      (L.takeUnits (L.allocated updateTime currentTime)) := by
  have hle := L1Ledger.allocated_le h
  obtain ⟨h₁, h₂⟩ := h
  refine .bind (.mapErr (lastUpdateTime_realizes version L)) ?_
  refine .bind_ite (lastTime_realizes L updateTime) ?_
  have haccept : ¬(currentTime < updateTime ∨ updateTime < L.lastTime updateTime) := by
    simp only [not_or, BitVec.not_lt]
    exact ⟨h₂, h₁⟩
  beta_reduce
  rw [if_neg haccept]
  -- The times are in order, so neither difference underflows.
  refine .bind (checkedSub_realizes L h₁) (.bind (checkedSub_realizes L ?_) ?_)
  · rw [BitVec.le_def] at h₁ h₂ ⊢
    omega
  refine .bind (.mapErr (unitsSinceUpdate_realizes version L)) ?_
  have hdiv : Realizes World.handle (Represents sto A)
      (checkedDiv (saturatingMul L.unitsSinceUpdate
          (if currentTime - L.lastTime updateTime = 0 then 1
            else updateTime - L.lastTime updateTime))
        (if currentTime - L.lastTime updateTime = 0 then 1
          else currentTime - L.lastTime updateTime) : Exec UpdateSpendingError U64) L
      (.ok (L.allocated updateTime currentTime)) L := by
    -- a period of no length counts as one second
    refine realizes_of_run fun w _ => World.run_checkedDiv ?_ w
    split
    · decide
    · assumption
  refine .bind hdiv (.bind (checkedSub_realizes L hle) ?_)
  exact .bind (.mapErr (setUnitsSinceUpdate_realizes hslots version L _)) (.pure _)

/-! ### The cap, the credit and the reward -/

/-- The wei accounted for are those of the ledger. -/
theorem imposeCostCap_realizes (arbosVersion units : U64) (weiSpent l1Basefee : U256) :
    Realizes World.handle (Represents sto A)
      ((openL1PricingState sto version).imposeCostCap arbosVersion units weiSpent l1Basefee) L
      (.ok (L.accounted arbosVersion units weiSpent l1Basefee)) L := by
  unfold L1PricingState.imposeCostCap L1Ledger.accounted
  -- the cap is read from version 3 on, and zero stands for no cap
  by_cases hversion : arbosVersion3 ≤ arbosVersion
  · rw [if_pos hversion]
    refine .bind (amortizedCostCapBips_realizes version L) ?_
    by_cases hcap : L.amortizedCostCapBips ≠ 0
    · rw [if_pos hcap, if_pos ⟨hversion, hcap⟩]
      exact .pure _
    · rw [if_neg hcap, if_neg fun h => hcap h.2]
      exact .pure _
  · rw [if_neg hversion, if_neg fun h => hversion h.1]
    exact .pure _

/-- The credit adds to the amount due to the poster. -/
theorem creditPoster_realizes (hslots : (layout sto).Apart (L1Key.Among A)) {p : Address}
    (hp : p ∈ A) (wei : U256) :
    Realizes World.handle (Represents sto A) (L1PricingState.creditPoster (record sto p) wei) L
      (.ok ()) (L.credit p wei) :=
  .bind (fundsDue_realizes L p) (setFundsDue_realizes hslots L hp _)

/-- The reward of the units is added to the rewards due. -/
theorem accrueRewards_realizes (hslots : (layout sto).Apart (L1Key.Among A)) (units : U64) :
    Realizes World.handle (Represents sto A)
      ((openL1PricingState sto version).accrueRewards L.fundsDueForRewards units) L
      (.ok (L.perUnitReward, (L.accrue units).fundsDueForRewards)) (L.accrue units) := by
  unfold L1PricingState.accrueRewards
  simp only [expectI256_eq]
  refine .bind (perUnitReward_realizes version L) (.bind (.pure _) (.bind (.pure _) ?_))
  exact .bind (setFundsDueForRewards_realizes hslots version L _) (.pure _)

end

/-! ### The payments -/

/-- A call of `transfer` from the pool account. -/
theorem Represents.transferred {sto : Storage} {A : Set Address} {w : World} {L : L1Ledger}
    (hR : Represents sto A w L) (dst : Address) (amount : U256) :
    Represents sto A (w.move l1PricerFundsPoolAddress dst amount) (L.transferred dst amount) where
  writable := hR.writable
  among := hR.among
  balance := by
    show transferBalance w.balance _ _ _ = transferBalance L.balance _ _ _
    rw [hR.balance]
  scalar := hR.scalar
  table := hR.table

section
variable {sto : Storage} {A : Set Address} (version : U64) {L : L1Ledger}

variable (sto A) in
/-- The answer to a payment from the pool account is that of the ledger. -/
theorem transfer_realizes (L : L1Ledger) (dst : Address) (amount : U256) :
    Realizes World.handle (Represents sto A) (Exec.transfer l1PricerFundsPoolAddress dst amount) L
      (.ok (L.refusal dst amount)) (L.transferred dst amount) := by
  intro w hR
  have hrefusal : w.refusal l1PricerFundsPoolAddress dst amount = L.refusal dst amount := by
    rw [World.refusal, hR.balance]
    rfl
  have hrun := World.run_transfer w l1PricerFundsPoolAddress dst amount
  rw [hrefusal] at hrun
  exact ⟨_, hrun, hR.transferred dst amount⟩

/-- A payment that is accepted moves the amount. -/
theorem transfer_accepted {dst : Address} {amount : U256} (hok : L.refusal dst amount = none) :
    Realizes World.handle (Represents sto A) (Exec.transfer l1PricerFundsPoolAddress dst amount) L
      (.ok none) (L.pay .pool dst amount) := by
  have htransfer := transfer_realizes sto A L dst amount
  rwa [hok, L1Ledger.transferred_of_accepted hok] at htransfer

/-- A payment that is refused answers with the reason. -/
theorem transfer_refused {dst : Address} {amount : U256} {e : TransferError}
    (hrefused : L.refusal dst amount = some e) :
    Realizes World.handle (Represents sto A) (Exec.transfer l1PricerFundsPoolAddress dst amount) L
      (.ok (some e)) (L.transferred dst amount) := by
  have htransfer := transfer_realizes sto A L dst amount
  rwa [hrefused] at htransfer

/-- An accepted payment lowers the counter by what it pays. -/
theorem transferFromL1FeesAvailable_realizes (hslots : (layout sto).Apart (L1Key.Among A))
    {dst : Address} {amount : U256} (hok : L.refusal dst amount = none)
    (hle : amount ≤ L.l1FeesAvailable) :
    Realizes World.handle (Represents sto A)
      ((openL1PricingState sto version).transferFromL1FeesAvailable dst amount) L
      (.ok (L.pay .counter dst amount).l1FeesAvailable) (L.pay .counter dst amount) := by
  refine .bind (transfer_accepted hok) (.bind (l1FeesAvailable_realizes version _) ?_)
  exact .ite_pos hle (.bind (setL1FeesAvailable_realizes hslots version _ _) (.pure _))

/-- A refused payment panics, after what the refusal itself moves. -/
theorem transferFromL1FeesAvailable_refused {dst : Address} {amount : U256} {e : TransferError}
    (hrefused : L.refusal dst amount = some e) :
    Realizes World.handle (Represents sto A)
      ((openL1PricingState sto version).transferFromL1FeesAvailable dst amount) L
      (.panic ("transfer_from_l1_fees_available: EVM balance transfer failed: " ++ e.debug))
      (L.transferred dst amount) :=
  .bind (transfer_refused hrefused) (.panic _)

/-- A payment before version 10 moves balances only. -/
theorem payFromPool_realizes (context : String) {dst : Address} {amount : U256}
    (hok : L.refusal dst amount = none) :
    Realizes World.handle (Represents sto A) (L1PricingState.payFromPool context dst amount) L
      (.ok ()) (L.pay .pool dst amount) := by
  unfold L1PricingState.payFromPool
  split
  · exact .bind (transfer_accepted hok) (.pure _)
  · -- a payment of nothing is skipped, and would move nothing
    rename_i hpos
    have hzero : amount = 0 := by
      rw [BitVec.lt_def] at hpos
      exact BitVec.eq_of_toNat_eq (Nat.eq_zero_of_not_pos hpos)
    rw [hzero, L1Ledger.pay_zero]
    exact .pure _

/-- A refused payment before version 10 panics with the text of its place. -/
theorem payFromPool_refused (context : String) {dst : Address} {amount : U256} {e : TransferError}
    (hrefused : L.refusal dst amount = some e) :
    Realizes World.handle (Represents sto A) (L1PricingState.payFromPool context dst amount) L
      (.panic (context ++ e.debug)) (L.transferred dst amount) := by
  -- A refused payment is not zero, so it is not skipped.
  have hpos : 0 < amount := by
    rw [BitVec.lt_def]
    exact Nat.pos_of_ne_zero fun h => L1Ledger.ne_zero_of_refused hrefused (BitVec.eq_of_toNat_eq h)
  exact .ite_pos hpos (.bind (transfer_refused hrefused) (.panic _))

/-! ### The settlement with the poster -/

/-- The update from version 10 on pays the poster from the counted funds. -/
theorem settlePoster_realizes (hslots : (layout sto).Apart (L1Key.Among A)) {p : Address}
    (hp : p ∈ A)
    (hok : L.refusal (L.payTo p) (L.posterPayment .counter p) = none) :
    Realizes World.handle (Represents sto A)
      ((openL1PricingState sto version).settlePoster (record sto p) L.l1FeesAvailable) L
      (.ok (L.settlePoster .counter p (L.posterPayment .counter p)).l1FeesAvailable)
      (L.settlePoster .counter p (L.posterPayment .counter p)) := by
  refine .bind (fundsDue_realizes L p) ?_
  have hle := L.posterPayment_le .counter p
  by_cases hdue : (L.fundsDue p).isPositive = true
  · rw [L1Ledger.posterPayment_of_isPositive hdue] at hok hle ⊢
    refine .ite_pos hdue ?_
    unfold L1Ledger.settlePoster
    by_cases hzero : minWord (L.funds .counter) (L.fundsDue p).toU256 = 0
    · rw [if_pos hzero]
      exact .ite_neg (not_not.mpr hzero) (.pure _)
    · rw [if_neg hzero]
      -- the transfer lowers the counter, and then the amount due is lowered
      refine .ite_pos hzero (.bind (payTo_realizes L p) ?_)
      refine .bind (transferFromL1FeesAvailable_realizes version hslots hok hle) ?_
      exact .bind (setFundsDue_realizes hslots _ hp _) (.pure _)
  · rw [L1Ledger.posterPayment_of_not_isPositive hdue]
    exact .ite_neg hdue (.pure _)

/-- A refused payment to the poster panics. -/
theorem settlePoster_refused {p : Address} {e : TransferError}
    (hrefused : L.refusal (L.payTo p) (L.posterPayment .counter p) = some e) :
    Realizes World.handle (Represents sto A)
      ((openL1PricingState sto version).settlePoster (record sto p) L.l1FeesAvailable) L
      (.panic (Funding.counter.posterRefused ++ e.debug))
      (L.transferred (L.payTo p) (L.posterPayment .counter p)) := by
  have hne := L1Ledger.ne_zero_of_refused hrefused
  refine .bind (fundsDue_realizes L p) ?_
  by_cases hdue : (L.fundsDue p).isPositive = true
  · rw [L1Ledger.posterPayment_of_isPositive hdue] at hrefused hne ⊢
    exact .ite_pos hdue <| .ite_pos hne <| .bind (payTo_realizes L p) <|
      .bind_panic (transferFromL1FeesAvailable_refused version hrefused)
  · exact absurd (L1Ledger.posterPayment_of_not_isPositive hdue) hne

/-- The older update pays the poster from the balance of the pool account. -/
theorem preVersion10SettlePoster_realizes (hslots : (layout sto).Apart (L1Key.Among A))
    {p : Address} (hp : p ∈ A) (hok : L.refusal (L.payTo p) (L.posterPayment .pool p) = none) :
    Realizes World.handle (Represents sto A)
      (L1PricingState.preVersion10SettlePoster (record sto p)) L (.ok ())
      (L.settlePoster .pool p (L.posterPayment .pool p)) := by
  refine .bind (poolBalance_realizes L) (.bind (fundsDue_realizes L p) ?_)
  by_cases hdue : (L.fundsDue p).isPositive = true
  · rw [L1Ledger.posterPayment_of_isPositive hdue] at hok ⊢
    refine .ite_pos hdue ?_
    unfold L1Ledger.settlePoster
    by_cases hzero : minWord (L.funds .pool) (L.fundsDue p).toU256 = 0
    · rw [if_pos hzero]
      exact .ite_neg (not_not.mpr hzero) (.pure _)
    · rw [if_neg hzero]
      refine .ite_pos hzero (.bind (payTo_realizes L p) ?_)
      exact .bind (transfer_accepted hok) (setFundsDue_realizes hslots _ hp _)
  · rw [L1Ledger.posterPayment_of_not_isPositive hdue]
    exact .ite_neg hdue (.pure _)

/-- A refused payment to the poster panics, before version 10 as well. -/
theorem preVersion10SettlePoster_refused {p : Address} {e : TransferError}
    (hrefused : L.refusal (L.payTo p) (L.posterPayment .pool p) = some e) :
    Realizes World.handle (Represents sto A)
      (L1PricingState.preVersion10SettlePoster (record sto p)) L
      (.panic (Funding.pool.posterRefused ++ e.debug))
      (L.transferred (L.payTo p) (L.posterPayment .pool p)) := by
  have hne := L1Ledger.ne_zero_of_refused hrefused
  refine .bind (poolBalance_realizes L) (.bind (fundsDue_realizes L p) ?_)
  by_cases hdue : (L.fundsDue p).isPositive = true
  · rw [L1Ledger.posterPayment_of_isPositive hdue] at hrefused hne ⊢
    exact .ite_pos hdue <| .ite_pos hne <| .bind (payTo_realizes L p) <|
      .bind (transfer_refused hrefused) (.panic _)
  · exact absurd (L1Ledger.posterPayment_of_not_isPositive hdue) hne

end

/-! ### The price -/

section
variable {sto : Storage} {A : Set Address} (version : U64) (L : L1Ledger)

omit [Keccak] in
/-- For a positive number of units, no division of the price change is by zero. -/
theorem priceChange_eq {ε : Type} (surplus oldSurplus : I256) (equilUnits : U256)
    (inertia : U64) {units : U64} (hunits : 0 < units) :
    (L1PricingState.priceChange surplus oldSurplus equilUnits inertia units : Exec ε I256)
      = pure (priceChangeOf surplus oldSurplus equilUnits inertia units) := by
  have hpos : (I256.ofU256 (U256.ofU64 units)).toInt ≠ 0 := by
    have h : 0 < units.toNat := BitVec.lt_def.mp hunits
    rw [I256.toInt_ofU256_ofU64]
    omega
  unfold L1PricingState.priceChange priceChangeOf I256.wrappingDiv
  simp only [if_neg hpos]
  split_ifs <;> simp_all

/-- `funds` is the program that supplies the funds. -/
theorem adjustPrice_realizes (hslots : (layout sto).Apart (L1Key.Among A)) {f : Funding}
    {funds : Exec DbError U256}
    (hfunds : Realizes World.handle (Represents sto A) funds L (.ok (L.funds f)) L)
    (arbosVersion units : U64) :
    Realizes World.handle (Represents sto A)
      ((openL1PricingState sto version).adjustPrice funds arbosVersion units) L (.ok ())
      (L.adjustPrice f arbosVersion units) := by
  unfold L1PricingState.adjustPrice L1Ledger.adjustPrice
  by_cases hunits : 0 < units
  · rw [if_pos hunits, if_pos hunits]
    refine .bind (totalFundsDue_realizes version L) ?_
    refine .bind (fundsDueForRewards_realizes version L) (.bind hfunds ?_)
    refine .bind (inertia_realizes version L) (.bind (equilibrationUnits_realizes version L) ?_)
    refine .bind (pricePerUnit_realizes version L) (.bind (lastSurplus_realizes version L) ?_)
    rw [priceChange_eq _ _ _ _ hunits]
    refine .bind (.pure _) (.bind (setLastSurplus_realizes hslots version L _ _) ?_)
    exact setPricePerUnit_realizes hslots version _ _
  · rw [if_neg hunits, if_neg hunits]
    exact .pure _

end

end L1Pricing

end ArbReth
