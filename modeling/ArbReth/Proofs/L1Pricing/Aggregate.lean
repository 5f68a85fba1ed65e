import ArbReth.L1Pricing.DueCalls
import ArbReth.Proofs.L1Pricing.Initial
import ArbReth.Proofs.L1Pricing.LegacyUpdate
import Mathlib.Algebra.BigOperators.Group.List.Basic
import Mathlib.Data.List.Nodup

/-!
# `ArbReth.Proofs.L1Pricing.Aggregate`: the total is the sum of the amounts due

`PosterTable.Balanced` is the invariant of the table. Its list has no account twice, the
mapping is not zero for the accounts of the list, and the total is the sum of their
amounts due.

`balanced_call` is the step: a call of `setFundsDue` for a poster of the table moves the
total by the change of the one amount, when nothing is clamped. `update_toPosterTable`
says that an update is its list of calls, as far as the table goes, however the update
ends. `total_eq_sum` is about every run of a client.
-/

set_option autoImplicit false

namespace ArbReth

open ArbReth.Program

/-- The sum over a list after one summand is replaced. -/
theorem sum_map_update_of_mem {α : Type} [DecidableEq α] {l : List α} (hl : l.Nodup)
    (f : α → Int) {a : α} (ha : a ∈ l) (v : Int) :
    (l.map (Function.update f a v)).sum = (l.map f).sum + v - f a := by
  have hidx : l.idxOf a < (l.map f).length := by simpa using List.idxOf_lt_length_of_mem ha
  rw [hl.map_update, if_pos ha, List.sum_set', dif_pos hidx]
  have hget : (l.map f)[l.idxOf a] = f a := by simp
  rw [hget]
  omega

/-- An update outside the list keeps the sum. -/
theorem sum_map_update_of_not_mem {α : Type} [DecidableEq α] {l : List α} (f : α → Int) {a : α}
    (ha : a ∉ l) (v : Int) : (l.map (Function.update f a v)).sum = (l.map f).sum := by
  refine congrArg List.sum (List.map_congr_left fun x hx => ?_)
  exact Function.update_of_ne (fun h : x = a => ha (h ▸ hx)) _ _

namespace L1Ledger

/-- A new poster is a poster. -/
theorem isPoster_registerWith (L : L1Ledger) (p q : Address)
    (hroom : L.count ≠ BitVec.allOnes 64) : (L.registerWith p q).IsPoster p := by
  have hlt := U64.toNat_add_one_lt hroom
  intro h
  -- The index of a new poster is the count after it, which is not zero in a table with
  -- room.
  have hindex : (L.registerWith p q).index p = U256.ofU64 (L.count + 1) :=
    Function.update_self _ _ _
  have hnat := congrArg BitVec.toNat (hindex.symm.trans h)
  rw [U256.toNat_ofU64, BitVec.toNat_add, Nat.mod_eq_of_lt hlt] at hnat
  have hzero : (0 : U256).toNat = 0 := rfl
  have hone : (1 : U64).toNat = 1 := rfl
  omega

end L1Ledger

namespace PosterTable
variable {T : PosterTable}

/-- The posters in the list of the table. -/
def posters (T : PosterTable) : List Address :=
  (List.range T.count.toNat).map fun i => rawToAddr (T.member (BitVec.ofNat 64 (i + 1)))

/-- The amounts due, as integers. -/
def amounts (T : PosterTable) (p : Address) : Int := (T.fundsDue p).toInt

/-- The list and the mapping agree, and the total is the sum of the amounts due. -/
structure Balanced (T : PosterTable) : Prop where
  nodup : T.posters.Nodup
  index : ∀ p, T.index p ≠ 0 ↔ p ∈ T.posters
  total : T.totalFundsDue.toInt = (T.posters.map T.amounts).sum

/-! ### One call -/

/-- A call changes the amount of its poster only. -/
theorem amounts_call (T : PosterTable) (c : DueCall) :
    (T.call c).amounts = Function.update T.amounts c.poster c.val.toInt := by
  funext q
  by_cases hq : q = c.poster
  · subst hq
    simp [amounts, call]
  · simp [amounts, call, Function.update_of_ne hq]

/-- Where nothing clamps, the total moves by the change of the amount. -/
theorem totalFundsDue_call {c : DueCall} (h : T.Unclamped c) :
    (T.call c).totalFundsDue.toInt
      = T.totalFundsDue.toInt + c.val.toInt - (T.fundsDue c.poster).toInt := by
  show (I256.clamp ((I256.clamp _).toInt - _)).toInt = _
  rw [I256.toInt_clamp_of_inRange h.1, I256.toInt_clamp_of_inRange h.2]

/-- A call for a poster of the table keeps the balance. -/
theorem balanced_call (hT : T.Balanced) {c : DueCall} (hmem : T.index c.poster ≠ 0)
    (h : T.Unclamped c) : (T.call c).Balanced where
  nodup := hT.nodup
  index := hT.index
  total := by
    -- One summand is replaced, and the total moves by the difference.
    have hp := (hT.index c.poster).mp hmem
    rw [amounts_call, totalFundsDue_call h, hT.total]
    exact (sum_map_update_of_mem hT.nodup T.amounts hp c.val.toInt).symm

/-- So do some calls. -/
theorem balanced_calls {cs : List DueCall} (hT : T.Balanced)
    (hmem : ∀ c ∈ cs, T.index c.poster ≠ 0) (h : AllUnclamped cs T) : (T.calls cs).Balanced := by
  induction cs generalizing T with
  | nil => exact hT
  | cons c cs ih =>
      -- The condition on the rest is about the table after the first call.
      have hfirst := balanced_call hT (hmem c List.mem_cons_self) h.1
      exact ih hfirst (fun d hd => hmem d (List.mem_cons_of_mem _ hd)) h.2

/-- The calls do not change who is a poster. -/
theorem index_calls (cs : List DueCall) (T : PosterTable) : (T.calls cs).index = T.index := by
  induction cs generalizing T with
  | nil => rfl
  | cons c cs ih => exact ih (T.call c)

/-! ### A new poster -/

/-- The record of an account that is not a poster does not count. -/
theorem Balanced.enrollWith {L : L1Ledger} (hT : L.toPosterTable.Balanced) {p : Address}
    (hnew : ¬L.IsPoster p) (q : Address) : (L.enrollWith p q).toPosterTable.Balanced where
  nodup := hT.nodup
  index := hT.index
  total := by
    -- The amount is written outside the list, so no summand of the total changes.
    have hp : p ∉ L.toPosterTable.posters := fun h => hnew ((hT.index p).mpr h)
    have hamounts := amounts_call L.toPosterTable ⟨p, I256.zero⟩
    show L.totalFundsDue.toInt = (L.toPosterTable.posters.map
      (L.toPosterTable.call ⟨p, I256.zero⟩).amounts).sum
    rw [hamounts, sum_map_update_of_not_mem _ hp]
    exact hT.total

/-- The list with a new poster. -/
theorem posters_registerWith (L : L1Ledger) (p q : Address) (hroom : L.count ≠ BitVec.allOnes 64) :
    (L.registerWith p q).toPosterTable.posters = L.toPosterTable.posters ++ [p] := by
  have hlt := U64.toNat_add_one_lt hroom
  have hcount : (L.count + 1).toNat = L.count.toNat + 1 := by
    rw [BitVec.toNat_add, Nat.mod_eq_of_lt hlt]
    rfl
  show (List.range (L.count + 1).toNat).map _ = _
  rw [hcount, List.range_succ, List.map_append]
  congr 1
  -- the old slots are not written
  · refine List.map_congr_left fun i hi => ?_
    have hi' := List.mem_range.mp hi
    have hne : BitVec.ofNat 64 (i + 1) ≠ L.count + 1 := by
      intro h
      have hnat := congrArg BitVec.toNat h
      rw [hcount, BitVec.toNat_ofNat, Nat.mod_eq_of_lt (by omega)] at hnat
      omega
    show rawToAddr (Function.update L.member (L.count + 1) p.intoWord _) = _
    rw [Function.update_of_ne hne]
  -- the slot after them holds the new poster
  · have hlast : BitVec.ofNat 64 (L.count.toNat + 1) = L.count + 1 :=
      BitVec.eq_of_toNat_eq (by
        rw [hcount, BitVec.toNat_ofNat]
        exact Nat.mod_eq_of_lt hlt)
    show [rawToAddr (Function.update L.member (L.count + 1) p.intoWord _)] = _
    rw [hlast, Function.update_self]
    exact congrArg (fun a => [a]) (Address.ofWord_intoWord p)

/-- Nothing is due to a new poster. -/
theorem Balanced.registerWith {L : L1Ledger} (hT : L.toPosterTable.Balanced) {p : Address}
    (hnew : ¬L.IsPoster p) (hroom : L.count ≠ BitVec.allOnes 64) (q : Address) :
    (L.registerWith p q).toPosterTable.Balanced := by
  have hp : p ∉ L.toPosterTable.posters := fun h => hnew ((hT.index p).mpr h)
  have hposters := posters_registerWith L p q hroom
  have henrolled := hT.enrollWith hnew q
  refine ⟨?_, ?_, ?_⟩
  · rw [hposters]
    exact List.nodup_append'.mpr ⟨hT.nodup, List.nodup_singleton p, by simpa using hp⟩
  · intro a
    rw [hposters, List.mem_append, List.mem_singleton, ← hT.index a]
    show Function.update L.index p _ a ≠ 0 ↔ _
    by_cases ha : a = p
    · subst ha
      have hposter : (L.registerWith a q).IsPoster a := L.isPoster_registerWith a q hroom
      exact ⟨fun _ => Or.inr rfl, fun _ => hposter⟩
    · rw [Function.update_of_ne ha]
      exact ⟨Or.inl, fun h => h.resolve_right ha⟩
  · have hzero : (L.registerWith p q).toPosterTable.amounts p = 0 := by
      show (Function.update L.fundsDue p I256.zero p).toInt = 0
      rw [Function.update_self]
      rfl
    rw [hposters, List.map_append, List.sum_append, List.map_singleton, List.sum_singleton, hzero,
      Int.add_zero]
    exact henrolled.total

end PosterTable

/-! ### The calls of an update -/

namespace L1Ledger
variable {L : L1Ledger}

/-- The registration of an update pays a new poster to itself. -/
theorem registerWith_self (L : L1Ledger) {p : Address} (hnew : ¬L.IsPoster p) :
    L.register p = L.registerWith p p := if_neg hnew

/-- The payments from version 2 on are their calls, as far as the table goes. -/
theorem settle_toPosterTable (L : L1Ledger) (f : Funding) (arbosVersion updateTime units : U64)
    (p : Address) :
    (L.settle f arbosVersion updateTime units p).2.toPosterTable
      = L.toPosterTable.calls (L.settleCalls f units p) := by
  unfold settleCalls
  -- The payment of rewards touches no amount of a poster, so a refusal there makes no call
  -- and a refusal at the poster neither.
  cases hrewards : (L.debitRewards (L.rewardPayment f units)).refusal L.payRewardsTo
      (L.rewardPayment f units) with
  | some e =>
      rw [settle_of_rewards_refused hrewards, payRewards_of_refused hrewards]
      rfl
  | none =>
      rw [payRewards_of_accepted hrewards]
      cases hposter : (L.paidRewards f units).refusal (L.payTo p)
          ((L.paidRewards f units).posterPayment f p) with
      | some e =>
          rw [settle_of_poster_refused hrewards hposter]
          simp only [show (L.paidRewards f units).payTo p = L.payTo p from rfl, hposter]
          rfl
      | none =>
          rw [settle_of_accepted hrewards hposter, (finish_frame _ _ _ _ _).1]
          simp only [show (L.paidRewards f units).payTo p = L.payTo p from rfl, hposter]
          unfold settlePoster
          split <;> rfl

/-- The payments to the posters of a list. -/
theorem settleAll_toPosterTable [Keccak] (posters : List Address) (availableFunds : U256)
    (L : L1Ledger) :
    (settleAll posters availableFunds L).2.toPosterTable
      = L.toPosterTable.calls (settleAllCalls posters availableFunds L) := by
  induction posters generalizing availableFunds L with
  | nil => rfl
  | cons p posters ih =>
      unfold settleAll settleAllCalls
      by_cases hp : L.IsPoster p
      swap
      -- An account of the list that is not a poster ends the loop with a panic.
      · rw [if_pos hp, if_pos hp]
        rfl
      rw [if_neg (not_not.mpr hp), if_neg (not_not.mpr hp)]
      dsimp only
      by_cases hzero : L.legacyPayment availableFunds p = 0
      · rw [if_pos hzero, if_pos hzero]
        exact ih availableFunds L
      rw [if_neg hzero, if_neg hzero]
      -- A refused payment ends the loop before the amount is lowered.
      cases L.refusal (L.payTo p) (L.legacyPayment availableFunds p) with
      | some e => rfl
      | none => exact ih _ _

/-- The payments before version 2 change the table by their calls. -/
theorem legacyPayAll_toPosterTable [Keccak] (L : L1Ledger) (updateTime units : U64)
    (availableFunds : U256) (oldSurplus : I256) :
    (L.legacyPayAll updateTime units availableFunds oldSurplus).2.toPosterTable
      = L.toPosterTable.calls (L.legacyPayCalls units availableFunds) := by
  unfold legacyPayCalls
  dsimp only
  rw [show (L.debitRewards (L.legacyReward availableFunds units)).payRewardsTo = L.payRewardsTo
    from rfl]
  cases hrewards : (L.debitRewards (L.legacyReward availableFunds units)).refusal L.payRewardsTo
      (L.legacyReward availableFunds units) with
  | some e =>
      rw [legacyPayAll_of_refused hrewards]
      rfl
  | none =>
      rw [legacyPayAll_keeps L1Ledger.toPosterTable _ hrewards, settleAll_toPosterTable]
      · rfl
      · intro L₂
        unfold legacyAdjustPrice
        split <;> rfl

/-- An update of a version is its calls, as far as the table goes. Before them, the poster
is registered, or a record is written for it in a full table. -/
theorem update_toPosterTable [Keccak] (L : L1Ledger) (arbosVersion updateTime currentTime : U64)
    (p : Address) (weiSpent l1Basefee : U256) :
    (L.update arbosVersion updateTime currentTime p weiSpent l1Basefee).2.toPosterTable
      = if ¬L.IsPoster p ∧ L.count = BitVec.allOnes 64 then (L.enroll p).toPosterTable
        else (L.register p).toPosterTable.calls ((L.register p).updateCalls arbosVersion updateTime
          currentTime p weiSpent l1Basefee) := by
  unfold update updateCalls
  -- Before version 2 the loop over the posters makes a call for each payment. From then on
  -- the update pays its own poster only.
  by_cases hversion : arbosVersion < arbosVersion2
  · have hspend : (L.legacySpend updateTime currentTime p weiSpent).2.toPosterTable
        = if ¬L.IsPoster p ∧ L.count = BitVec.allOnes 64 then (L.enroll p).toPosterTable
          else (L.register p).toPosterTable.calls ((L.register p).legacySpendCalls updateTime
            currentTime p weiSpent) := by
      unfold legacySpend legacySpendCalls
      by_cases hfull : ¬L.IsPoster p ∧ L.count = BitVec.allOnes 64
      · rw [if_pos hfull, if_pos hfull]
      rw [if_neg hfull, if_neg hfull]
      dsimp only
      by_cases htime : (L.register p).LegacyTimeOk updateTime currentTime
      · rw [if_neg (not_not.mpr htime), if_neg (not_not.mpr htime), legacyPayAll_toPosterTable]
        rfl
      · rw [if_pos htime, if_pos htime]
        rfl
    rw [if_pos hversion, if_pos hversion, ← hspend]
    rcases L.legacySpend updateTime currentTime p weiSpent with ⟨u | e | m, L'⟩ <;> rfl
  · rw [if_neg hversion, if_neg hversion]
    unfold spend spendCalls
    by_cases hfull : ¬L.IsPoster p ∧ L.count = BitVec.allOnes 64
    · rw [if_pos hfull, if_pos hfull]
    rw [if_neg hfull, if_neg hfull]
    dsimp only
    by_cases htime : (L.register p).TimeOk updateTime currentTime
    · rw [if_neg (not_not.mpr htime), if_neg (not_not.mpr htime), settle_toPosterTable]
      rfl
    · rw [if_pos htime, if_pos htime]
      rfl

/-! ### The posters of the calls -/

/-- The calls of a settlement are about the poster it settles. -/
theorem settleCalls_poster (L : L1Ledger) (f : Funding) (units : U64) (p : Address) :
    ∀ c ∈ L.settleCalls f units p, c.poster = p := by
  unfold settleCalls
  rcases L.payRewards f units with ⟨_ | e, L₁⟩
  · dsimp only
    cases L₁.refusal (L₁.payTo p) (L₁.posterPayment f p) with
    | some e => exact fun _ h => nomatch h
    | none =>
        dsimp only
        split
        · exact fun _ h => nomatch h
        · intro c hc
          rw [List.mem_singleton.mp hc]
          rfl
  · exact fun _ h => nomatch h

/-- The calls of the payments before version 2 are about posters. -/
theorem settleAllCalls_poster (posters : List Address) (availableFunds : U256) (L : L1Ledger) :
    ∀ c ∈ settleAllCalls posters availableFunds L, L.IsPoster c.poster := by
  induction posters generalizing availableFunds L with
  | nil => exact fun _ h => nomatch h
  | cons p posters ih =>
      unfold settleAllCalls
      split
      · exact fun _ h => nomatch h
      · rename_i hp
        dsimp only
        split
        · exact ih availableFunds L
        · split
          · exact fun _ h => nomatch h
          · intro c hc
            rcases List.mem_cons.mp hc with rfl | hc
            · exact not_not.mp hp
            · exact ih _ (L.legacySettle p (L.legacyPayment availableFunds p)) c hc

/-- Every call of an update is for a poster. -/
theorem updateCalls_poster {p : Address} (hp : L.IsPoster p)
    (arbosVersion updateTime currentTime : U64) (weiSpent l1Basefee : U256) :
    ∀ c ∈ L.updateCalls arbosVersion updateTime currentTime p weiSpent l1Basefee,
      L.index c.poster ≠ 0 := by
  unfold updateCalls
  split
  · unfold legacySpendCalls
    split
    · exact fun _ h => nomatch h
    · intro c hc
      rcases List.mem_cons.mp hc with rfl | hc
      · exact hp
      · unfold legacyPayCalls at hc
        dsimp only at hc
        split at hc
        · cases hc
        · have hposter := settleAllCalls_poster _ _ _ c hc
          exact hposter
  · unfold spendCalls
    split
    · exact fun _ h => nomatch h
    · intro c hc
      rcases List.mem_cons.mp hc with rfl | hc
      · exact hp
      · rw [settleCalls_poster _ _ _ _ c hc]
        exact hp

/-! ### The registration -/

/-- The addition of a new poster keeps the balance and the posters. -/
theorem addNew_keeps {L : L1Ledger} (hT : L.toPosterTable.Balanced) {p : Address}
    (hnew : ¬L.IsPoster p) (q : Address) :
    (L.addNew p q).2.toPosterTable.Balanced
      ∧ (∀ a, L.IsPoster a → (L.addNew p q).2.IsPoster a)
      ∧ ∀ reply a, (L.addNew p q).1 = .ok (reply, some a) → (L.addNew p q).2.IsPoster a := by
  unfold L1Ledger.addNew
  by_cases hfull : L.count = BitVec.allOnes 64
  · rw [if_pos hfull]
    exact ⟨hT.enrollWith hnew q, fun _ h => h, fun _ _ h => nomatch h⟩
  · rw [if_neg hfull]
    have hposter := L.isPoster_registerWith p q hfull
    refine ⟨hT.registerWith hnew hfull q, fun a ha => ?_, fun reply a h => ?_⟩
    · by_cases hap : a = p
      · subst hap
        exact hposter
      · show Function.update L.index p _ a ≠ 0
        rw [Function.update_of_ne hap]
        exact ha
    · cases h
      exact hposter

/-- The registration keeps the balance, and the account is a poster then. -/
theorem register_keeps {L : L1Ledger} (hT : L.toPosterTable.Balanced) {p : Address}
    (hroom : L.IsPoster p ∨ L.count ≠ BitVec.allOnes 64) :
    (L.register p).toPosterTable.Balanced ∧ (L.register p).IsPoster p
      ∧ ∀ a, L.IsPoster a → (L.register p).IsPoster a := by
  by_cases hp : L.IsPoster p
  · rw [L1Ledger.register, if_pos hp]
    exact ⟨hT, hp, fun _ h => h⟩
  · have hcount := hroom.resolve_left hp
    have hnew := addNew_keeps hT hp p
    rw [L1Ledger.addNew, if_neg hcount] at hnew
    rw [L.registerWith_self hp]
    exact ⟨hnew.1, L.isPoster_registerWith p p hcount, hnew.2.1⟩

end L1Ledger

/-! ### Runs -/

namespace DueOp
variable [Keccak]

/-- What a client keeps: the table is balanced, and each handle is of a poster. -/
structure Inv (d : Client L1Ledger Address) : Prop where
  balanced : d.state.toPosterTable.Balanced
  handles : ∀ p ∈ d.handles, d.state.IsPoster p

/-- An update without a clamp keeps the balance and the posters. -/
theorem update_keeps {L : L1Ledger} (hT : L.toPosterTable.Balanced)
    {arbosVersion updateTime currentTime : U64} {p : Address} {weiSpent l1Basefee : U256}
    {handles : List Address}
    (h : Unclamped (.update arbosVersion updateTime currentTime p weiSpent l1Basefee) handles L) :
    (L.update arbosVersion updateTime currentTime p weiSpent l1Basefee).2.toPosterTable.Balanced
      ∧ ∀ a, L.IsPoster a
        → (L.update arbosVersion updateTime currentTime p weiSpent l1Basefee).2.IsPoster a := by
  have htable := L.update_toPosterTable arbosVersion updateTime currentTime p weiSpent l1Basefee
  have hindex := congrArg PosterTable.index htable
  -- In a full table the record of the new poster is all that the update leaves.
  by_cases hfull : ¬L.IsPoster p ∧ L.count = BitVec.allOnes 64
  · rw [if_pos hfull] at htable hindex
    rw [htable]
    refine ⟨hT.enrollWith hfull.1 p, fun a ha => ?_⟩
    rw [L1Ledger.IsPoster, hindex]
    exact ha
  · rw [if_neg hfull] at htable hindex
    obtain ⟨hbalanced, hposter, hkeep⟩ :=
      L1Ledger.register_keeps hT (L1Pricing.room_of_not_full hfull)
    rw [htable]
    refine ⟨PosterTable.balanced_calls hbalanced (L1Ledger.updateCalls_poster hposter _ _ _ _ _)
      (h hfull), fun a ha => ?_⟩
    rw [L1Ledger.IsPoster, hindex, PosterTable.index_calls]
    exact hkeep a ha

/-- An operation without a clamp keeps the balance and the posters, and a handle that it
opens is of a poster. -/
theorem apply_keeps (op : DueOp) {handles : List Address} {L : L1Ledger}
    (hT : L.toPosterTable.Balanced) (hhandles : ∀ p ∈ handles, L.IsPoster p)
    (h : op.Unclamped handles L) :
    (op.apply handles L).2.toPosterTable.Balanced
      ∧ (∀ a, L.IsPoster a → (op.apply handles L).2.IsPoster a)
      ∧ ∀ reply a, (op.apply handles L).1 = .ok (reply, some a)
        → (op.apply handles L).2.IsPoster a := by
  cases op with
  | addPoster p q =>
      simp only [apply]
      split
      · exact ⟨hT, fun _ ha => ha, fun _ _ h => nomatch h⟩
      · rename_i hp
        exact L1Ledger.addNew_keeps hT hp q
  | openPoster p create =>
      simp only [apply]
      split
      · rename_i hp
        refine ⟨hT, fun _ ha => ha, fun reply a h => ?_⟩
        cases h
        exact hp
      · rename_i hp
        split
        · exact L1Ledger.addNew_keeps hT hp p
        · exact ⟨hT, fun _ ha => ha, fun _ _ h => nomatch h⟩
  | setFundsDue handle val =>
      simp only [apply]
      cases hhandle : handles[handle]? with
      | none => exact ⟨hT, fun _ ha => ha, fun _ _ h => nomatch h⟩
      | some p =>
          -- The handle is of a poster, so its amount is a summand.
          have hp := hhandles p (List.mem_of_getElem? hhandle)
          have hcall : (L.toPosterTable.call ⟨p, val⟩).Balanced :=
            PosterTable.balanced_call (c := ⟨p, val⟩) hT hp (h p hhandle)
          exact ⟨hcall, fun _ ha => ha, fun _ _ h => nomatch h⟩
  | update arbosVersion updateTime currentTime p weiSpent l1Basefee =>
      obtain ⟨hbalanced, hkeep⟩ := update_keeps hT h
      refine ⟨hbalanced, hkeep, fun reply a hopened => ?_⟩
      simp only [apply] at hopened
      generalize (L.update arbosVersion updateTime currentTime p weiSpent l1Basefee).1 = r
        at hopened
      -- an update opens no handle
      cases r <;> cases hopened

/-- A step of a client without a clamp keeps the invariant. -/
theorem step_keeps (op : DueOp) (d : Client L1Ledger Address) (hd : Inv d)
    (h : op.Unclamped d.handles d.state) : Inv (Client.specStep apply op d).2 := by
  obtain ⟨hbalanced, hkeep, hopened⟩ := apply_keeps op hd.balanced hd.handles h
  refine ⟨?_, Client.forall_handles_after _ hd.handles hkeep hopened⟩
  rw [Client.specStep, Client.after_state]
  exact hbalanced

end DueOp

/-- What the table reads from the store: its posters, each once, and a total that is the sum
of the amounts due to them. -/
def BatchPostersTable.TotalIsSum [Keccak] (table : BatchPostersTable) (w : World) : Prop :=
  ∃ (posters : List Address) (due : Address → I256) (total : I256),
    World.run (table.allPosters (BitVec.allOnes 64)) w = (.ok posters, w)
    ∧ posters.Nodup
    ∧ (∀ p, World.run (table.containsPoster p) w = (.ok (decide (p ∈ posters)), w))
    ∧ (∀ p ∈ posters, ∃ poster, World.run (table.openPoster p false) w = (.ok poster, w)
      ∧ World.run poster.fundsDue w = (.ok (due p), w))
    ∧ World.run table.totalFundsDue w = (.ok total, w)
    ∧ total.toInt = (posters.map fun p => (due p).toInt).sum

namespace DueOp

/-- An operation that adds an account adds one of `A`. -/
def Among (A : Set Address) : DueOp → Prop
  | .addPoster posterAddress _ => posterAddress ∈ A
  | .openPoster poster createIfNotExist => createIfNotExist = true → poster ∈ A
  | .setFundsDue _ _ => True
  | .update _ _ _ batchPoster _ _ => batchPoster ∈ A

/-- A handle that is opened is one of an account of `A`. -/
theorem opened_among {A : Set Address} {L : L1Ledger} (hamong : ∀ p, L.IsPoster p → p ∈ A)
    [Keccak] (op : DueOp) (handles : List Address) (hop : op.Among A) (p : Address)
    (h : (op.apply handles L).1 = .ok ((), some p)) : p ∈ A := by
  have hnew : ∀ a q, a ∈ A → (L.addNew a q).1 = .ok ((), some p) → p ∈ A := by
    intro a q ha hadd
    unfold L1Ledger.addNew at hadd
    split at hadd <;> cases hadd
    exact ha
  cases op with
  | addPoster a q =>
      simp only [apply] at h
      split at h
      · cases h
      · exact hnew a q hop h
  | openPoster a create =>
      simp only [apply] at h
      split at h
      · rename_i ha
        cases h
        exact hamong p ha
      · split at h
        · rename_i hcreate
          exact hnew a a (hop hcreate) h
        · cases h
  | setFundsDue handle val =>
      simp only [apply] at h
      split at h <;> cases h
  | update arbosVersion updateTime currentTime a weiSpent l1Basefee =>
      simp only [apply] at h
      generalize (L.update arbosVersion updateTime currentTime a weiSpent l1Basefee).1 = r at h
      cases r <;> cases h

end DueOp

namespace L1Pricing

section
variable [Keccak] {sto : Storage} {A : Set Address} (hslots : (layout sto).Apart (L1Key.Among A))
include hslots

/-- The addition of a poster that is not one yet. -/
theorem addNew_realizes (L : L1Ledger) {p : Address} (hpA : p ∈ A) (hnew : ¬L.IsPoster p)
    (q : Address) :
    Realizes World.handle (Represents sto A)
      (do
        let bpState ← ((BatchPostersTable.open (tableSpace sto)).addPoster p q).mapErr
          DueError.table
        pure ((), some bpState))
      L ((L.addNew p q).1.map fun r => (r.1, r.2.map (record sto))) (L.addNew p q).2 := by
  unfold L1Ledger.addNew
  by_cases hfull : L.count = BitVec.allOnes 64
  · rw [if_pos hfull]
    exact .bind_panic (.mapErr_panic (addPoster_panics hslots L hpA q hnew hfull))
  · rw [if_neg hfull]
    exact .bind (.mapErr (addPoster_realizes hslots L hpA q hnew hfull)) (.pure _)

/-- Each operation of a client ends as on the ledger. -/
theorem dueOp_realizes (version : U64) (L : L1Ledger) {handles : List Address}
    (hhandles : ∀ p ∈ handles, p ∈ A) {op : DueOp} (hop : op.Among A) :
    Realizes World.handle (Represents sto A)
      (op.program (openL1PricingState sto version) (handles.map (record sto))) L
      ((op.apply handles L).1.map fun r => (r.1, r.2.map (record sto)))
      (op.apply handles L).2 := by
  cases op with
  | addPoster p q =>
      simp only [DueOp.apply, DueOp.program]
      have hmember := isMember_realizes sto A L p
      by_cases hp : L.IsPoster p
      · rw [decide_eq_true hp] at hmember
        rw [if_pos hp]
        -- The error of the semantic level is passed on and nothing is written.
        exact .bind_err (.handleErr_err (.bind (.mapErr hmember) (.fail _)) (.fail _))
      · rw [if_neg hp]
        exact addNew_realizes hslots L hop hp q
  | openPoster p create =>
      simp only [DueOp.apply, DueOp.program]
      have hmember := isMember_realizes sto A L p
      by_cases hp : L.IsPoster p
      · rw [decide_eq_true hp] at hmember
        rw [if_pos hp]
        exact .bind (.mapErr (.bind (.mapErr hmember) (.pure _))) (.pure _)
      rw [if_neg hp]
      cases create with
      | false => exact .bind_err (.handleErr_err (openMember_rejects L hp) (.fail _))
      | true =>
          rw [if_pos rfl]
          unfold L1Ledger.addNew
          by_cases hfull : L.count = BitVec.allOnes 64
          · rw [if_pos hfull]
            exact .bind_panic (.mapErr_panic (openPoster_panics hslots L (hop rfl) hp hfull))
          · rw [if_neg hfull]
            have hopen := openPoster_realizes hslots L (hop rfl) (Or.inr hfull)
            rw [L.registerWith_self hp] at hopen
            exact .bind (.mapErr hopen) (.pure _)
  | setFundsDue handle val =>
      simp only [DueOp.apply, DueOp.program]
      rw [List.getElem?_map]
      cases hhandle : handles[handle]? with
      | none => exact .pure _
      | some p =>
          have hpA : p ∈ A := hhandles p (List.mem_of_getElem? hhandle)
          exact .bind (.mapErr (setFundsDue_realizes hslots L hpA val)) (.pure _)
  | update arbosVersion updateTime currentTime p weiSpent l1Basefee =>
      have hupdate := anyUpdate_realizes hslots version L arbosVersion updateTime currentTime hop
        weiSpent l1Basefee
      have hprogram := (hupdate.mapErr_map DueError.spending).bind_pure
        fun _ => ((), (none : Option BatchPosterState))
      simp only [DueOp.apply]
      generalize (L.update arbosVersion updateTime currentTime p weiSpent l1Basefee).1 = r
        at hprogram
      cases r <;> exact hprogram

/-- The aggregate is the sum of its parts. After the initialization of a table without
posters and every run of a client in which no call of `setFundsDue` is clamped, the total
is the sum of the amounts due to the posters, each of which is in the list once. `A` holds
the accounts that are added. -/
theorem total_eq_sum (version : U64) {w : World} {L : L1Ledger} (hR : Represents sto A w L)
    (hblank : ∀ p, ¬L.IsPoster p) (ops : List DueOp) (hops : ∀ op ∈ ops, op.Among A)
    (hexact : Client.Admissible (Client.specStep DueOp.apply)
      (fun d op => op.Unclamped d.handles d.state) ops ⟨L.initTable, []⟩) :
    let self := openL1PricingState sto version
    let start := World.run (BatchPostersTable.initializeTable (tableSpace sto)) w
    let final := (Client.run (Client.step World.handle (DueOp.program self)) ops
      ⟨start.2, []⟩).2.state
    start.1 = .ok () ∧ self.batchPosterTable.TotalIsSum final := by
  intro self start final
  obtain ⟨w₀, hrun, hR₀⟩ := initializeTable_realizes hslots L w hR
  have hstart : start = (.ok (), w₀) := hrun
  -- the run of the client is the run on the ledger, with handles for accounts of `A`
  let Rel : Client World BatchPosterState → Client L1Ledger Address → Prop := fun c d =>
    Client.Simulates (Represents sto A) (record sto) c d ∧ ∀ p ∈ d.handles, p ∈ A
  have hstep : ∀ op ∈ ops, ∀ c d, Rel c d →
      (Client.step World.handle (DueOp.program self) op c).1
          = (Client.specStep DueOp.apply op d).1
        ∧ Rel (Client.step World.handle (DueOp.program self) op c).2
          (Client.specStep DueOp.apply op d).2 := by
    rintro op hop c d ⟨hsim, hhandles⟩
    obtain ⟨hout, hsim'⟩ := Client.step_simulates hsim
      (dueOp_realizes hslots version d.state hhandles (hops op hop) c.state hsim.state)
    refine ⟨hout, hsim', ?_⟩
    exact Client.forall_handles_after (P := fun (_ : L1Ledger) p => p ∈ A) _ hhandles
      (fun _ hp => hp) fun _ p h => op.opened_among hsim.state.among d.handles (hops op hop) p h
  obtain ⟨-, hsim, -⟩ := Client.run_simulates ops hstep ⟨w₀, []⟩ ⟨L.initTable, []⟩
    ⟨⟨hR₀, rfl⟩, fun _ h => nomatch h⟩
  have hfinal : (Client.run (Client.step World.handle (DueOp.program self)) ops
      ⟨w₀, []⟩).2.state = final := by
    simp only [final, hstart]
  have hfinalR := hsim.state
  rw [hfinal] at hfinalR
  -- the invariant holds at the start, of the table without posters
  have hinit : DueOp.Inv ⟨L.initTable, []⟩ := by
    refine ⟨⟨List.nodup_nil, fun p => ?_, rfl⟩, fun _ h => nomatch h⟩
    exact ⟨fun h => absurd h (hblank p), fun h => nomatch h⟩
  have hinv := Client.run_invariant (fun op d hd h => DueOp.step_keeps op d hd h) ops _ hinit
    hexact
  have hbalanced := hinv.balanced
  generalize (Client.run (Client.specStep DueOp.apply) ops ⟨L.initTable, []⟩).2.state = L'
    at hfinalR hbalanced
  -- What is read back from the store is the list, the amounts and the total of the ledger.
  refine ⟨by rw [hstart], L'.posterList, L'.fundsDue, L'.totalFundsDue,
    run_allPosters version L' hfinalR, hbalanced.nodup, fun p => ?_, fun p hp => ?_,
    StorageBackedBigInt.run_get _ (hfinalR.table .totalFundsDue), hbalanced.total⟩
  · have hmember := run_isMember hfinalR p
    have hiff : L'.IsPoster p ↔ p ∈ L'.posterList := hbalanced.index p
    rw [decide_eq_decide.mpr hiff] at hmember
    exact hmember
  · exact ⟨record sto p, run_openMember L' hfinalR ((hbalanced.index p).mpr hp),
      StorageBackedBigInt.run_get _ (hfinalR.table (.fundsDue p))⟩

end

end L1Pricing

namespace L1Pricing
attribute [local instance] sampleHash

/-- Two posters, one amount below zero and one raised by an update. -/
def sampleDueOps : List DueOp :=
  [.addPoster 7 8, .openPoster 9 true, .setFundsDue 0 (I256.clamp (-3)), .update 10 5 6 9 4 0]

/-- Two posters, one of them with a negative amount, and an update for the other. -/
theorem total_eq_sum_sample :
    let self := openL1PricingState sampleRoot 10
    let start := World.run (BatchPostersTable.initializeTable (tableSpace sampleRoot)) sampleStart
    let final := (Client.run (Client.step World.handle (DueOp.program self)) sampleDueOps
      ⟨start.2, []⟩).2.state
    start.1 = .ok () ∧ self.batchPosterTable.TotalIsSum final := by
  have hfresh : Represents sampleRoot Set.univ sampleStart (L1Ledger.fresh sampleStart.balance) :=
    represents_fresh rfl fun _ => rfl
  have hexact : Client.Admissible (Client.specStep DueOp.apply)
      (fun d op => op.Unclamped d.handles d.state) sampleDueOps
      ⟨(L1Ledger.fresh sampleStart.balance).initTable, []⟩ := by
    refine ⟨trivial, trivial, ?_, ?_, trivial⟩
    · intro poster hposter
      cases hposter
      decide
    · intro _
      decide
  exact total_eq_sum sampleRoot_layout_apart 10 hfresh (fun _ h => h rfl) sampleDueOps
    (by simp [sampleDueOps, DueOp.Among]) hexact

end L1Pricing

end ArbReth
