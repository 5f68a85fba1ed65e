import ArbReth.Greedy
import ArbReth.Proofs.L1Pricing.Aggregate
import ArbReth.Proofs.L1Pricing.LegacyReference
import ArbReth.Proofs.L1Pricing.Times

/-!
# `ArbReth.Proofs.L1Pricing.LegacySettlement`: the settlement before version 2 is greedy

The update before version 2 pays the rewards and then all posters in the order of the list,
from the share of the pool account that falls to it. The payments are the `Greedy.shares` of
the positive amounts due.

`PaidOut` says what a list of payments does to a ledger. It composes, so the loop is an
induction over the list (`settleAll_greedy`). The invariant is that the pool account covers
what is left, so no payment is refused for lack of funds. A payment is refused when the
payee cannot hold it, and then the update panics: `CanHold` is the exact condition.
-/

set_option autoImplicit false

namespace ArbReth

open ArbReth.Program ArbReth.Greedy

namespace L1Ledger
variable {L L₁ L' : L1Ledger}

/-! ### What payments do -/

/-- The amount that a poster claims. -/
def claim (L : L1Ledger) (p : Address) : Nat := (L.fundsDue p).toInt.toNat

/-- The ledger `L'` is `L` after the payments from the pool account to the payees of the
posters. -/
structure PaidOut (L : L1Ledger) (payments : List (Address × Nat)) (L' : L1Ledger) : Prop where
  index : L'.index = L.index
  payTo : L'.payTo = L.payTo
  due : ∀ p s, (p, s) ∈ payments → (L'.fundsDue p).toInt = (L.fundsDue p).toInt - s
  others : ∀ p, p ∉ payments.map Prod.fst → L'.fundsDue p = L.fundsDue p
  balance : ∀ a, a ≠ l1PricerFundsPoolAddress →
    (L'.balance a).toNat = (L.balance a).toNat + received L.payTo payments a
  pool : (L'.balance l1PricerFundsPoolAddress).toNat + total payments
    = (L.balance l1PricerFundsPoolAddress).toNat
      + received L.payTo payments l1PricerFundsPoolAddress

/-- Every account but the pool account can hold what it is paid. -/
def CanHold (L : L1Ledger) (paid : Address → Nat) : Prop :=
  ∀ a, a ≠ l1PricerFundsPoolAddress → (L.balance a).toNat + paid a < 2 ^ 256

/-- With no payments nothing changes. -/
theorem PaidOut.nil (L : L1Ledger) : L.PaidOut [] L where
  index := rfl
  payTo := rfl
  due _ _ h := by cases h
  others _ _ := rfl
  balance _ _ := rfl
  pool := rfl

/-- One payment and then the others, which are to other posters. -/
theorem PaidOut.cons {p : Address} {s : Nat} {payments : List (Address × Nat)}
    (hfirst : L.PaidOut [(p, s)] L₁) (hrest : L₁.PaidOut payments L')
    (hp : p ∉ payments.map Prod.fst) : L.PaidOut ((p, s) :: payments) L' where
  index := hrest.index.trans hfirst.index
  payTo := hrest.payTo.trans hfirst.payTo
  due q t h := by
    rcases List.mem_cons.mp h with heq | h
    · cases heq
      rw [hrest.others p hp]
      exact hfirst.due p s (List.mem_singleton.mpr rfl)
    · have hq : q ∉ [(p, s)].map Prod.fst := by
        intro hq
        have hqp : q = p := by simpa using hq
        exact hp (hqp ▸ List.mem_map_of_mem h)
      rw [hrest.due q t h, hfirst.others q hq]
  others q hq := by
    rw [List.map_cons, List.mem_cons, not_or] at hq
    rw [hrest.others q hq.2]
    exact hfirst.others q (by simpa using hq.1)
  balance a ha := by
    rw [hrest.balance a ha, hfirst.balance a ha, hfirst.payTo, received_cons, received_cons,
      received_nil]
    omega
  pool := by
    have h₁ := hfirst.pool
    have h₂ := hrest.pool
    rw [hfirst.payTo] at h₂
    rw [total_cons, received_cons] at h₁ ⊢
    rw [total_nil, received_nil] at h₁
    omega

/-- A payment of nothing that is not made. -/
theorem PaidOut.skip (L : L1Ledger) (p : Address) : L.PaidOut [(p, 0)] L where
  index := rfl
  payTo := rfl
  due q t h := by
    cases List.mem_singleton.mp h
    simp
  others _ _ := rfl
  balance a _ := by simp
  pool := by simp

/-- The word that is paid to a poster is its share. -/
theorem toNat_legacyPayment_eq (L : L1Ledger) (availableFunds : U256) (p : Address) :
    (L.legacyPayment availableFunds p).toNat = min (L.claim p) availableFunds.toNat := by
  have h := L.toNat_legacyPayment availableFunds p
  unfold claim
  omega

/-- The answer to a payment that the pool account covers. -/
theorem refusal_of_le {dst : Address} {amount : U256}
    (hle : amount ≤ L.balance l1PricerFundsPoolAddress) :
    L.refusal dst amount
      = if dst ≠ l1PricerFundsPoolAddress ∧ 2 ^ 256 ≤ (L.balance dst).toNat + amount.toNat then
          some .overflowPayment
        else none := by
  rw [refusal, transferRefusal, if_neg (BitVec.not_lt.mpr hle)]
  simp only [ne_comm]

/-- The balances after a payment, also of the pool account to itself. -/
theorem toNat_pay (L : L1Ledger) (f : Funding) {dst : Address} {amount : U256}
    (hle : amount ≤ L.balance l1PricerFundsPoolAddress)
    (hfit : dst ≠ l1PricerFundsPoolAddress → (L.balance dst).toNat + amount.toNat < 2 ^ 256) :
    (∀ a, a ≠ l1PricerFundsPoolAddress → ((L.pay f dst amount).balance a).toNat
      = (L.balance a).toNat + if dst = a then amount.toNat else 0)
    ∧ ((L.pay f dst amount).balance l1PricerFundsPoolAddress).toNat + amount.toNat
      = (L.balance l1PricerFundsPoolAddress).toNat
        + if dst = l1PricerFundsPoolAddress then amount.toNat else 0 := by
  by_cases hself : dst = l1PricerFundsPoolAddress
  · -- the pool account pays itself, and nothing moves
    subst hself
    have hsame : (L.pay f l1PricerFundsPoolAddress amount).balance = L.balance :=
      movedBalance_self L.balance l1PricerFundsPoolAddress amount
    rw [hsame, if_pos rfl]
    refine ⟨fun a ha => ?_, rfl⟩
    rw [if_neg (Ne.symm ha)]
    rfl
  · obtain ⟨hpool, hothers⟩ := toNat_balance_pay L f hself hle (hfit hself)
    rw [if_neg hself]
    refine ⟨fun a ha => ?_, hpool⟩
    rw [hothers a ha]
    simp only [eq_comm]

/-- A payment that is made. -/
theorem legacySettle_paidOut {p : Address} {amount : U256}
    (hle : amount ≤ L.balance l1PricerFundsPoolAddress) (hclaim : amount.toNat ≤ L.claim p)
    (hfit : L.payTo p ≠ l1PricerFundsPoolAddress →
      (L.balance (L.payTo p)).toNat + amount.toNat < 2 ^ 256) :
    L.PaidOut [(p, amount.toNat)] (L.legacySettle p amount) where
  index := rfl
  payTo := rfl
  due q t h := by
    cases List.mem_singleton.mp h
    have hlt := (L.fundsDue p).inRange
    unfold claim at hclaim
    -- the amount is at most the due, so neither the conversion nor the subtraction saturates
    have hword : (I256.ofU256 amount).toInt = amount.toNat :=
      I256.toInt_ofU256_of_inRange ⟨by omega, by have := hlt.2; omega⟩
    show (Function.update L.fundsDue p _ p).toInt = _
    rw [Function.update_self, I256.saturatingSub, hword]
    exact I256.toInt_clamp_of_inRange ⟨by have := hlt.1; omega, by have := hlt.2; omega⟩
  others q hq := Function.update_of_ne (fun h : q = p => hq (by simp [h])) _ _
  balance a ha := by
    have hmoved := (toNat_pay L .pool hle hfit).1 a ha
    rw [received_cons, received_nil]
    exact hmoved
  pool := by
    have hmoved := (toNat_pay L .pool hle hfit).2
    rw [received_cons, received_nil, total_cons, total_nil]
    exact hmoved

/-! ### The loop over the posters -/

/-- The message of a payment to a poster that the payee cannot hold. -/
def posterOverflow : String :=
  "pre_version2: poster payment transfer failed: " ++ TransferError.overflowPayment.debug

/-- The payees can hold a first payment and then the others exactly when they can hold all. -/
theorem canHold_cons {p : Address} {s : Nat} {payments : List (Address × Nat)}
    (hfirst : L.PaidOut [(p, s)] L₁) :
    L₁.CanHold (received L₁.payTo payments)
      ↔ L.CanHold (received L.payTo ((p, s) :: payments)) := by
  unfold CanHold
  refine forall₂_congr fun a ha => ?_
  rw [hfirst.balance a ha, hfirst.payTo, received_cons, received_cons, received_nil]
  omega

/-- The run has made the payments, when the payees can hold them. Otherwise it has panicked at
the first payment that its payee cannot hold. -/
structure Pays (L : L1Ledger) (payments : List (Address × Nat))
    (result : Outcome DbError Unit × L1Ledger) : Prop where
  made : L.CanHold (received L.payTo payments) → result.1 = .ok () ∧ L.PaidOut payments result.2
  refused : ¬L.CanHold (received L.payTo payments) → result.1 = .panic posterOverflow

/-- A run over no posters pays nothing. -/
theorem Pays.nil (L : L1Ledger) : L.Pays [] (.ok (), L) where
  made _ := ⟨rfl, PaidOut.nil L⟩
  refused h := by
    refine absurd (fun a _ => ?_) h
    rw [received_nil]
    exact (L.balance a).isLt

/-- After a first payment that is made, the run makes the others. -/
theorem Pays.cons {p : Address} {s : Nat} {payments : List (Address × Nat)}
    {result : Outcome DbError Unit × L1Ledger} (hfirst : L.PaidOut [(p, s)] L₁)
    (hrest : L₁.Pays payments result) (hp : p ∉ payments.map Prod.fst) :
    L.Pays ((p, s) :: payments) result where
  made h := by
    obtain ⟨hok, hpaid⟩ := hrest.made ((canHold_cons hfirst).mpr h)
    exact ⟨hok, hfirst.cons hpaid hp⟩
  refused h := hrest.refused fun hhold => h ((canHold_cons hfirst).mp hhold)

/-- A first payment that its payee cannot hold. The ledger that it leaves does not matter. -/
theorem Pays.overflow {p : Address} {s : Nat} (payments : List (Address × Nat)) (L₁ : L1Ledger)
    (hpool : L.payTo p ≠ l1PricerFundsPoolAddress)
    (hover : 2 ^ 256 ≤ (L.balance (L.payTo p)).toNat + s) :
    L.Pays ((p, s) :: payments) (.panic posterOverflow, L₁) where
  made h := by
    have hdst := h (L.payTo p) hpool
    rw [received_cons, if_pos rfl] at hdst
    omega
  refused _ := rfl

/-- The loop pays the shares of the posters. -/
theorem settleAll_greedy [Keccak] {posters : List Address} (hnodup : posters.Nodup)
    (availableFunds : U256) (L : L1Ledger) (hposters : ∀ p ∈ posters, L.IsPoster p)
    (hle : availableFunds ≤ L.balance l1PricerFundsPoolAddress) :
    L.Pays (shares L.claim posters availableFunds.toNat) (settleAll posters availableFunds L) := by
  induction posters generalizing availableFunds L with
  | nil => exact Pays.nil L
  | cons p posters ih =>
      obtain ⟨hp, hnodup'⟩ := List.nodup_cons.mp hnodup
      have hamount := L.toNat_legacyPayment_eq availableFunds p
      rw [shares, ← hamount]
      unfold settleAll
      rw [if_neg (not_not.mpr (hposters p List.mem_cons_self))]
      dsimp only
      generalize L.legacyPayment availableFunds p = amount at hamount
      have hclaim : amount.toNat ≤ L.claim p := by omega
      have hleft : amount ≤ availableFunds := by
        rw [BitVec.le_def]
        omega
      have hpool := BitVec.le_trans hleft hle
      -- after a payment that is made, the rest of the loop starts from the ledger `L₁`
      have hstep : ∀ L₁ : L1Ledger, L.PaidOut [(p, amount.toNat)] L₁ →
          L.Pays ((p, amount.toNat)
              :: shares L.claim posters (availableFunds.toNat - amount.toNat))
            (settleAll posters (availableFunds - amount) L₁) := by
        intro L₁ hfirst
        have hsub : (availableFunds - amount).toNat = availableFunds.toNat - amount.toNat :=
          BitVec.toNat_sub_of_le hleft
        have hposters' : ∀ q ∈ posters, L₁.IsPoster q := by
          intro q hq
          rw [IsPoster, hfirst.index]
          exact hposters q (List.mem_cons_of_mem _ hq)
        have hclaims : ∀ q ∈ posters, L₁.claim q = L.claim q := by
          intro q hq
          have hqp : q ≠ p := fun h => hp (h ▸ hq)
          rw [claim, claim, hfirst.others q (by simpa using hqp)]
        have hcovers : availableFunds - amount ≤ L₁.balance l1PricerFundsPoolAddress := by
          have h := hfirst.pool
          rw [total_cons, total_nil] at h
          rw [BitVec.le_def] at hle ⊢
          omega
        have hrest := ih hnodup' (availableFunds - amount) L₁ hposters' hcovers
        rw [shares_congr hclaims, hsub] at hrest
        exact hrest.cons hfirst (by rwa [map_fst_shares])
      by_cases hzero : amount = 0
      · -- no payment is made, and the rest of the loop starts from `L` itself
        subst hzero
        rw [if_pos rfl]
        have hskip := hstep L (PaidOut.skip L p)
        rwa [show availableFunds - 0 = availableFunds from BitVec.sub_zero _] at hskip
      · rw [if_neg hzero, refusal_of_le hpool]
        by_cases hover : L.payTo p ≠ l1PricerFundsPoolAddress
            ∧ 2 ^ 256 ≤ (L.balance (L.payTo p)).toNat + amount.toNat
        · rw [if_pos hover]
          exact Pays.overflow _ _ hover.1 hover.2
        · rw [if_neg hover]
          rw [not_and, not_le] at hover
          exact hstep _ (legacySettle_paidOut hpool hclaim hover)

/-! ### The rewards and the posters -/

/-- The message of a payment of rewards that the recipient cannot hold. -/
def rewardsOverflow : String :=
  "pre_version2: rewards transfer failed: " ++ TransferError.overflowPayment.debug

/-- What an account gets from the reward and from the payments to the posters. -/
def paid (L : L1Ledger) (reward : Nat) (payments : List (Address × Nat)) (a : Address) : Nat :=
  (if L.payRewardsTo = a then reward else 0) + received L.payTo payments a

/-- The ledger `L'` is `L` after the reward and the payments to the posters, as far as the
amounts due and the balances go. -/
structure Settled (L : L1Ledger) (reward : Nat) (payments : List (Address × Nat))
    (L' : L1Ledger) : Prop where
  due : ∀ p s, (p, s) ∈ payments → (L'.fundsDue p).toInt = (L.fundsDue p).toInt - s
  others : ∀ p, p ∉ payments.map Prod.fst → L'.fundsDue p = L.fundsDue p
  balance : ∀ a, a ≠ l1PricerFundsPoolAddress →
    (L'.balance a).toNat = (L.balance a).toNat + L.paid reward payments a
  pool : (L'.balance l1PricerFundsPoolAddress).toNat + (reward + total payments)
    = (L.balance l1PricerFundsPoolAddress).toNat + L.paid reward payments l1PricerFundsPoolAddress

/-- The ledger `L₁` is `L` after the reward, as far as the table of the posters and the
balances go. -/
structure RewardPaid (L : L1Ledger) (reward : Nat) (L₁ : L1Ledger) : Prop where
  table : L₁.toPosterTable = L.toPosterTable
  balance : ∀ a, a ≠ l1PricerFundsPoolAddress →
    (L₁.balance a).toNat = (L.balance a).toNat + if L.payRewardsTo = a then reward else 0
  pool : (L₁.balance l1PricerFundsPoolAddress).toNat + reward
    = (L.balance l1PricerFundsPoolAddress).toNat
      + if L.payRewardsTo = l1PricerFundsPoolAddress then reward else 0

namespace RewardPaid
variable {reward : Nat} {payments : List (Address × Nat)} (h : L.RewardPaid reward L₁)
include h

/-- The amounts due are the same. -/
theorem fundsDue_eq : L₁.fundsDue = L.fundsDue := congrArg PosterTable.fundsDue h.table

/-- The pay-to addresses are the same. -/
theorem payTo_eq : L₁.payTo = L.payTo := congrArg PosterTable.payTo h.table

/-- What the posters can claim is the same. -/
theorem claim_eq : L₁.claim = L.claim := by
  funext p
  rw [claim, claim, h.fundsDue_eq]

/-- The posters are the same. -/
theorem isPoster_iff (p : Address) : L₁.IsPoster p ↔ L.IsPoster p := by
  rw [IsPoster, IsPoster, congrArg PosterTable.index h.table]

/-- The payees can hold the payments after the reward exactly when all of it can be held. -/
theorem canHold_iff :
    L₁.CanHold (received L₁.payTo payments) ↔ L.CanHold (L.paid reward payments) := by
  unfold CanHold
  refine forall₂_congr fun a ha => ?_
  rw [h.balance a ha, h.payTo_eq, paid]
  omega

/-- The payments to the posters after the reward. -/
theorem settled (hpaid : L₁.PaidOut payments L') : L.Settled reward payments L' where
  due p s hs := by
    rw [← h.fundsDue_eq]
    exact hpaid.due p s hs
  others p hp := by
    rw [← h.fundsDue_eq]
    exact hpaid.others p hp
  balance a ha := by
    rw [hpaid.balance a ha, h.balance a ha, h.payTo_eq, paid, Nat.add_assoc]
  pool := by
    have h₁ := h.pool
    have h₂ := hpaid.pool
    rw [h.payTo_eq] at h₂
    rw [paid]
    omega

end RewardPaid

/-- The end of the update writes neither amounts due nor balances. -/
theorem Settled.finish {reward : Nat} {payments : List (Address × Nat)}
    (h : L.Settled reward payments L') (updateTime units : U64) (oldSurplus : I256) :
    L.Settled reward payments
      ({ L' with lastUpdateTime := updateTime }.legacyAdjustPrice oldSurplus units) := by
  rw [legacyAdjustPrice_only]
  exact ⟨h.due, h.others, h.balance, h.pool⟩

/-- A poster that is left with a due was cut short, so the posters have used up their funds. -/
theorem Settled.total_eq {reward availableFunds : Nat} {posters : List Address}
    (h : L.Settled reward (shares L.claim posters availableFunds) L') {p : Address}
    (hp : p ∈ posters) (hdue : 0 < (L'.fundsDue p).toInt) :
    total (shares L.claim posters availableFunds) = availableFunds := by
  have hmem : p ∈ (shares L.claim posters availableFunds).map Prod.fst := by
    rw [map_fst_shares]
    exact hp
  obtain ⟨⟨q, s⟩, hs, rfl⟩ := List.mem_map.mp hmem
  have hleft := h.due q s hs
  have hshort : s < L.claim q := by
    unfold claim
    dsimp only at hdue
    omega
  exact total_eq_of_short L.claim hs hshort

section
variable [Keccak] {availableFunds : U256} (updateTime units : U64) (oldSurplus : I256)

omit [Keccak] in
/-- A reward that the pool account covers and that its recipient can hold is paid. -/
theorem rewardPaid_legacyPaidRewards
    (hle : L.legacyReward availableFunds units ≤ L.balance l1PricerFundsPoolAddress)
    (hfit : L.payRewardsTo ≠ l1PricerFundsPoolAddress →
      (L.balance L.payRewardsTo).toNat + (L.legacyReward availableFunds units).toNat < 2 ^ 256) :
    L.RewardPaid (L.legacyReward availableFunds units).toNat
      (L.legacyPaidRewards availableFunds units) := by
  obtain ⟨hmoved, hmovedPool⟩ := toNat_pay L .pool hle hfit
  exact ⟨rfl, hmoved, hmovedPool⟩

/-- The reward is paid, and then the shares of the posters, when all of it can be held. -/
theorem legacyPayAll_greedy (L : L1Ledger) (hnodup : L.posterList.Nodup)
    (hposters : ∀ p ∈ L.posterList, L.IsPoster p)
    (hle : availableFunds ≤ L.balance l1PricerFundsPoolAddress) :
    let reward := (L.legacyReward availableFunds units).toNat
    let payments := shares L.claim L.posterList (availableFunds.toNat - reward)
    let result := L.legacyPayAll updateTime units availableFunds oldSurplus
    (L.CanHold (L.paid reward payments) →
      result.1 = .ok () ∧ L.Settled reward payments result.2)
    ∧ (¬L.CanHold (L.paid reward payments) →
      result.1 = .panic rewardsOverflow ∨ result.1 = .panic posterOverflow) := by
  intro reward payments result
  have hlereward : L.legacyReward availableFunds units ≤ availableFunds := by
    rw [BitVec.le_def, L.toNat_legacyReward availableFunds units]
    exact Nat.min_le_left _ _
  have hpool := BitVec.le_trans hlereward hle
  have hrefusal : (L.debitRewards (L.legacyReward availableFunds units)).refusal L.payRewardsTo
      (L.legacyReward availableFunds units)
      = if L.payRewardsTo ≠ l1PricerFundsPoolAddress
          ∧ 2 ^ 256 ≤ (L.balance L.payRewardsTo).toNat + reward then some .overflowPayment
        else none := refusal_of_le hpool
  by_cases hover : L.payRewardsTo ≠ l1PricerFundsPoolAddress
      ∧ 2 ^ 256 ≤ (L.balance L.payRewardsTo).toNat + reward
  · -- the recipient cannot hold the reward
    have hnot : ¬L.CanHold (L.paid reward payments) := by
      intro h
      have hdst := h L.payRewardsTo hover.1
      rw [paid, if_pos rfl] at hdst
      have := hover.2
      omega
    rw [if_pos hover] at hrefusal
    refine ⟨fun h => absurd h hnot, fun _ => .inl ?_⟩
    simp only [result]
    rw [legacyPayAll_of_refused hrefusal]
    rfl
  rw [if_neg hover] at hrefusal
  rw [not_and, not_le] at hover
  have hreward : L.RewardPaid reward (L.legacyPaidRewards availableFunds units) :=
    rewardPaid_legacyPaidRewards units hpool hover
  have hresult : result = _ := legacyPayAll_of_accepted hrefusal
  rw [hresult]
  generalize L.legacyPaidRewards availableFunds units = L₁ at hreward
  have hposters' : ∀ p ∈ L.posterList, L₁.IsPoster p :=
    fun p hp => (hreward.isPoster_iff p).mpr (hposters p hp)
  -- what is left of the share is still in the pool account
  have hcovers : availableFunds - L.legacyReward availableFunds units
      ≤ L₁.balance l1PricerFundsPoolAddress := by
    have h := hreward.pool
    rw [BitVec.le_def] at hle ⊢
    rw [BitVec.toNat_sub_of_le hlereward]
    omega
  obtain ⟨hmade, hpanic⟩ := settleAll_greedy hnodup _ L₁ hposters' hcovers
  rw [hreward.claim_eq, BitVec.toNat_sub_of_le hlereward, hreward.canHold_iff] at hmade hpanic
  rcases hall : settleAll L.posterList (availableFunds - L.legacyReward availableFunds units) L₁
    with ⟨u | e | m, L₂⟩ <;> rw [hall] at hmade hpanic
  · exact ⟨fun h => ⟨rfl, (hreward.settled (hmade h).2).finish updateTime units oldSurplus⟩,
      fun h => .inr (hpanic h)⟩
  · exact ⟨fun h => absurd (hmade h).1 (by simp), fun h => absurd (hpanic h) (by simp)⟩
  · exact ⟨fun h => absurd (hmade h).1 (by simp), fun h => .inr (hpanic h)⟩

end

/-- The share of the pool account does not depend on the registration. -/
theorem toNat_legacyFunds_register (L : L1Ledger) (p : Address) {updateTime currentTime : U64}
    (hfit : (L.balance l1PricerFundsPoolAddress).toNat
      * (L.legacyNumerator updateTime currentTime).toNat < 2 ^ 256) :
    ((L.register p).legacyFunds updateTime currentTime).toNat
      = (L.balance l1PricerFundsPoolAddress).toNat
        * (L.legacyNumerator updateTime currentTime).toNat
        / (L.legacyDenominator updateTime currentTime).toNat := by
  have hnum : (L.register p).legacyNumerator updateTime currentTime
      = L.legacyNumerator updateTime currentTime := by
    rw [legacyNumerator, legacyNumerator, register_legacyLastTime]
  have hden : (L.register p).legacyDenominator updateTime currentTime
      = L.legacyDenominator updateTime currentTime := by
    rw [legacyDenominator, legacyDenominator, register_legacyLastTime]
  have hbalance := congrFun (L.register_balance p) l1PricerFundsPoolAddress
  rw [toNat_legacyFunds (by rw [hbalance, hnum]; exact hfit), hbalance, hnum, hden]

/-- The reward of the registered ledger, after the accounting. -/
theorem toNat_legacyReward_account (L : L1Ledger) (p : Address) (units : U64)
    (weiSpent availableFunds : U256) :
    (((L.register p).legacyAccount units p weiSpent).legacyReward availableFunds units).toNat
      = min availableFunds.toNat (units.toNat * L.perUnitReward.toNat) := by
  have hunit : ((L.register p).legacyAccount units p weiSpent).perUnitReward = L.perUnitReward := by
    show (L.register p).perUnitReward = L.perUnitReward
    exact congrArg L1Scalars.perUnitReward (register_toL1Scalars L p)
  rw [toNat_legacyReward, hunit, Nat.mul_comm]

/-! The ledger with the reward accrued has the dues and the balances of the credited one. -/

section
variable (L : L1Ledger) (p : Address) (units : U64) (weiSpent : U256) (reward : Nat)
  (payments : List (Address × Nat))

/-- The accounting keeps the list of the posters. -/
theorem posterList_legacyAccount :
    (L.legacyAccount units p weiSpent).posterList = L.posterList := by
  simp only [posterList, legacyAccount, accrue, credit, setFundsDue, takeUnits]

/-- The claims after the accounting are those after the credit. -/
theorem claim_legacyAccount :
    (L.legacyAccount units p weiSpent).claim = (L.credit p weiSpent).claim := rfl

/-- Which payments are made depends on the credit only. -/
theorem paid_legacyAccount :
    (L.legacyAccount units p weiSpent).paid reward payments
      = (L.credit p weiSpent).paid reward payments := rfl

/-- Whether the accounts can hold what they get does not depend on the accounting. -/
theorem canHold_legacyAccount (get : Address → Nat) :
    (L.legacyAccount units p weiSpent).CanHold get ↔ (L.credit p weiSpent).CanHold get := Iff.rfl

/-- A settlement after the accounting is one after the credit. -/
theorem settled_legacyAccount (L' : L1Ledger) :
    (L.legacyAccount units p weiSpent).Settled reward payments L'
      ↔ (L.credit p weiSpent).Settled reward payments L' := by
  constructor <;> exact fun h => ⟨h.due, h.others, h.balance, h.pool⟩

end

end L1Ledger

namespace L1Pricing

section
variable [Keccak] {sto : Storage} {A : Set Address} {w : World} {L : L1Ledger}
  (hR : Represents sto A w L) {l : List Address}
  (hset : AddressSet.Represents (posterSpace sto) A w l)
include hR hset

/-- The number of the posters is the length of their list. -/
theorem count_of_set : L.count = BitVec.ofNat 64 l.length :=
  U256.ofU64_injective (hR.read_size.symm.trans hset.size)

/-- The posters are the members of the set. -/
theorem isPoster_iff_of_set (p : Address) : L.IsPoster p ↔ p ∈ l := by
  rw [L1Ledger.IsPoster, ← hR.read_index]
  exact hset.index_ne_zero_iff p

/-- The posters that the update goes through are the members in the order of their addition. -/
theorem posterList_of_set : L.posterList = l := by
  have hlen := hset.length_lt
  have hcount : L.count.toNat = l.length := by
    rw [count_of_set hR hset, BitVec.toNat_ofNat, Nat.mod_eq_of_lt hlen]
  refine List.ext_getElem (by simp [L1Ledger.posterList, hcount]) fun i h₁ h₂ => ?_
  have hne : BitVec.ofNat 64 (i + 1) ≠ 0 := by
    intro h
    have := congrArg BitVec.toNat h
    rw [BitVec.toNat_ofNat, Nat.mod_eq_of_lt (by omega)] at this
    simp at this
  have hlist := hset.list (i + 1) (by omega) (by omega)
  rw [hR.read_member hne, Nat.add_sub_cancel, List.getElem?_eq_getElem h₂] at hlist
  simp only [L1Ledger.posterList, List.getElem_map, List.getElem_range]
  rw [hlist]
  exact Address.ofWord_intoWord _

/-- The number of the posters is not the largest word, when the list leaves room. -/
theorem count_ne_of_room (hroom : l.length < 2 ^ 64 - 1) : L.count ≠ BitVec.allOnes 64 := by
  intro h
  have hlen := congrArg BitVec.toNat (h.symm.trans (count_of_set hR hset))
  rw [BitVec.toNat_allOnes, BitVec.toNat_ofNat, Nat.mod_eq_of_lt (by omega)] at hlen
  omega

/-- The posters after the registration. -/
theorem register_of_set {p : Address} (hroom : p ∈ l ∨ l.length < 2 ^ 64 - 1) :
    (L.register p).posterList = (if p ∈ l then l else l ++ [p])
      ∧ (L.register p).posterList.Nodup
      ∧ ∀ q ∈ (L.register p).posterList, (L.register p).IsPoster q := by
  have hlist := posterList_of_set hR hset
  have hnodup := hset.nodup
  by_cases hp : p ∈ l
  · have hposter := (isPoster_iff_of_set hR hset p).mpr hp
    rw [if_pos hp, L1Ledger.register, if_pos hposter, hlist]
    exact ⟨rfl, hnodup, fun q hq => (isPoster_iff_of_set hR hset q).mpr hq⟩
  · have hnew : ¬L.IsPoster p := fun h => hp ((isPoster_iff_of_set hR hset p).mp h)
    have hcount := count_ne_of_room hR hset (hroom.resolve_left hp)
    have hadded : (L.register p).posterList = l ++ [p] := by
      rw [L.registerWith_self hnew, ← hlist]
      exact PosterTable.posters_registerWith L p p hcount
    rw [if_neg hp, hadded]
    refine ⟨rfl, List.nodup_append'.mpr ⟨hnodup, List.nodup_singleton p, by simpa using hp⟩, ?_⟩
    have hregisters := L1Ledger.register_onlyRegisters L (.inr hcount) (p := p)
    intro q hq
    rcases List.mem_append.mp hq with hq | hq
    · have hqp : q ≠ p := fun h => hp (h ▸ hq)
      rw [L1Ledger.IsPoster, (hregisters.others q hqp).1]
      exact (isPoster_iff_of_set hR hset q).mpr hq
    · rw [List.mem_singleton.mp hq]
      exact (hregisters.new hnew).1

end

section
variable [Keccak] {sto : Storage} {A : Set Address} (hslots : (layout sto).Apart (L1Key.Among A))
include hslots

/-- The settlement before version 2, in a state whose set of posters is the list `l`.

The update has the share `available` of the pool account. It pays the reward from it, and
then the posters in the order of the list: each takes what is due to it after the credit, as
far as the rest goes. The payments are covered by the pool account. The update returns
exactly when every recipient can hold what it is paid, and panics at a payment that its
recipient cannot hold otherwise. When it returns, each due and each balance has changed by the
payments, and a due that is left has used up the share. -/
theorem legacy_settlement (version : U64) {w : World} {L : L1Ledger} (hR : Represents sto A w L)
    {l : List Address} (hset : AddressSet.Represents (posterSpace sto) A w l)
    {updateTime currentTime : U64} {p : Address} (hp : p ∈ A) (weiSpent : U256)
    (hroom : p ∈ l ∨ l.length < 2 ^ 64 - 1) (htime : L.LegacyTimeOk updateTime currentTime)
    (hfit : (w.balance l1PricerFundsPoolAddress).toNat
      * (L.legacyNumerator updateTime currentTime).toNat < 2 ^ 256) :
    let posters := if p ∈ l then l else l ++ [p]
    let available := (w.balance l1PricerFundsPoolAddress).toNat
      * (L.legacyNumerator updateTime currentTime).toNat
      / (L.legacyDenominator updateTime currentTime).toNat
    let reward := min available
      ((L.legacyAllocated updateTime currentTime).toNat * L.perUnitReward.toNat)
    let credited := (L.register p).credit p weiSpent
    let payments := shares credited.claim posters (available - reward)
    let out := World.run ((openL1PricingState sto version).preVersion2UpdateForBatchPosterSpending
      updateTime currentTime p weiSpent) w
    reward + total payments ≤ available
    ∧ available ≤ (w.balance l1PricerFundsPoolAddress).toNat
    ∧ (out.1 = .ok () ↔ credited.CanHold (credited.paid reward payments))
    ∧ (out.1 ≠ .ok () →
      out.1 = .panic L1Ledger.rewardsOverflow ∨ out.1 = .panic L1Ledger.posterOverflow)
    ∧ (out.1 = .ok () → ∃ L', Represents sto A out.2 L' ∧ credited.Settled reward payments L'
      ∧ ∀ q ∈ posters, 0 < (L'.fundsDue q).toInt → reward + total payments = available) := by
  intro posters available reward credited payments out
  obtain ⟨hlist, hnodup, hposters⟩ := register_of_set hR hset hroom
  have hfull : ¬(¬L.IsPoster p ∧ L.count = BitVec.allOnes 64) := by
    rintro ⟨hnew, hcount⟩
    have hlen := hroom.resolve_left fun hp => hnew ((isPoster_iff_of_set hR hset p).mpr hp)
    exact count_ne_of_room hR hset hlen hcount
  have hfunds : ((L.register p).legacyFunds updateTime currentTime).toNat = available := by
    rw [hR.balance] at hfit
    simp only [available]
    rw [L.toNat_legacyFunds_register p hfit, hR.balance]
  have havailable : available ≤ (w.balance l1PricerFundsPoolAddress).toNat :=
    L1Ledger.share_le htime _
  have hreward := L.toNat_legacyReward_account p (L.legacyAllocated updateTime currentTime) weiSpent
    ((L.register p).legacyFunds updateTime currentTime)
  rw [hfunds] at hreward
  have hpayments := L1Ledger.legacyPayAll_greedy updateTime
    (L.legacyAllocated updateTime currentTime) ((L.register p).surplus .pool)
    ((L.register p).legacyAccount (L.legacyAllocated updateTime currentTime) p weiSpent)
    hnodup hposters (by
      rw [BitVec.le_def, hfunds]
      show available ≤ ((L.register p).balance l1PricerFundsPoolAddress).toNat
      rw [L1Ledger.register_balance, ← hR.balance]
      exact havailable)
  have hspend : L.legacySpend updateTime currentTime p weiSpent = _ :=
    L1Ledger.legacySpend_of_accepted hfull
      ((L1Ledger.register_legacyTimeOk_iff L p updateTime currentTime).mpr htime)
  rw [L1Ledger.register_legacyAllocated] at hspend
  obtain ⟨w', hrun, hR'⟩ := preVersion2_realizes hslots version L updateTime currentTime hp weiSpent
    w hR
  rw [hspend] at hrun hR'
  have hout : out = (_, w') := hrun
  dsimp only at hpayments
  rw [hreward, hfunds, L1Ledger.posterList_legacyAccount, hlist, L1Ledger.claim_legacyAccount,
    L1Ledger.paid_legacyAccount, L1Ledger.canHold_legacyAccount,
    L1Ledger.settled_legacyAccount] at hpayments
  generalize L1Ledger.legacyPayAll _ _ _ _ _ = result at hpayments hout hR'
  obtain ⟨hok, hpanic⟩ := hpayments
  have hholds : result.1 = .ok () → credited.CanHold (credited.paid reward payments) := by
    intro hresult
    by_contra h
    rcases hpanic h with hcase | hcase <;> rw [hcase] at hresult <;> cases hresult
  have htotal : total payments ≤ available - reward := total_shares_le _ _ _
  have hle : reward ≤ available := Nat.min_le_left _ _
  rw [hout]
  refine ⟨by omega, havailable, ⟨hholds, fun h => (hok h).1⟩, ?_, ?_⟩
  · intro hne
    exact hpanic fun h => hne (hok h).1
  · intro hresult
    have hsettled := (hok (hholds hresult)).2
    refine ⟨result.2, hR', hsettled, ?_⟩
    intro q hq hdue
    have hspent : total payments = available - reward := hsettled.total_eq hq hdue
    omega

end

end L1Pricing

namespace L1Pricing
attribute [local instance] sampleHash

/-- The words of the set in the sample ledger. -/
theorem sampleLedger_set :
    sampleLedger.member = Function.update (fun _ => 0) 1 batchPosterAddress.intoWord
      ∧ sampleLedger.index = Function.update (fun _ => 0) batchPosterAddress (U256.ofU64 1) := by
  have hnew : ¬(L1Ledger.fresh sampleStart.balance).IsPoster batchPosterAddress := fun h => h rfl
  have hregister : (L1Ledger.fresh sampleStart.balance).register batchPosterAddress = _ :=
    if_neg hnew
  exact ⟨congrArg (fun L : L1Ledger => L.member) hregister,
    congrArg (fun L : L1Ledger => L.index) hregister⟩

/-- The set of the sample state holds the batch poster. -/
theorem sampleWorld_posters :
    AddressSet.Represents (posterSpace sampleRoot) Set.univ sampleWorld [batchPosterAddress] where
  writable := sampleWorld_represents.writable
  among _ _ := Set.mem_univ _
  length_lt := by decide
  size := sampleWorld_represents.read_size
  list i h1 hi := by
    have hne : BitVec.ofNat 64 i ≠ 0 := by
      intro h
      have := congrArg BitVec.toNat h
      rw [BitVec.toNat_ofNat, Nat.mod_eq_of_lt hi] at this
      simp at this
      omega
    rw [sampleWorld_represents.read_member hne, sampleLedger_set.1]
    by_cases hone : i = 1
    · subst hone
      rfl
    · have hne1 : BitVec.ofNat 64 i ≠ 1 := by
        intro h
        have := congrArg BitVec.toNat h
        rw [BitVec.toNat_ofNat, Nat.mod_eq_of_lt hi] at this
        exact hone this
      rw [Function.update_of_ne hne1, List.getElem?_eq_none (by simp; omega)]
      rfl
  index_mem n a hn := by
    obtain ⟨hlt, hget⟩ := List.getElem?_eq_some_iff.mp hn
    have hzero : n = 0 := by simpa using hlt
    subst hzero
    have ha : a = batchPosterAddress := hget.symm
    rw [sampleWorld_represents.read_index, sampleLedger_set.2, ha, Function.update_self]
    rfl
  index_not_mem a ha := by
    rw [sampleWorld_represents.read_index, sampleLedger_set.2,
      Function.update_of_ne (by simpa using ha)]

/-- A new poster is owed 64 wei. Half of the 100 wei of the pool account fall to the update, 20
are the reward, and 30 are left for the poster. -/
theorem legacy_settlement_sample :
    ∃ L', Represents sampleRoot Set.univ (World.run ((openL1PricingState sampleRoot
        1).preVersion2UpdateForBatchPosterSpending 5 6 7 64) sampleWorld).2 L'
      ∧ (L'.fundsDue 7).toInt = 64 - 30 := by
  have htime : sampleLedger.LegacyTimeOk 5 6 := by decide +kernel
  have hsettlement := legacy_settlement sampleRoot_layout_apart 1 sampleWorld_represents
    sampleWorld_posters (Set.mem_univ 7) 64 (.inr (by decide)) htime (by decide +kernel)
  obtain ⟨w', hrun, -⟩ := preVersion2_realizes sampleRoot_layout_apart 1 sampleLedger 5 6
    (Set.mem_univ 7) 64 sampleWorld sampleWorld_represents
  have hspend : (sampleLedger.legacySpend 5 6 7 64).1 = .ok () := by decide +kernel
  obtain ⟨L', hR', hsettled, -⟩ := hsettlement.2.2.2.2 ((congrArg Prod.fst hrun).trans hspend)
  have hdue := hsettled.due 7 30 (by decide +kernel)
  refine ⟨L', hR', ?_⟩
  rw [hdue]
  decide +kernel

/-- The account that is paid the rewards holds the largest word. The times are accepted and
the pool account covers the payments, but the payment of the reward is refused. -/
theorem legacy_refused_sample :
    richLedger.LegacyTimeOk 5 6
    ∧ Represents sampleRoot Set.univ richWorld richLedger
    ∧ (World.run ((openL1PricingState sampleRoot 1).preVersion2UpdateForBatchPosterSpending 5 6 7
        64) richWorld).1
      = .panic
        ("pre_version2: rewards transfer failed: " ++ TransferError.overflowPayment.debug) := by
  obtain ⟨w', hrun, -⟩ := preVersion2_realizes sampleRoot_layout_apart 1 richLedger 5 6
    (Set.mem_univ 7) 64 richWorld richWorld_represents
  have hpanic : (richLedger.legacySpend 5 6 7 64).1
      = .panic ("pre_version2: rewards transfer failed: "
        ++ TransferError.overflowPayment.debug) := by
    decide +kernel
  exact ⟨by decide +kernel, richWorld_represents, (congrArg Prod.fst hrun).trans hpanic⟩

end L1Pricing

end ArbReth
