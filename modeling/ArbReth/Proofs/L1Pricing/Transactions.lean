import ArbReth.Proofs.L1Pricing.Solvency
import ArbReth.Proofs.L1Pricing.StoredSurplus
import ArbReth.Proofs.L1Pricing.Transaction
import ArbReth.Proofs.L1Pricing.Sample

/-!
# `ArbReth.Proofs.L1Pricing.Transactions`: the pricer in a run of transactions

Each operation of the pricer runs in a transaction of its own, which is then committed. All
operations but the update read a slot only before they write it, so they do there what they
do on a coherent store. The update does what `spendOver` says. `transactions_refine` is the
run.

An update that pays a reward and then its poster lowers the counter twice, each time from the
number in the database. So the counter does not show the reward. A payment that is refused
because its recipient would overflow is not counted either, but the pool account has been
debited (`L1Ledger.forfeited`). `PricerOp.lost` is the amount that the counter does not show.
`L1Ledger.Ahead` compares the counter with the pool account from which the payments were made,
`ahead_applyOver` is one operation, and `counter_drift` is the run.
-/

set_option autoImplicit false

namespace ArbReth

open ArbReth.Program

/-- What the pool account loses by a payment that is refused: it has been debited when the
recipient would overflow, and is not when it cannot pay. -/
def L1Ledger.forfeited (L : L1Ledger) (dst : Address) (amount : U256) : Nat :=
  if L.refusal dst amount = some .overflowPayment then amount.toNat else 0

namespace PricerOp

/-- One step of a run: the operation in a transaction of its own. -/
def transact [Keccak] (self : L1PricingState) (op : PricerOp) (w : World) :
    Outcome UpdateSpendingError Unit × World :=
  TwoLayer.transact (op.program self) (op.enter w)

/-- The operation on the ledger, in a transaction of its own. -/
def applyOver : PricerOp → L1Ledger → Outcome UpdateSpendingError Unit × L1Ledger
  | .update arbosVersion updateTime currentTime batchPoster weiSpent l1Basefee, D =>
      D.spendOver arbosVersion updateTime currentTime batchPoster weiSpent l1Basefee
  | op, D => op.apply D

/-- An update is one of version 10 or later. -/
def Modern : PricerOp → Prop
  | .update arbosVersion _ _ _ _ _ => arbosVersion10 ≤ arbosVersion
  | _ => True

/-- What the counter does not show of the payments of the operation. An update that comes to
its payments loses the reward when it pays its poster as well, and a payment that is refused
loses what it has taken off the pool account. -/
def lost (D : L1Ledger) : PricerOp → Nat
  | .update _ updateTime currentTime p _ _ =>
      let units := D.allocated updateTime currentTime
      let reward := D.rewardPayment .counter units
      let paid := D.paidRewards .counter units
      let payment := paid.posterPayment .counter p
      if ¬D.IsPoster p ∧ D.count = BitVec.allOnes 64 then 0
      else if ¬D.TimeOk updateTime currentTime then 0
      else if D.refusal D.payRewardsTo reward ≠ none then D.forfeited D.payRewardsTo reward
      else if paid.refusal (D.payTo p) payment ≠ none then paid.forfeited (D.payTo p) payment
      else if payment = 0 then 0
      else reward.toNat
  | _ => 0

/-- The sum of the payments that are lost by some operations. -/
def lostSum : List PricerOp → L1Ledger → Nat
  | [], _ => 0
  | op :: ops, D => op.lost D + lostSum ops (op.applyOver D).2

/-- The provisos of the operation: a credit fits in the counter and in the pool account, and
an update does not pay the pool account. -/
def PaysOut (D : L1Ledger) : PricerOp → Prop
  | .credit delta =>
      D.l1FeesAvailable.toNat + delta.toNat < 2 ^ 256
        ∧ (D.balance l1PricerFundsPoolAddress).toNat + delta.toNat < 2 ^ 256
  | .update _ _ _ p _ _ =>
      D.payRewardsTo ≠ l1PricerFundsPoolAddress ∧ D.payTo p ≠ l1PricerFundsPoolAddress
  | _ => True

end PricerOp

namespace L1Ledger

/-! ### What an operation loses -/

/-- From `D` to `L` the counter gets ahead of the pool account by `lost` wei. -/
def Ahead (D L : L1Ledger) (lost : Nat) : Prop :=
  L.l1FeesAvailable.toNat + (D.balance l1PricerFundsPoolAddress).toNat
    = D.l1FeesAvailable.toNat + (L.balance l1PricerFundsPoolAddress).toNat + lost

variable {D L L' : L1Ledger} {m n : Nat}

/-- What two steps lose adds up. -/
theorem Ahead.trans (h : D.Ahead L m) (h' : L.Ahead L' n) : D.Ahead L' (m + n) := by
  unfold Ahead at h h' ⊢
  omega

/-- Nothing is lost where neither side moves. -/
theorem Ahead.keep (hfees : L.l1FeesAvailable = D.l1FeesAvailable)
    (hbalance : L.balance = D.balance) : D.Ahead L 0 := by
  rw [Ahead, hfees, hbalance, Nat.add_zero]

/-- An accepted payment lowers the pool account by its amount. -/
theorem toNat_movedBalance_pool {dst : Address} {amount : U256}
    (hdst : dst ≠ l1PricerFundsPoolAddress) (hok : L.refusal dst amount = none) :
    (movedBalance L.balance l1PricerFundsPoolAddress dst amount l1PricerFundsPoolAddress).toNat
      + amount.toNat = (L.balance l1PricerFundsPoolAddress).toNat := by
  have hle : amount ≤ L.balance l1PricerFundsPoolAddress := by
    by_contra hlt
    rw [refusal, transferRefusal, if_pos (BitVec.not_le.mp hlt)] at hok
    cases hok
  rw [movedBalance, if_neg hdst.symm, if_pos rfl, BitVec.toNat_sub_of_le hle]
  rw [BitVec.le_def] at hle
  omega

/-- A payment that is refused lowers the pool account by what is forfeited. -/
theorem toNat_transferred_pool {dst : Address} {amount : U256} {e : TransferError}
    (hrefused : L.refusal dst amount = some e) :
    ((L.transferred dst amount).balance l1PricerFundsPoolAddress).toNat + L.forfeited dst amount
      = (L.balance l1PricerFundsPoolAddress).toNat := by
  show (transferBalance L.balance l1PricerFundsPoolAddress dst amount _).toNat + _ = _
  unfold forfeited
  have hrefusal : transferRefusal L.balance l1PricerFundsPoolAddress dst amount = some e := hrefused
  cases e with
  | outOfFunds =>
      rw [transferBalance, hrefusal, if_neg (by rw [hrefused]; decide), Nat.add_zero]
  | overflowPayment =>
      have hle : amount ≤ L.balance l1PricerFundsPoolAddress := by
        by_contra hlt
        rw [transferRefusal, if_pos (BitVec.not_le.mp hlt)] at hrefusal
        cases hrefusal
      rw [transferBalance, hrefusal, if_pos hrefused]
      simp only [if_pos]
      rw [BitVec.toNat_sub_of_le hle]
      rw [BitVec.le_def] at hle
      omega

/-- A payment that is refused is not counted. So the counter gets ahead by what is forfeited. -/
theorem Ahead.refused {dst : Address} {amount : U256} {e : TransferError} (hpaid : D.Ahead L 0)
    (hrefused : L.refusal dst amount = some e) :
    D.Ahead (L.transferred dst amount) (L.forfeited dst amount) := by
  have hpool := toNat_transferred_pool hrefused
  have hfees : (L.transferred dst amount).l1FeesAvailable = L.l1FeesAvailable := rfl
  unfold Ahead at hpaid ⊢
  rw [hfees]
  omega

/-- A payment takes its amount off the counter of `D` and off the pool account of `L`. So the
counter gets ahead by what had been paid from the pool account before it. -/
theorem Ahead.pay {dst : Address} {amount : U256} (hdst : dst ≠ l1PricerFundsPoolAddress)
    (hok : L.refusal dst amount = none) (hle : amount ≤ D.l1FeesAvailable)
    (hfees : L'.l1FeesAvailable = D.l1FeesAvailable - amount)
    (hbalance : L'.balance = movedBalance L.balance l1PricerFundsPoolAddress dst amount)
    (hpaid : (L.balance l1PricerFundsPoolAddress).toNat + n
      = (D.balance l1PricerFundsPoolAddress).toNat) : D.Ahead L' n := by
  have hpool := toNat_movedBalance_pool hdst hok
  rw [Ahead, hfees, hbalance, BitVec.toNat_sub_of_le hle]
  rw [BitVec.le_def] at hle
  omega

/-- The payment to a poster is within the counter. -/
theorem posterPaymentOver_le (L D : L1Ledger) (p : Address) :
    L.posterPaymentOver D p ≤ L.l1FeesAvailable := by
  unfold posterPaymentOver
  split
  · rw [BitVec.le_def, toNat_minWord]
    exact Nat.min_le_left _ _
  · rw [BitVec.le_def]
    exact Nat.zero_le _

/-- The end of the update leaves the counter and the pool account alone. -/
theorem adjustPriceOver_money (L D : L1Ledger) (v units : U64) :
    (L.adjustPriceOver D v units).l1FeesAvailable = L.l1FeesAvailable
      ∧ (L.adjustPriceOver D v units).balance = L.balance := by
  unfold adjustPriceOver
  split
  · exact ⟨rfl, rfl⟩
  · exact ⟨rfl, rfl⟩

/-- What the poster is paid comes off the counter of `D`. So the reward that was paid from `L`
is lost, unless the poster is paid nothing. -/
theorem Ahead.settleOver {p : Address} (hpaid : D.Ahead L 0)
    (hpool : (L.balance l1PricerFundsPoolAddress).toNat + n
      = (D.balance l1PricerFundsPoolAddress).toNat)
    (hle : L.l1FeesAvailable ≤ D.l1FeesAvailable) (hposter : D.payTo p ≠ l1PricerFundsPoolAddress)
    (v updateTime units : U64) :
    let payment := L.posterPaymentOver D p
    D.Ahead (L.settleOver D v updateTime units p).2
      (if L.refusal (D.payTo p) payment ≠ none then L.forfeited (D.payTo p) payment
      else if payment = 0 then 0
      else n) := by
  intro payment
  unfold L1Ledger.settleOver
  cases hrefusal : L.refusal (D.payTo p) payment with
  | some e =>
      rw [if_pos (Option.some_ne_none e)]
      simp only [payment] at hrefusal
      simp only [hrefusal]
      exact hpaid.refused hrefusal
  | none =>
      rw [if_neg (not_not.mpr rfl)]
      simp only [payment] at hrefusal ⊢
      simp only [hrefusal]
      obtain ⟨hfees, hbalance⟩ := adjustPriceOver_money
        { L.settlePosterOver D p (L.posterPaymentOver D p) with lastUpdateTime := updateTime }
        D v units
      by_cases hzero : L.posterPaymentOver D p = 0
      · rw [if_pos hzero]
        refine hpaid.trans (Ahead.keep (hfees.trans ?_) (hbalance.trans ?_))
        · rw [settlePosterOver, if_pos hzero]
        · rw [settlePosterOver, if_pos hzero]
      · rw [if_neg hzero]
        have hfunds : L.posterPaymentOver D p ≤ D.l1FeesAvailable :=
          BitVec.le_trans (posterPaymentOver_le L D p) hle
        refine Ahead.pay hposter hrefusal hfunds (hfees.trans ?_) (hbalance.trans ?_) hpool
        · rw [settlePosterOver, if_neg hzero]
          rfl
        · rw [settlePosterOver, if_neg hzero]
          rfl

/-- What the payments lose. `L` is the ledger with the poster credited. -/
theorem Ahead.payOver {units : U64} {p : Address} (hfees : L.l1FeesAvailable = D.l1FeesAvailable)
    (hreward : L.perUnitReward = D.perUnitReward) (hto : L.payRewardsTo = D.payRewardsTo)
    (hbalance : L.balance = D.balance) (hrewards : D.payRewardsTo ≠ l1PricerFundsPoolAddress)
    (hposter : D.payTo p ≠ l1PricerFundsPoolAddress) (v updateTime : U64) :
    let reward := D.rewardPayment .counter units
    let paid := D.paidRewards .counter units
    let payment := paid.posterPayment .counter p
    D.Ahead (L.payOver D v updateTime units p).2
      (if D.refusal D.payRewardsTo reward ≠ none then D.forfeited D.payRewardsTo reward
      else if paid.refusal (D.payTo p) payment ≠ none then paid.forfeited (D.payTo p) payment
      else if payment = 0 then 0
      else reward.toNat) := by
  intro reward paid payment
  have hamount : L.rewardPayment .counter units = reward := by
    simp only [reward]
    rw [rewardPayment, rewardPayment, owedReward, owedReward, funds, funds, hfees, hreward]
  have hle : reward ≤ D.l1FeesAvailable := D.rewardPayment_le .counter units
  -- refusals depend on the balances only, and these are those of `D`
  have hrefusal : (L.debitRewards (L.rewardPayment .counter units)).refusal L.payRewardsTo
      (L.rewardPayment .counter units) = D.refusal D.payRewardsTo reward := by
    show transferRefusal L.balance _ _ _ = transferRefusal D.balance _ _ _
    rw [hbalance, hto, hamount]
  have hpaidBalance : (L.paidRewards .counter units).balance = paid.balance := by
    show movedBalance L.balance _ L.payRewardsTo (L.rewardPayment .counter units)
      = movedBalance D.balance _ D.payRewardsTo reward
    rw [hbalance, hto, hamount]
  unfold L1Ledger.payOver
  cases hpay : D.refusal D.payRewardsTo reward with
  | some e =>
      rw [hpay] at hrefusal
      rw [payRewards_of_refused hrefusal, if_pos (Option.some_ne_none e)]
      have hdebited : D.Ahead (L.debitRewards (L.rewardPayment .counter units)) 0 :=
        Ahead.keep hfees hbalance
      have hahead := hdebited.refused hrefusal
      have hforfeited : (L.debitRewards (L.rewardPayment .counter units)).forfeited L.payRewardsTo
          (L.rewardPayment .counter units) = D.forfeited D.payRewardsTo reward := by
        unfold forfeited
        rw [hrefusal, hpay, hamount]
      rwa [hforfeited] at hahead
  | none =>
      rw [hpay] at hrefusal
      rw [payRewards_of_accepted hrefusal, if_neg (not_not.mpr rfl)]
      rw [← hto] at hrewards
      have hpool : ((L.paidRewards .counter units).balance l1PricerFundsPoolAddress).toNat
          + reward.toNat = (D.balance l1PricerFundsPoolAddress).toNat := by
        rw [← hbalance, ← hamount]
        exact toNat_movedBalance_pool hrewards hrefusal
      have hpaid : D.Ahead (L.paidRewards .counter units) 0 :=
        Ahead.pay hrewards hrefusal (by rw [hamount]; exact hle) (congrArg (· - _) hfees) rfl
          (congrArg (fun b => (b l1PricerFundsPoolAddress).toNat) hbalance)
      -- the payment to the poster reads the counter as the rewards have left it
      have hleft : (L.paidRewards .counter units).posterPaymentOver D p = payment := by
        show (if _ then minWord (L.l1FeesAvailable - L.rewardPayment .counter units) _ else 0) = _
        rw [hfees, hamount]
        rfl
      have hbelow : (L.paidRewards .counter units).l1FeesAvailable ≤ D.l1FeesAvailable := by
        show L.l1FeesAvailable - L.rewardPayment .counter units ≤ D.l1FeesAvailable
        rw [hfees, hamount, BitVec.le_def, BitVec.toNat_sub_of_le hle]
        exact Nat.sub_le _ _
      have hsettled := Ahead.settleOver hpaid hpool hbelow hposter v updateTime units
      dsimp only at hsettled
      rwa [hleft, forfeited, refusal, hpaidBalance] at hsettled

/-- Each operation gets the counter ahead by what it loses. -/
theorem ahead_applyOver {op : PricerOp} (hout : op.PaysOut D) :
    D.Ahead (op.applyOver D).2 (op.lost D) := by
  cases op with
  | credit delta =>
      obtain ⟨hcounter, hpool⟩ := hout
      show (saturatingAdd D.l1FeesAvailable delta).toNat + _
        = _ + (deposited D.balance l1PricerFundsPoolAddress delta _).toNat + 0
      rw [toNat_saturatingAdd, deposited, if_pos rfl, BitVec.toNat_add, Nat.mod_eq_of_lt hpool]
      omega
  | update v updateTime currentTime p weiSpent l1Basefee =>
      obtain ⟨hrewards, hposter⟩ := hout
      show D.Ahead (D.spendOver v updateTime currentTime p weiSpent l1Basefee).2
        (if _ then 0 else if _ then 0 else _)
      unfold spendOver
      by_cases hfull : ¬D.IsPoster p ∧ D.count = BitVec.allOnes 64
      · rw [if_pos hfull, if_pos hfull]
        exact Ahead.keep rfl rfl
      rw [if_neg hfull, if_neg hfull]
      have hscalars := register_toL1Scalars D p
      have hbalance := register_balance D p
      by_cases htime : D.TimeOk updateTime currentTime
      · rw [if_neg (not_not.mpr htime), if_neg (not_not.mpr htime)]
        have hfees : (D.register p).l1FeesAvailable = D.l1FeesAvailable := by rw [hscalars]
        have hreward : (D.register p).perUnitReward = D.perUnitReward := by rw [hscalars]
        have hto : (D.register p).payRewardsTo = D.payRewardsTo := by rw [hscalars]
        exact Ahead.payOver (L := D.accountOver v _ p weiSpent l1Basefee) hfees hreward hto hbalance
          hrewards hposter v updateTime
      · rw [if_pos htime, if_pos htime]
        exact Ahead.keep (congrArg L1Scalars.l1FeesAvailable hscalars) hbalance
  | _ => exact Ahead.keep rfl rfl

/-- A run gets the counter ahead by all that its operations lose. -/
theorem ahead_specOps {ops : List PricerOp}
    (hout : AdmissibleOps PricerOp.applyOver PricerOp.PaysOut ops D) :
    D.Ahead (specOps PricerOp.applyOver ops D).2 (PricerOp.lostSum ops D) := by
  induction ops generalizing D with
  | nil => exact Ahead.keep rfl rfl
  | cons op ops ih => exact (ahead_applyOver hout.1).trans (ih hout.2)

end L1Ledger

namespace L1Pricing
variable [Keccak] {sto : Storage} {A : Set Address}

/-! ### A run of transactions -/

/-- A credit raises the counter from that of the database. -/
theorem addToL1FeesAvailable_over (hslots : (layout sto).Apart (L1Key.Among A)) (version : U64)
    (D : L1Ledger) (delta : U256) :
    Realizes TwoLayer.handle (InTransaction (Represents sto A) D)
      ((openL1PricingState sto version).addToL1FeesAvailable delta) D
      (.ok (saturatingAdd D.l1FeesAvailable delta))
      { D with l1FeesAvailable := saturatingAdd D.l1FeesAvailable delta } :=
  .bind (bigUint_over D D (l1FeesAvailable_realizes version D)) <|
  .bind (slot_over D D (setL1FeesAvailable_realizes hslots version D _)) (.pure _)

/-- The program of each operation, in a transaction of its own, has the outcome and the effect
that it has on the ledger. -/
theorem transact_represents (hslots : (layout sto).Apart (L1Key.Among A)) (version : U64)
    {w : World} {D : L1Ledger} (hR : Represents sto A w D) {op : PricerOp} (hop : op.Among A)
    (hmodern : op.Modern) :
    (op.transact (openL1PricingState sto version) w).1 = (op.applyOver D).1
      ∧ Represents sto A (op.transact (openL1PricingState sto version) w).2 (op.applyOver D).2 := by
  -- a setter reads nothing
  have hset {slot : StorageSlot} {v : StorageValue} {D' : L1Ledger}
      (h : Realizes World.handle (Represents sto A) (slot.set v) D (.ok ()) D') :
      Realizes TwoLayer.handle (InTransaction (Represents sto A) D)
        ((slot.set v).mapErr UpdateSpendingError.db) D (.ok ()) D' := .mapErr (slot_over D D h)
  cases op with
  | credit delta =>
      exact transact_of_realizes (hR.enter delta)
        (.bind (.mapErr (addToL1FeesAvailable_over hslots version _ delta)) (.pure _))
  | addToUnitsSinceUpdate units =>
      exact transact_of_realizes hR (.mapErr (.bind
        (uint64_over D D (unitsSinceUpdate_realizes version D))
        (slot_over D D (setUnitsSinceUpdate_realizes hslots version D _))))
  | setPayRewardsTo =>
      exact transact_of_realizes hR (hset (setPayRewardsTo_realizes hslots version D _))
  | setEquilibrationUnits =>
      exact transact_of_realizes hR (hset (setEquilibrationUnits_realizes hslots version D _))
  | setInertia => exact transact_of_realizes hR (hset (setInertia_realizes hslots version D _))
  | setPerUnitReward =>
      exact transact_of_realizes hR (hset (setPerUnitReward_realizes hslots version D _))
  | setLastUpdateTime =>
      exact transact_of_realizes hR (hset (setLastUpdateTime_realizes hslots version D _))
  | setFundsDueForRewards =>
      exact transact_of_realizes hR (hset (setFundsDueForRewards_realizes hslots version D _))
  | setUnitsSinceUpdate =>
      exact transact_of_realizes hR (hset (setUnitsSinceUpdate_realizes hslots version D _))
  | setLastSurplus =>
      exact transact_of_realizes hR (.mapErr (setLastSurplus_over version D D hslots _ _))
  | setPricePerUnit =>
      exact transact_of_realizes hR (hset (setPricePerUnit_realizes hslots version D _))
  | setPerBatchGasCost =>
      exact transact_of_realizes hR (hset (setPerBatchGasCost_realizes hslots version D _))
  | setAmortizedCostCapBips =>
      exact transact_of_realizes hR (hset (setAmortizedCostCapBips_realizes hslots version D _))
  | update =>
      exact transact_of_realizes hR
        (updateForBatchPosterSpending_over hslots version hmodern _ _ hop _ _)

end L1Pricing

namespace L1Pricing
attribute [local instance] sampleHash

/-- A new poster spends and is paid nothing yet. Its second update pays the reward and what the
first has left due. -/
def sampleTransactions : List PricerOp :=
  [.setPayRewardsTo 9, .setPerUnitReward 2, .credit 1000, .addToUnitsSinceUpdate 10,
    .update 10 5 5 7 80 0, .addToUnitsSinceUpdate 10, .update 10 6 6 7 30 0]

example : PricerOp.lostSum sampleTransactions (L1Ledger.fresh World.blank.balance) = 20 := by
  decide +kernel

/-- The sample names any addresses. -/
theorem sampleTransactions_among : ∀ op ∈ sampleTransactions, op.Among Set.univ := by
  simp [sampleTransactions, PricerOp.Among]

/-- The updates of the sample are of version 10. -/
theorem sampleTransactions_modern : ∀ op ∈ sampleTransactions, op.Modern := by
  simp [sampleTransactions, PricerOp.Modern, arbosVersion10]

end L1Pricing

end ArbReth
