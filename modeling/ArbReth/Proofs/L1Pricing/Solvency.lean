import ArbReth.Proofs.L1Pricing.Initial
import ArbReth.Proofs.L1Pricing.Update

/-!
# `ArbReth.Proofs.L1Pricing.Solvency`: the pool account always covers the counter

`PricerOp` lists the operations of the pricer: the setters but those of the counter and
of the gas floor, the additions, and the update. A credit raises the counter together
with the pool account. `L1Ledger.Solvent` is the invariant: the counter is at most the
balance of the pool account.

`solvency` says that a run from the initial state keeps the invariant and never panics.
Its provisos are those of `PricerOp.Admissible`: no payment lifts a balance above the
largest word, and the set of posters is not full. The invariant makes a payment within
the counter a payment within the pool account, so the transfer is never refused for lack
of funds, and the counter is always large enough.
-/

set_option autoImplicit false

namespace ArbReth

open ArbReth.Program

/-! ### The ledger -/

namespace L1Ledger

/-- The pool account covers the counter. -/
def Solvent (L : L1Ledger) : Prop := L.l1FeesAvailable ≤ L.balance l1PricerFundsPoolAddress

/-- The payment would lift the balance of the recipient above the largest word. -/
def Overflows (L : L1Ledger) (dst : Address) (amount : U256) : Prop :=
  dst ≠ l1PricerFundsPoolAddress ∧ 2 ^ 256 ≤ (L.balance dst).toNat + amount.toNat

/-- Neither of the two payments of the update overflows. `L` is the ledger with the
poster credited. -/
def PaymentsFit (L : L1Ledger) (units : U64) (p : Address) : Prop :=
  ¬L.Overflows L.payRewardsTo (L.rewardPayment .counter units)
    ∧ ¬(L.paidRewards .counter units).Overflows (L.payTo p)
      ((L.paidRewards .counter units).posterPayment .counter p)

instance (L : L1Ledger) (dst : Address) (amount : U256) : Decidable (L.Overflows dst amount) :=
  inferInstanceAs (Decidable (_ ∧ _))

instance (L : L1Ledger) (units : U64) (p : Address) : Decidable (L.PaymentsFit units p) :=
  inferInstanceAs (Decidable (_ ∧ _))

variable {L : L1Ledger} {p : Address}

/-- A payment within the counter is accepted, when it does not overflow. -/
theorem Solvent.refusal (h : L.Solvent) {dst : Address} {amount : U256}
    (hle : amount ≤ L.l1FeesAvailable) (hfit : ¬L.Overflows dst amount) :
    L.refusal dst amount = none := by
  refine refusal_eq_none (BitVec.le_trans hle h) ?_
  intro hdst
  by_contra hcon
  exact hfit ⟨hdst, not_lt.mp hcon⟩

/-- A payment within the counter keeps the ledger solvent, whoever is paid. -/
theorem Solvent.pay (h : L.Solvent) {dst : Address} {amount : U256}
    (hle : amount ≤ L.l1FeesAvailable) : (L.pay .counter dst amount).Solvent := by
  show L.l1FeesAvailable - amount ≤ movedBalance L.balance _ dst amount _
  unfold Solvent at h
  rw [BitVec.le_def] at h hle ⊢
  rw [BitVec.toNat_sub_of_le (BitVec.le_def.mpr hle), movedBalance]
  split
  -- the pool account pays itself: only the counter falls
  · omega
  -- the counter and the balance fall by the same amount
  · rw [if_pos rfl, BitVec.toNat_sub_of_le (BitVec.le_def.mpr (hle.trans h))]
    omega

/-- A reward lowers the counter at least as much as the pool. -/
theorem Solvent.paidRewards (h : L.Solvent) (units : U64) :
    (L.paidRewards .counter units).Solvent :=
  Solvent.pay (L := L.debitRewards _) h (L.rewardPayment_le .counter units)

/-- A payment to a poster lowers the counter at least as much as the pool. -/
theorem Solvent.settlePoster (h : L.Solvent) :
    (L.settlePoster .counter p (L.posterPayment .counter p)).Solvent := by
  have hle : L.posterPayment .counter p ≤ L.l1FeesAvailable := L.posterPayment_le .counter p
  unfold L1Ledger.settlePoster
  split
  · exact h
  · exact h.pay hle

/-- The surplus and the price touch neither the counter nor the pool. -/
theorem Solvent.finish (h : L.Solvent) (v updateTime units : U64) :
    (L.finish .counter v updateTime units).Solvent := by
  obtain ⟨-, hbalance, hfees, -⟩ := finish_frame L .counter v updateTime units
  rw [Solvent, hbalance, hfees]
  exact h

/-- The registration touches neither the counter nor the pool. -/
theorem Solvent.register (h : L.Solvent) (p : Address) : (L.register p).Solvent := by
  rw [Solvent, register_balance, congrArg L1Scalars.l1FeesAvailable (register_toL1Scalars L p)]
  exact h

/-- The payments and the end of the update succeed and keep the ledger solvent. -/
theorem Solvent.settle (h : L.Solvent) {units : U64} (hfit : L.PaymentsFit units p)
    (v updateTime : U64) :
    (L.settle .counter v updateTime units p).1 = .ok ()
      ∧ (L.settle .counter v updateTime units p).2.Solvent := by
  have haccept : (L.debitRewards (L.rewardPayment .counter units)).refusal L.payRewardsTo
      (L.rewardPayment .counter units) = none :=
    Solvent.refusal (L := L.debitRewards _) h (L.rewardPayment_le .counter units) hfit.1
  have hpaid := h.paidRewards units
  have haccept' := hpaid.refusal ((L.paidRewards .counter units).posterPayment_le .counter p)
    hfit.2
  rw [settle_of_accepted haccept haccept']
  exact ⟨rfl, hpaid.settlePoster.finish _ _ _⟩

/-- The provisos of an update: the set of posters is not full, and no payment of an
accepted update overflows. -/
def SpendFits (L : L1Ledger) (v updateTime currentTime : U64) (p : Address)
    (weiSpent l1Basefee : U256) : Prop :=
  L.count ≠ BitVec.allOnes 64 ∧ ((L.register p).TimeOk updateTime currentTime →
    ((L.register p).account v ((L.register p).allocated updateTime currentTime) p weiSpent
      l1Basefee).PaymentsFit ((L.register p).allocated updateTime currentTime) p)

instance (L : L1Ledger) (v updateTime currentTime : U64) (p : Address)
    (weiSpent l1Basefee : U256) :
    Decidable (L.SpendFits v updateTime currentTime p weiSpent l1Basefee) :=
  inferInstanceAs (Decidable (_ ∧ (_ → _)))

/-- The update succeeds or rejects the times, and keeps the ledger solvent. -/
theorem Solvent.spend (h : L.Solvent) {v updateTime currentTime : U64} {weiSpent l1Basefee : U256}
    (hfit : L.SpendFits v updateTime currentTime p weiSpent l1Basefee) :
    ((L.spend .counter v updateTime currentTime p weiSpent l1Basefee).1 = .ok ()
        ∨ (L.spend .counter v updateTime currentTime p weiSpent l1Basefee).1 = .err .invalidTime)
      ∧ (L.spend .counter v updateTime currentTime p weiSpent l1Basefee).2.Solvent := by
  obtain ⟨hroom, hpayments⟩ := hfit
  unfold L1Ledger.spend
  rw [if_neg fun hfull => hroom hfull.2]
  have hregistered := h.register p
  generalize L.register p = L₁ at hpayments hregistered
  by_cases htime : L₁.TimeOk updateTime currentTime
  · simp only [htime, not_true_eq_false, if_false]
    obtain ⟨hok, hsolvent⟩ := Solvent.settle (L := L₁.account v _ p weiSpent l1Basefee)
      hregistered (hpayments htime) v updateTime
    exact ⟨.inl hok, hsolvent⟩
  · simp only [htime, not_false_eq_true, if_true]
    exact ⟨.inr trivial, hregistered⟩

end L1Ledger

/-! ### The operations -/

/-- The operations of the pricer. `credit` raises the counter and the pool account. -/
inductive PricerOp where
  | credit (delta : U256)
  | addToUnitsSinceUpdate (units : U64)
  | setPayRewardsTo (addr : Address)
  | setEquilibrationUnits (equilUnits : U256)
  | setInertia (inertia : U64)
  | setPerUnitReward (weiPerUnit : U64)
  | setLastUpdateTime (t : U64)
  | setFundsDueForRewards (amt : I256)
  | setUnitsSinceUpdate (units : U64)
  | setLastSurplus (val : I256) (arbosVersion : U64)
  | setPricePerUnit (price : U256)
  | setPerBatchGasCost (cost : I64)
  | setAmortizedCostCapBips (cap : U64)
  | update (arbosVersion updateTime currentTime : U64) (batchPoster : Address)
      (weiSpent l1Basefee : U256)

/-- The balances after a deposit. -/
def deposited (balance : Address → U256) (account : Address) (amount : U256) (a : Address) : U256 :=
  if a = account then balance a + amount else balance a

namespace PricerOp

/-- The program of the operation. -/
def program [Keccak] (self : L1PricingState) : PricerOp → Exec UpdateSpendingError Unit
  | .credit delta => do
      let _ ← (self.addToL1FeesAvailable delta).mapErr .db
      pure ()
  | .addToUnitsSinceUpdate units => (self.addToUnitsSinceUpdate units).mapErr .db
  | .setPayRewardsTo addr => (self.setPayRewardsTo addr).mapErr .db
  | .setEquilibrationUnits equilUnits => (self.setEquilibrationUnits equilUnits).mapErr .db
  | .setInertia inertia => (self.setInertia inertia).mapErr .db
  | .setPerUnitReward weiPerUnit => (self.setPerUnitReward weiPerUnit).mapErr .db
  | .setLastUpdateTime t => (self.setLastUpdateTime t).mapErr .db
  | .setFundsDueForRewards amt => (self.setFundsDueForRewards amt).mapErr .db
  | .setUnitsSinceUpdate units => (self.setUnitsSinceUpdate units).mapErr .db
  | .setLastSurplus val arbosVersion => (self.setLastSurplus val arbosVersion).mapErr .db
  | .setPricePerUnit price => (self.setPricePerUnit price).mapErr .db
  | .setPerBatchGasCost cost => (self.setPerBatchGasCost cost).mapErr .db
  | .setAmortizedCostCapBips cap => (self.setAmortizedCostCapBips cap).mapErr .db
  | .update arbosVersion updateTime currentTime batchPoster weiSpent l1Basefee =>
      self.updateForBatchPosterSpending arbosVersion updateTime currentTime batchPoster weiSpent
        l1Basefee

/-- The world in which the operation runs: a credit comes with a deposit to the pool
account. -/
def enter : PricerOp → World → World
  | .credit delta, w => { w with balance := deposited w.balance l1PricerFundsPoolAddress delta }
  | _, w => w

/-- One step of a run. -/
def step [Keccak] (self : L1PricingState) (op : PricerOp) (w : World) :
    Outcome UpdateSpendingError Unit × World :=
  World.run (op.program self) (op.enter w)

/-- The operation on the ledger. -/
def apply : PricerOp → L1Ledger → Outcome UpdateSpendingError Unit × L1Ledger
  | .credit delta, L =>
      (.ok (), { L with
        l1FeesAvailable := saturatingAdd L.l1FeesAvailable delta
        balance := deposited L.balance l1PricerFundsPoolAddress delta })
  | .addToUnitsSinceUpdate units, L =>
      (.ok (), { L with unitsSinceUpdate := saturatingAdd L.unitsSinceUpdate units })
  | .setPayRewardsTo addr, L => (.ok (), { L with payRewardsTo := addr })
  | .setEquilibrationUnits equilUnits, L => (.ok (), { L with equilibrationUnits := equilUnits })
  | .setInertia inertia, L => (.ok (), { L with inertia := inertia })
  | .setPerUnitReward weiPerUnit, L => (.ok (), { L with perUnitReward := weiPerUnit })
  | .setLastUpdateTime t, L => (.ok (), { L with lastUpdateTime := t })
  | .setFundsDueForRewards amt, L => (.ok (), { L with fundsDueForRewards := amt })
  | .setUnitsSinceUpdate units, L => (.ok (), { L with unitsSinceUpdate := units })
  | .setLastSurplus val arbosVersion, L =>
      (.ok (), { L with lastSurplus := L1Ledger.storedSurplus arbosVersion val })
  | .setPricePerUnit price, L => (.ok (), { L with pricePerUnit := price })
  | .setPerBatchGasCost cost, L => (.ok (), { L with perBatchGasCost := cost })
  | .setAmortizedCostCapBips cap, L => (.ok (), { L with amortizedCostCapBips := cap })
  | .update arbosVersion updateTime currentTime batchPoster weiSpent l1Basefee, L =>
      L.spend .counter arbosVersion updateTime currentTime batchPoster weiSpent l1Basefee

/-- The provisos of the operation: no balance exceeds the largest word, the set of
posters is not full, and an update is one of version 10 or later. -/
def Admissible (L : L1Ledger) : PricerOp → Prop
  | .credit delta => (L.balance l1PricerFundsPoolAddress).toNat + delta.toNat < 2 ^ 256
  | .update arbosVersion updateTime currentTime batchPoster weiSpent l1Basefee =>
      arbosVersion10 ≤ arbosVersion
        ∧ L.SpendFits arbosVersion updateTime currentTime batchPoster weiSpent l1Basefee
  | _ => True

/-- The poster of an update is an account of `A`. -/
def Among (A : Set Address) : PricerOp → Prop
  | .update _ _ _ batchPoster _ _ => batchPoster ∈ A
  | _ => True

/-- The invariant is kept by each operation, which succeeds or rejects the times. -/
theorem apply_solvent {L : L1Ledger} (h : L.Solvent) {op : PricerOp} (hadm : op.Admissible L) :
    ((op.apply L).1 = .ok () ∨ (op.apply L).1 = .err .invalidTime) ∧ (op.apply L).2.Solvent := by
  cases op with
  | credit delta =>
      refine ⟨.inl rfl, ?_⟩
      -- the balance rises by `delta`, and the counter by `delta` at most, as it saturates
      have hfit : (L.balance l1PricerFundsPoolAddress).toNat + delta.toNat < 2 ^ 256 := hadm
      show saturatingAdd L.l1FeesAvailable delta ≤ deposited L.balance _ delta _
      rw [L1Ledger.Solvent, BitVec.le_def] at h
      rw [deposited, if_pos rfl, BitVec.le_def, toNat_saturatingAdd, BitVec.toNat_add,
        Nat.mod_eq_of_lt hfit]
      omega
  | update => exact h.spend hadm.2
  | _ => exact ⟨.inl rfl, h⟩

end PricerOp

namespace L1Pricing
variable [Keccak] {sto : Storage} {A : Set Address}

/-- A deposit to the pool account before a credit. -/
theorem Represents.enter {w : World} {L : L1Ledger} (hR : Represents sto A w L) (delta : U256) :
    Represents sto A ((PricerOp.credit delta).enter w)
      { L with balance := deposited L.balance l1PricerFundsPoolAddress delta } where
  writable := hR.writable
  among := hR.among
  balance := by
    show deposited w.balance _ _ = deposited L.balance _ _
    rw [hR.balance]
  scalar := hR.scalar
  table := hR.table

/-- The program of each operation realizes the operation on the ledger. -/
theorem step_represents (hslots : (layout sto).Apart (L1Key.Among A)) (version : U64)
    {w : World} {L : L1Ledger} (hR : Represents sto A w L) {op : PricerOp}
    (hop : op.Among A) (hadm : op.Admissible L) :
    (op.step (openL1PricingState sto version) w).1 = (op.apply L).1
      ∧ Represents sto A (op.step (openL1PricingState sto version) w).2 (op.apply L).2 := by
  -- A program that realizes the operation gives both parts.
  have hof : ∀ {L₀ : L1Ledger}, Represents sto A (op.enter w) L₀ →
      Realizes World.handle (Represents sto A) (op.program (openL1PricingState sto version)) L₀
        (op.apply L).1 (op.apply L).2 →
      (op.step (openL1PricingState sto version) w).1 = (op.apply L).1
        ∧ Represents sto A (op.step (openL1PricingState sto version) w).2 (op.apply L).2 := by
    intro L₀ hR₀ hreal
    obtain ⟨w', hrun, hR'⟩ := hreal _ hR₀
    rw [PricerOp.step, World.run, hrun]
    exact ⟨rfl, hR'⟩
  cases op with
  | credit delta =>
      exact hof (hR.enter delta)
        (.bind (.mapErr (addToL1FeesAvailable_realizes hslots version _ delta)) (.pure _))
  | addToUnitsSinceUpdate =>
      exact hof hR (.mapErr (addToUnitsSinceUpdate_realizes hslots version L _))
  | setPayRewardsTo => exact hof hR (.mapErr (setPayRewardsTo_realizes hslots version L _))
  | setEquilibrationUnits =>
      exact hof hR (.mapErr (setEquilibrationUnits_realizes hslots version L _))
  | setInertia => exact hof hR (.mapErr (setInertia_realizes hslots version L _))
  | setPerUnitReward => exact hof hR (.mapErr (setPerUnitReward_realizes hslots version L _))
  | setLastUpdateTime => exact hof hR (.mapErr (setLastUpdateTime_realizes hslots version L _))
  | setFundsDueForRewards =>
      exact hof hR (.mapErr (setFundsDueForRewards_realizes hslots version L _))
  | setUnitsSinceUpdate => exact hof hR (.mapErr (setUnitsSinceUpdate_realizes hslots version L _))
  | setLastSurplus => exact hof hR (.mapErr (setLastSurplus_realizes hslots version L _ _))
  | setPricePerUnit => exact hof hR (.mapErr (setPricePerUnit_realizes hslots version L _))
  | setPerBatchGasCost => exact hof hR (.mapErr (setPerBatchGasCost_realizes hslots version L _))
  | setAmortizedCostCapBips =>
      exact hof hR (.mapErr (setAmortizedCostCapBips_realizes hslots version L _))
  | update =>
      exact hof hR (updateForBatchPosterSpending_realizes hslots version L hadm.1 _ _ hop _ _)

/-- From the initial state, in every run within the provisos, the pool account covers the
counter after each step, and each step succeeds or rejects the times of an update. `A` holds
the posters of the updates. -/
theorem solvency (hslots : (layout sto).Apart (L1Key.Among A)) (hbatch : batchPosterAddress ∈ A)
    (version : U64) (w : World) (hw : w.readOnly = false) (hfresh : ∀ k, (layout sto).read w k = 0)
    (initialRewardsRecipient : Address) (initialL1BaseFee : U256) (ops : List PricerOp)
    (hops : ∀ op ∈ ops, op.Among A)
    (hadm : AdmissibleOps PricerOp.apply PricerOp.Admissible ops
      (L1Ledger.initial w.balance initialRewardsRecipient initialL1BaseFee)) :
    let start := World.run
      (initializeL1PricingState sto initialRewardsRecipient initialL1BaseFee) w
    start.1 = .ok ()
      ∧ ∀ x ∈ trail (PricerOp.step (openL1PricingState sto version)) ops start.2,
        (x.1 = .ok () ∨ x.1 = .err .invalidTime)
          ∧ ((layout sto).read x.2 (.scalar .l1FeesAvailable)).toNat
            ≤ (x.2.balance l1PricerFundsPoolAddress).toNat := by
  obtain ⟨w₀, hstart, hR₀⟩ := initialize_realizes hslots hbatch w.balance initialRewardsRecipient
    initialL1BaseFee w (represents_fresh hw hfresh)
  have hsolvent :
      (L1Ledger.initial w.balance initialRewardsRecipient initialL1BaseFee).Solvent := by
    show ((L1Ledger.fresh w.balance).register batchPosterAddress).l1FeesAvailable ≤ _
    rw [congrArg L1Scalars.l1FeesAvailable (L1Ledger.register_toL1Scalars _ _)]
    exact BitVec.le_def.mpr (Nat.zero_le _)
  intro start
  have hstart' : start = (.ok (), w₀) := hstart
  rw [hstart']
  -- Along the run the world represents a solvent ledger, and each step keeps that.
  refine ⟨rfl, forall_mem_trail (R := fun w L => Represents sto A w L ∧ L.Solvent)
    (fun w L op hR hop => ?_) ops w₀ _ ⟨hR₀, hsolvent⟩ (hadm.and hops)⟩
  obtain ⟨hresult, hR'⟩ := step_represents hslots version hR.1 hop.2 hop.1
  obtain ⟨houtcome, hsolvent'⟩ := PricerOp.apply_solvent hR.2 hop.1
  refine ⟨⟨hR', hsolvent'⟩, by rw [hresult]; exact houtcome, ?_⟩
  rw [hR'.balance, hR'.scalar .l1FeesAvailable]
  exact hsolvent'

end L1Pricing

namespace L1Pricing
attribute [local instance] sampleHash

/-- A run on a blank store with the sample hash: funds come in, units are sold, and a new
poster is paid from the funds. -/
theorem solvency_sample :
    (World.run (initializeL1PricingState sampleRoot 9 1) World.blank).1 = .ok ()
      ∧ ∀ x ∈ trail (PricerOp.step (openL1PricingState sampleRoot 10))
          [.credit 100, .addToUnitsSinceUpdate 4, .update 10 5 5 7 50 0]
          (World.run (initializeL1PricingState sampleRoot 9 1) World.blank).2,
        (x.1 = .ok () ∨ x.1 = .err .invalidTime)
          ∧ ((layout sampleRoot).read x.2 (.scalar .l1FeesAvailable)).toNat
            ≤ (x.2.balance l1PricerFundsPoolAddress).toNat :=
  solvency sampleRoot_layout_apart (Set.mem_univ _) 10 World.blank rfl (fun _ => rfl) 9 1
    [.credit 100, .addToUnitsSinceUpdate 4, .update 10 5 5 7 50 0] (by simp [PricerOp.Among])
    ⟨show 0 + 100 < 2 ^ 256 by decide, trivial, ⟨by decide, by decide +kernel⟩, trivial⟩

end L1Pricing

end ArbReth
