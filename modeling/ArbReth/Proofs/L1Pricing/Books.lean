import ArbReth.Proofs.L1Pricing.Effect
import ArbReth.Proofs.L1Pricing.Solvency
import ArbReth.Proofs.L1Pricing.StoredSurplus

/-!
# `ArbReth.Proofs.L1Pricing.Books`: the pricer keeps double-entry books

The pricer has no record of its history. It keeps what is left: the counter of the fees, the
amounts due, and the funds of the pool account. Here a run gets a record of its own, the
`Books`: the income from the credits, the cost that updates and corrections add to the amounts
due, and what updates pay out.

`L1Ledger.Agrees` ties the ledger to the books. A payment is on both sides, it lowers the
counter and an amount due, so the surplus is the income less the cost. `agrees_apply` is one
operation and `books_balance` is every run from the initialization.
-/

set_option autoImplicit false

namespace ArbReth

open ArbReth.Program

/-! ### The books -/

/-- What came in, what was recorded as due, and what was paid out. -/
@[ext]
structure Books where
  income : Nat
  cost : Int
  paid : Nat

namespace Books

/-- Books without an entry. -/
def empty : Books := ⟨0, 0, 0⟩

/-- The books with another entry. -/
def enter (B entry : Books) : Books :=
  ⟨B.income + entry.income, B.cost + entry.cost, B.paid + entry.paid⟩

/-- An empty entry leaves the books. -/
@[simp] theorem enter_empty (B : Books) : B.enter empty = B := by
  simp [enter, empty]

end Books

namespace PricerOp

/-- The entry of an operation. An update is entered when its times are accepted. -/
def entry (L : L1Ledger) : PricerOp → Books
  | .credit delta => ⟨delta.toNat, 0, 0⟩
  | .setFundsDueForRewards amt => ⟨0, amt.toInt - L.fundsDueForRewards.toInt, 0⟩
  | .update _ updateTime currentTime batchPoster weiSpent l1Basefee =>
      let units := L.allocated updateTime currentTime
      if L.TimeOk updateTime currentTime then
        ⟨0, L.exactWei units weiSpent l1Basefee + L.exactReward units,
          L.exactRewardPaid units + L.exactDuePaid units batchPoster weiSpent l1Basefee⟩
      else .empty
  | _ => .empty

/-- The books after some operations. -/
def books : List PricerOp → L1Ledger → Books → Books
  | [], _, B => B
  | op :: ops, L, B => books ops (op.apply L).2 (B.enter (op.entry L))

/-- The provisos of the operation: the pool account has room for a credit, and an accepted
update is one of version 10 or later that does not pay the pool account itself and does not
leave the range of a type. -/
def Exact (L : L1Ledger) : PricerOp → Prop
  | .credit delta => (L.balance l1PricerFundsPoolAddress).toNat + delta.toNat < 2 ^ 256
  | .update arbosVersion updateTime currentTime batchPoster weiSpent l1Basefee =>
      arbosVersion10 ≤ arbosVersion ∧ (L.TimeOk updateTime currentTime →
        L.payRewardsTo ≠ l1PricerFundsPoolAddress ∧ L.payee batchPoster ≠ l1PricerFundsPoolAddress
          ∧ L.Fits (L.allocated updateTime currentTime) batchPoster weiSpent l1Basefee)
  | _ => True

end PricerOp

namespace L1Ledger

/-- The ledger is what the books leave, with `slack` wei in the pool account that were never
counted. -/
structure Agrees (slack : Nat) (L : L1Ledger) (B : Books) : Prop where
  fees : L.l1FeesAvailable.toNat + B.paid = B.income
  due : L.totalFundsDue.toInt + L.fundsDueForRewards.toInt + B.paid = B.cost
  pool : (L.balance l1PricerFundsPoolAddress).toNat + B.paid = slack + B.income

variable {slack : Nat} {L : L1Ledger} {B : Books}

/-- Books that agree have a pool that covers the counter. -/
theorem Agrees.solvent (h : L.Agrees slack B) : L.Solvent := by
  have hfees := h.fees
  have hpool := h.pool
  rw [Solvent, BitVec.le_def]
  omega

/-- An operation that keeps the counter, the amounts due and the pool account makes no
entry. -/
theorem Agrees.keep (h : L.Agrees slack B) {L' : L1Ledger}
    (hfees : L'.l1FeesAvailable = L.l1FeesAvailable) (htotal : L'.totalFundsDue = L.totalFundsDue)
    (hrewards : L'.fundsDueForRewards = L.fundsDueForRewards) (hbalance : L'.balance = L.balance) :
    L'.Agrees slack (B.enter .empty) := by
  rw [Books.enter_empty]
  refine ⟨?_, ?_, ?_⟩
  · rw [hfees]
    exact h.fees
  · rw [htotal, hrewards]
    exact h.due
  · rw [hbalance]
    exact h.pool

/-- A credit is income. The pool account has room for it, so the counter has. -/
theorem Agrees.credit (h : L.Agrees slack B) {delta : U256}
    (hroom : (L.balance l1PricerFundsPoolAddress).toNat + delta.toNat < 2 ^ 256) :
    ((PricerOp.credit delta).apply L).2.Agrees slack
      (B.enter ((PricerOp.credit delta).entry L)) := by
  have hfees := h.fees
  have hpool := h.pool
  refine ⟨?_, ?_, ?_⟩
  · show (saturatingAdd L.l1FeesAvailable delta).toNat + (B.paid + 0) = B.income + delta.toNat
    rw [toNat_saturatingAdd]
    omega
  · have hdue := h.due
    show L.totalFundsDue.toInt + L.fundsDueForRewards.toInt + ((B.paid + 0 : Nat) : Int)
      = B.cost + 0
    omega
  · show (deposited L.balance _ delta _).toNat + (B.paid + 0) = slack + (B.income + delta.toNat)
    rw [deposited, if_pos rfl, BitVec.toNat_add, Nat.mod_eq_of_lt hroom]
    omega

/-- A correction of the rewards due is a cost. -/
theorem Agrees.correct (h : L.Agrees slack B) (amt : I256) :
    ((PricerOp.setFundsDueForRewards amt).apply L).2.Agrees slack
      (B.enter ((PricerOp.setFundsDueForRewards amt).entry L)) := by
  refine ⟨h.fees, ?_, h.pool⟩
  have hdue := h.due
  show L.totalFundsDue.toInt + amt.toInt + ((B.paid + 0 : Nat) : Int)
    = B.cost + (amt.toInt - L.fundsDueForRewards.toInt)
  omega

/-- An accepted update enters its wei and its reward as cost, and its two payments as
paid. -/
theorem Agrees.effect (h : L.Agrees slack B) {units : U64} {p : Address}
    {weiSpent l1Basefee : U256} {L' : L1Ledger} (heffect : L.Effect units p weiSpent l1Basefee L') :
    L'.Agrees slack (B.enter ⟨0, L.exactWei units weiSpent l1Basefee + L.exactReward units,
      L.exactRewardPaid units + L.exactDuePaid units p weiSpent l1Basefee⟩) := by
  refine ⟨?_, ?_, ?_⟩
  · have hfees := h.fees
    have hleft := heffect.fees
    simp only [Books.enter]
    omega
  · have hdue := h.due
    have htotal := heffect.total
    have hrewards := heffect.rewards
    simp only [Books.enter]
    omega
  · have hpool := h.pool
    have hleft := heffect.pool
    simp only [Books.enter]
    omega

/-- A rejected update, or one that finds no room for its poster, leaves the money alone. -/
theorem Agrees.reject (h : L.Agrees slack B) {v updateTime currentTime : U64}
    (htime : ¬L.TimeOk updateTime currentTime) (p : Address) (weiSpent l1Basefee : U256) :
    (L.spend .counter v updateTime currentTime p weiSpent l1Basefee).2.Agrees slack
      (B.enter .empty) := by
  unfold spend
  by_cases hfull : ¬L.IsPoster p ∧ L.count = BitVec.allOnes 64
  · rw [if_pos hfull]
    exact h.keep rfl rfl rfl rfl
  · have htime' : ¬(L.register p).TimeOk updateTime currentTime := by
      rw [TimeOk, register_lastTime]
      exact htime
    simp only [if_neg hfull, htime', not_false_eq_true, if_true]
    have hscalars := register_toL1Scalars L p
    exact h.keep (congrArg L1Scalars.l1FeesAvailable hscalars) (register_totalFundsDue L p)
      (congrArg L1Scalars.fundsDueForRewards hscalars) (register_balance L p)

/-- Each operation moves the ledger by its entry. -/
theorem agrees_apply (h : L.Agrees slack B) {op : PricerOp} (hexact : op.Exact L) :
    (op.apply L).2.Agrees slack (B.enter (op.entry L)) := by
  cases op with
  | credit delta => exact h.credit hexact
  | setFundsDueForRewards amt => exact h.correct amt
  | update v updateTime currentTime p weiSpent l1Basefee =>
      obtain ⟨hversion, haccepted⟩ := hexact
      show (L.spend .counter v updateTime currentTime p weiSpent l1Basefee).2.Agrees slack _
      by_cases htime : L.TimeOk updateTime currentTime
      · obtain ⟨hrewards, hposter, hfits⟩ := haccepted htime
        have hthree : arbosVersion3 ≤ v := BitVec.le_trans (by decide) hversion
        obtain ⟨L', hspend, heffect⟩ := spend_effect hthree htime h.solvent hrewards hposter hfits
        rw [hspend]
        simp only [PricerOp.entry, if_pos htime]
        exact h.effect heffect
      · simp only [PricerOp.entry, if_neg htime]
        exact h.reject htime p weiSpent l1Basefee
  | _ => exact h.keep rfl rfl rfl rfl

/-- Every run moves the ledger by the entries of its operations. -/
theorem agrees_books (h : L.Agrees slack B) {ops : List PricerOp}
    (hexact : AdmissibleOps PricerOp.apply PricerOp.Exact ops L) :
    (specOps PricerOp.apply ops L).2.Agrees slack (PricerOp.books ops L B) := by
  induction ops generalizing L B with
  | nil => exact h
  | cons op ops ih => exact ih (agrees_apply h hexact.1) hexact.2

/-- The surplus is the income less the cost, whatever has been paid. -/
theorem Agrees.surplus (h : L.Agrees slack B) (hfees : L.l1FeesAvailable.toNat < 2 ^ 255)
    (hdue : I256.InRange (L.totalFundsDue.toInt + L.fundsDueForRewards.toInt))
    (hrange : I256.InRange ((B.income : Int) - B.cost)) :
    (L.surplus .counter).toInt = B.income - B.cost := by
  have hleft := h.fees
  have hrest := h.due
  have hexact : (L.l1FeesAvailable.toNat : Int)
      - (L.totalFundsDue.toInt + L.fundsDueForRewards.toInt) = B.income - B.cost := by omega
  show (I256.clamp ((I256.ofU256 L.l1FeesAvailable).toInt - (I256.clamp _).toInt)).toInt = _
  rw [I256.toInt_clamp_of_inRange hdue, I256.toInt_ofU256, min_eq_left (by omega), hexact]
  exact I256.toInt_clamp_of_inRange hrange

end L1Ledger

namespace L1Pricing
variable [Keccak] {sto : Storage} {A : Set Address}

/-- The program of each operation realizes the operation on the ledger. A full table does not
matter here: the update panics on both sides. -/
theorem step_represents_of_exact (hslots : (layout sto).Apart (L1Key.Among A)) (version : U64)
    {w : World} {L : L1Ledger} (hR : Represents sto A w L) {op : PricerOp} (hop : op.Among A)
    (hexact : op.Exact L) :
    Represents sto A (op.step (openL1PricingState sto version) w).2 (op.apply L).2 := by
  cases op with
  | credit delta =>
      have hroom : (PricerOp.credit delta).Admissible L := hexact
      exact (step_represents hslots version hR hop hroom).2
  | update v updateTime currentTime p weiSpent l1Basefee =>
      obtain ⟨w', hrun, hR'⟩ := updateForBatchPosterSpending_realizes hslots version L hexact.1
        updateTime currentTime hop weiSpent l1Basefee w hR
      have hstep : (PricerOp.update v updateTime currentTime p weiSpent l1Basefee).step
          (openL1PricingState sto version) w = (_, w') := hrun
      rw [hstep]
      exact hR'
  | _ =>
      refine (step_represents hslots version hR hop ?_).2
      exact trivial

/-- After a run the store represents the ledger of the run. -/
theorem run_represents (hslots : (layout sto).Apart (L1Key.Among A)) (version : U64)
    {w : World} {L : L1Ledger} (hR : Represents sto A w L) {ops : List PricerOp}
    (hops : ∀ op ∈ ops, op.Among A)
    (hexact : AdmissibleOps PricerOp.apply PricerOp.Exact ops L) :
    Represents sto A (specOps (PricerOp.step (openL1PricingState sto version)) ops w).2
      (specOps PricerOp.apply ops L).2 := by
  induction ops generalizing w L with
  | nil => exact hR
  | cons op ops ih =>
      rw [List.forall_mem_cons] at hops
      exact ih (step_represents_of_exact hslots version hR hops.1 hexact.1) hops.2 hexact.2

end L1Pricing

namespace L1Pricing
attribute [local instance] sampleHash

/-- Funds come in, a poster is paid less than it spent, the rewards due are corrected, and an
update is rejected for its times. -/
def sampleBooksOps : List PricerOp :=
  [.credit 100, .addToUnitsSinceUpdate 4, .update 10 5 5 7 80 0,
    .setFundsDueForRewards (I256.clamp 3), .update 10 4 3 9 1 1]

end L1Pricing

end ArbReth
