import ArbReth.Proofs.L1Pricing.Sample
import ArbReth.Proofs.L1Pricing.Spending

/-!
# `ArbReth.Proofs.L1Pricing.Initial`: the initial state of the pricer

A store whose slots of the pricer are all zero represents the ledger `L1Ledger.fresh`.
`initialize_realizes` says that the initialization turns it into `L1Ledger.initial`: one
poster is registered, and the funds available are nothing.

`sampleWorld` is a state with funds in the root space under the sample hash.
-/

set_option autoImplicit false

namespace ArbReth

open ArbReth.Program

namespace L1Ledger

/-- The ledger with a table without posters, to which nothing is due. -/
def initTable (L : L1Ledger) : L1Ledger := { L with totalFundsDue := I256.zero, count := 0 }

/-- The ledger that a blank store stands for. -/
def fresh (balance : Address → U256) : L1Ledger where
  payRewardsTo := 0
  equilibrationUnits := 0
  inertia := 0
  perUnitReward := 0
  lastUpdateTime := 0
  fundsDueForRewards := I256.zero
  unitsSinceUpdate := 0
  pricePerUnit := 0
  lastSurplus := I256.zero
  perBatchGasCost := 0
  amortizedCostCapBips := 0
  l1FeesAvailable := 0
  gasFloorPerToken := 0
  totalFundsDue := I256.zero
  count := 0
  member := fun _ => 0
  index := fun _ => 0
  fundsDue := fun _ => I256.zero
  payTo := fun _ => 0
  balance := balance

/-- The ledger after the initialization. -/
def initial (balance : Address → U256) (initialRewardsRecipient : Address)
    (initialL1BaseFee : U256) : L1Ledger :=
  { (fresh balance).register batchPosterAddress with
      payRewardsTo := initialRewardsRecipient
      equilibrationUnits := U256.ofU64 initialEquilibrationUnitsV0
      inertia := initialInertia
      fundsDueForRewards := I256.zero
      perUnitReward := initialPerUnitReward
      pricePerUnit := initialL1BaseFee }

end L1Ledger

namespace L1Pricing

section
variable [Keccak] {sto : Storage} {A : Set Address}

/-- A blank space represents the fresh ledger. -/
theorem represents_fresh {w : World} (hw : w.readOnly = false)
    (hfresh : ∀ k, (layout sto).read w k = 0) : Represents sto A w (L1Ledger.fresh w.balance) where
  writable := hw
  among _ hp := absurd rfl hp
  balance := rfl
  scalar s := by
    rw [hfresh]
    cases s <;> rfl
  table k := by
    rw [hfresh]
    rcases k with s | _ | (i | a) | p | p
    case scalar => trivial
    case posters.list =>
      show (0 : StorageValue) = if i = 0 then U256.ofU64 0 else 0
      split <;> rfl
    all_goals rfl

/-- A write to a scalar through the space. -/
theorem setByUint64_realizes (hslots : (layout sto).Apart (L1Key.Among A)) (L : L1Ledger)
    (s : L1Scalar) (v : U64) (S : L1Scalars) (hs : EncodesScalar S s (U256.ofU64 v))
    (hother : ∀ s' x, s' ≠ s → EncodesScalar L.toL1Scalars s' x → EncodesScalar S s' x) :
    Realizes World.handle (Represents sto A) (sto.setUint64ByUint64 s.offset v) L (.ok ())
      { L with toL1Scalars := S } := fun _ hR =>
  ⟨_, Storage.run_set _ hR.writable _ _, hR.writeScalar hslots s _ S hs hother⟩

/-- The initialization of the table: the total is zero and the set is empty. -/
theorem initializeTable_realizes (hslots : (layout sto).Apart (L1Key.Among A)) (L : L1Ledger) :
    Realizes World.handle (Represents sto A)
      (BatchPostersTable.initializeTable (tableSpace sto)) L (.ok ()) L.initTable := by
  have hsize : Realizes World.handle (Represents sto A)
      (AddressSet.initializeSet (posterSpace sto)) { L with totalFundsDue := I256.zero } (.ok ())
      L.initTable := fun w hR =>
    ⟨_, Storage.run_set _ hR.writable _ _, hR.writeTable hslots (.posters (.list 0)) trivial _
      L.initTable.toPosterTable rfl (fun _ => Or.inl) (fun _ => L1Key.noConfusion)
      fun k' x hne hx => by
        rcases k' with s | _ | (i | a) | q | q
        case posters.list =>
          have hi : i ≠ 0 := fun h => hne (h ▸ rfl)
          show x = if i = 0 then U256.ofU64 0 else L.member i
          simpa only [EncodesTable, if_neg hi] using hx
        all_goals exact hx⟩
  exact .bind (setTotal_realizes hslots L I256.zero) hsize

/-- The initialization of the pricer in a blank space. -/
theorem initialize_realizes (hslots : (layout sto).Apart (L1Key.Among A))
    (hbatch : batchPosterAddress ∈ A) (balance : Address → U256)
    (initialRewardsRecipient : Address) (initialL1BaseFee : U256) :
    Realizes World.handle (Represents sto A)
      (initializeL1PricingState sto initialRewardsRecipient initialL1BaseFee)
      (L1Ledger.fresh balance) (.ok ())
      (L1Ledger.initial balance initialRewardsRecipient initialL1BaseFee) := by
  unfold L1Ledger.initial
  have hnew : ¬(L1Ledger.fresh balance).IsPoster batchPosterAddress := fun h => h rfl
  have hroom : (L1Ledger.fresh balance).count ≠ BitVec.allOnes 64 := by
    show (0 : U64) ≠ _
    decide
  have hinit := initializeTable_realizes hslots (L1Ledger.fresh balance)
  have hadd : Realizes World.handle (Represents sto A)
      ((BatchPostersTable.open (tableSpace sto)).addPoster batchPosterAddress batchPosterAddress)
      (L1Ledger.fresh balance) (.ok (record sto batchPosterAddress))
      ((L1Ledger.fresh balance).register batchPosterAddress) := by
    rw [L1Ledger.register, if_neg hnew]
    exact addPoster_realizes hslots _ hbatch _ hnew hroom
  refine .bind hinit (.bind (.handleErr hadd) ?_)
  generalize (L1Ledger.fresh balance).register batchPosterAddress = L
  refine .bind (setPayRewardsTo_realizes hslots 0 _ _) ?_
  refine .bind (setEquilibrationUnits_realizes hslots 0 _ _) ?_
  refine .bind (setByUint64_realizes hslots _ .inertia initialInertia
    { L.toL1Scalars with
        payRewardsTo := initialRewardsRecipient
        equilibrationUnits := U256.ofU64 initialEquilibrationUnitsV0
        inertia := initialInertia } rfl fun s' x hne hx => by
      cases s' <;> first | exact hx | exact absurd rfl hne) ?_
  refine .bind (setFundsDueForRewards_realizes hslots 0 _ _) ?_
  refine .bind (setByUint64_realizes hslots _ .perUnitReward initialPerUnitReward
    { L.toL1Scalars with
        payRewardsTo := initialRewardsRecipient
        equilibrationUnits := U256.ofU64 initialEquilibrationUnitsV0
        inertia := initialInertia
        fundsDueForRewards := I256.zero
        perUnitReward := initialPerUnitReward } rfl fun s' x hne hx => by
      cases s' <;> first | exact hx | exact absurd rfl hne) ?_
  exact setPricePerUnit_realizes hslots 0 _ _

end

end L1Pricing

/-! ### A state with funds -/

namespace L1Pricing
attribute [local instance] sampleHash

/-- A blank store, and 100 wei in the pool account. -/
def sampleStart : World :=
  { World.blank with balance := fun a => if a = l1PricerFundsPoolAddress then 100 else 0 }

/-- The pricer is initialized, the 100 wei are counted, and four units are sold. -/
def sampleSetup : Exec DbError Unit := do
  initializeL1PricingState sampleRoot 9 1
  let _ ← (openL1PricingState sampleRoot 10).addToL1FeesAvailable 100
  (openL1PricingState sampleRoot 10).addToUnitsSinceUpdate 4

/-- The store after the setup of the sample. -/
def sampleWorld : World := (World.run sampleSetup sampleStart).2

/-- The ledger of the sample. -/
def sampleLedger : L1Ledger :=
  { L1Ledger.initial sampleStart.balance 9 1 with
      l1FeesAvailable := 100
      unitsSinceUpdate := 4 }

/-- The store of the sample represents its ledger. -/
theorem sampleWorld_represents : Represents sampleRoot Set.univ sampleWorld sampleLedger := by
  have hslots := sampleRoot_layout_apart
  have hsetup : Realizes World.handle (Represents sampleRoot Set.univ) sampleSetup
      (L1Ledger.fresh sampleStart.balance) (.ok ()) sampleLedger :=
    .bind (initialize_realizes hslots (Set.mem_univ _) sampleStart.balance 9 1)
      (.bind (addToL1FeesAvailable_realizes hslots 10 _ 100)
        (addToUnitsSinceUpdate_realizes hslots 10 _ 4))
  obtain ⟨w, hrun, hR⟩ := hsetup sampleStart (represents_fresh rfl fun _ => rfl)
  have hworld : sampleWorld = w := congrArg Prod.snd hrun
  rwa [hworld]

/-- The account that is paid the rewards holds the largest word. -/
def richBalance (a : Address) : U256 :=
  if a = 9 then BitVec.allOnes 256 else sampleStart.balance a

/-- The sample ledger with these balances. -/
def richLedger : L1Ledger := { sampleLedger with balance := richBalance }

/-- The sample world with these balances. -/
def richWorld : World := { sampleWorld with balance := richBalance }

/-- The store with a rich recipient represents its ledger. -/
theorem richWorld_represents : Represents sampleRoot Set.univ richWorld richLedger :=
  sampleWorld_represents.withBalance richBalance

end L1Pricing

end ArbReth
