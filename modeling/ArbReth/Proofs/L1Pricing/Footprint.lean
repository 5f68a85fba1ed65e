import ArbReth.Proofs.L1Pricing.Represents
import ArbReth.Proofs.Storage.Footprint
import ArbReth.L1Pricing.Spending

/-!
# `ArbReth.Proofs.L1Pricing.Footprint`: the slots that the L1 pricer reaches

Every function of the L1 pricer reaches the slots of its layout only, whatever the context
answers. It reads and moves balances, and it ends with the first error of the database. The
lemmas follow the functions, from the accessors to the three versions of the update.

## How a function is walked through

`KeepsTo F p` is about all runs of `p` at once, so it is proved along the program and not
along a run. Each command is one step: `bind` takes what is known of the command and leaves
the rest of the function for an arbitrary answer, which is introduced under the name that
the source gives it. A test leaves its two branches, and a panic or a result ends a branch.

Two places need more than the commands. The record that `open_poster` returns is the record
of the poster that was asked for (`openForSpending_returns`), so the slots that are reached
through it are known. A `let` of the source that is shared by two branches is a join point,
and the rest of the function is proved once for it.

## Errors

The update has two errors: the one of the database, and `InvalidTime`, which is its own.
An error of the database is passed on as it is, or it ends the run with a panic where the
source calls `expect`. No other command follows it in either case.
-/

set_option autoImplicit false

namespace ArbReth

open ArbReth.Program

/-- The update passes on the errors of the database. An invalid time is its own error. -/
instance : DbErrors UpdateSpendingError where
  db := .db
  Own e := e = .invalidTime

/-! ### Arithmetic -/

section
variable {F : Footprint} {ε : Type} [DbErrors ε]

/-- A division issues no command: it returns a quotient or panics on a zero divisor. -/
theorem I256.wrappingDiv_keepsTo (x y : I256) :
    KeepsTo F (x.wrappingDiv y : Exec ε I256) := .ite (.panic _) (.done _)

/-- A checked difference issues no command either. -/
theorem I256.checkedSub_keepsTo (x y : I256) :
    KeepsTo F (x.checkedSub y : Exec ε I256) := .ite (.done _) (.panic _)

/-- Nor does the conversion of a count. -/
theorem L1PricingState.expectI256_keepsTo (x : U64) :
    KeepsTo F (expectI256 x : Exec ε I256) := by
  unfold expectI256
  cases I256.tryFrom (U256.ofU64 x) with
  | none => exact .panic _
  | some v => exact .done v

/-- The change of the price is computed from its arguments alone. -/
theorem L1PricingState.priceChange_keepsTo (surplus oldSurplus : I256) (equilUnits : U256)
    (inertia units : U64) :
    KeepsTo F (priceChange surplus oldSurplus equilUnits inertia units : Exec ε I256) := by
  unfold priceChange
  extract_lets inertiaUnits allocPlusInert equilSigned unitsSigned allocPlusInertSigned rest
  -- both ways to the derivative go on with the same division
  have hrest (derivative : I256) : KeepsTo F (rest derivative) := by
    refine (I256.wrappingDiv_keepsTo _ _).bind ?_
    intro change
    exact .ite (.done _) (I256.wrappingDiv_keepsTo _ _)
  refine .ite (hrest _) ?_
  exact (I256.wrappingDiv_keepsTo _ _).bind hrest

end

namespace L1Pricing
variable [Keccak]

/-- The slots of the pricer, and the balances. -/
def footprint (sto : Storage) : Footprint := (layout sto).footprint True

section
variable (sto : Storage)

/-- The slot of each single value belongs to the pricer. -/
theorem footprint_scalar (s : L1Scalar) :
    (footprint sto).slots sto.account (sto.mapAddress s.offset) := ⟨rfl, .scalar s, rfl⟩

/-- So do all slots of the table of the batch posters: its total, the list and the mapping
of its set, and the two slots of the record of each poster. -/
theorem footprint_hasTable : (footprint sto).HasTable (tableSpace sto) where
  total := ⟨rfl, .totalFundsDue, rfl⟩
  list i := ⟨rfl, .posters (.list i), rfl⟩
  index p := ⟨rfl, .posters (.index p), rfl⟩
  fundsDue p := ⟨rfl, .fundsDue p, rfl⟩
  payTo p := ⟨rfl, .payTo p, rfl⟩

end

open L1PricingState BatchPostersTable

section
variable {sto : Storage} {version : U64}

/-! ### The accessors -/

/-- A number of the pricer is read from its own slot. -/
theorem getScalar_keepsTo (s : L1Scalar) :
    KeepsTo (footprint sto) (StorageBackedUint64.mk (sto.newSlot s.offset)).get :=
  StorageBackedUint64.get_keepsTo (footprint_scalar sto s)

/-- A value of the pricer is written to its own slot. -/
theorem setScalar_keepsTo (s : L1Scalar) (v : StorageValue) :
    KeepsTo (footprint sto) ((sto.newSlot s.offset).set v) :=
  StorageSlot.set_keepsTo (footprint_scalar sto s) v

/-- A signed value is read from its own slot. -/
theorem getSigned_keepsTo (s : L1Scalar) :
    KeepsTo (footprint sto) (StorageBackedBigInt.mk (sto.newSlot s.offset)).get :=
  StorageBackedBigInt.get_keepsTo (footprint_scalar sto s)

/-- A whole word is read from its own slot. -/
theorem getWord_keepsTo (s : L1Scalar) :
    KeepsTo (footprint sto) (sto.newSlot s.offset).get :=
  StorageSlot.get_keepsTo (footprint_scalar sto s)

/-- The recipient of the rewards is read from its own slot. -/
theorem payRewardsTo_keepsTo :
    KeepsTo (footprint sto) (openL1PricingState sto version).payRewardsTo :=
  StorageBackedAddress.get_keepsTo (footprint_scalar sto .payRewardsTo)

/-- So are the rewards that are due. -/
theorem fundsDueForRewards_keepsTo :
    KeepsTo (footprint sto) (openL1PricingState sto version).fundsDueForRewards :=
  getSigned_keepsTo .fundsDueForRewards

/-- The rewards that are due are written to the slot they are read from. -/
theorem setFundsDueForRewards_keepsTo (v : I256) :
    KeepsTo (footprint sto) ((openL1PricingState sto version).setFundsDueForRewards v) :=
  setScalar_keepsTo .fundsDueForRewards _

/-- The last surplus is written to one slot, in the encoding of the version. -/
theorem setLastSurplus_keepsTo (v : I256) (arbosVersion : U64) :
    KeepsTo (footprint sto) ((openL1PricingState sto version).setLastSurplus v arbosVersion) :=
  .ite (setScalar_keepsTo .lastSurplus _) (setScalar_keepsTo .lastSurplus _)

/-- The gas floor is written to its slot, or refused in an old version. -/
theorem setParentGasFloorPerToken_keepsTo (floor : U64) :
    KeepsTo (footprint sto) ((openL1PricingState sto version).setParentGasFloorPerToken floor) :=
  .ite (setScalar_keepsTo .gasFloorPerToken _) (.panic _)

/-- The gas floor is read from its slot, and not read at all in an old version. -/
theorem parentGasFloorPerToken_keepsTo :
    KeepsTo (footprint sto) (openL1PricingState sto version).parentGasFloorPerToken :=
  .ite (.done _) (getScalar_keepsTo .gasFloorPerToken)

/-- The units are read and written back to the same slot. -/
theorem addToUnitsSinceUpdate_keepsTo (units : U64) :
    KeepsTo (footprint sto) ((openL1PricingState sto version).addToUnitsSinceUpdate units) := by
  refine (getScalar_keepsTo .unitsSinceUpdate).bind ?_
  intro oldUnits
  exact setScalar_keepsTo .unitsSinceUpdate _

/-- The surplus is computed from the two funds that are due and the fees. -/
theorem getL1PricingSurplus_keepsTo :
    KeepsTo (footprint sto) (openL1PricingState sto version).getL1PricingSurplus := by
  refine (totalFundsDue_keepsTo (footprint_hasTable sto)).bind ?_
  intro fundsDueForRefunds
  refine (getSigned_keepsTo .fundsDueForRewards).bind ?_
  intro fundsDueForRewards
  refine (getWord_keepsTo .l1FeesAvailable).bind ?_
  intro haveFunds
  exact .done _

/-- The fees are read and written back to the same slot. -/
theorem addToL1FeesAvailable_keepsTo (delta : U256) :
    KeepsTo (footprint sto) ((openL1PricingState sto version).addToL1FeesAvailable delta) := by
  refine (getWord_keepsTo .l1FeesAvailable).bind ?_
  intro fees
  refine (setScalar_keepsTo .l1FeesAvailable _).bind ?_
  intro _
  exact .done _

/-- A payment moves balances first. The fees are only lowered when it was made. -/
theorem transferFromL1FeesAvailable_keepsTo (recipient : Address) (amount : U256) :
    KeepsTo (footprint sto)
      ((openL1PricingState sto version).transferFromL1FeesAvailable recipient amount) := by
  refine (Exec.transfer_keepsTo trivial _ _ _).bind ?_
  rintro (_ | refusal)
  · refine (getWord_keepsTo .l1FeesAvailable).bind ?_
    intro fees
    refine .ite ?_ (.panic _)
    refine (setScalar_keepsTo .l1FeesAvailable _).bind ?_
    intro _
    exact .done _
  · exact .panic _

/-- The balance of the pool is a balance. -/
theorem poolBalance_keepsTo : KeepsTo (footprint sto) poolBalance :=
  Exec.loadBalance_keepsTo trivial _

/-! ### The stages of the update -/

/-- The record of the poster is opened, or an error of the database is passed on. -/
theorem openForSpending_keepsTo (context : String) (p : Address) :
    KeepsTo (footprint sto) ((openL1PricingState sto version).openForSpending context p) := by
  refine (openPoster_keepsTo (footprint_hasTable sto) p true).handleErr (fun _ => rfl) ?_
  rintro _ ⟨e, rfl⟩
  exact .panic _

/-- The record that is opened is the one of the poster. -/
theorem openForSpending_returns (context : String) (p : Address) :
    ((openL1PricingState sto version).openForSpending context p).Returns (· = record sto p) := by
  refine .handleErr (openPoster_returns p true) ?_
  intro e
  cases e <;> exact trivial

/-- The times are read and checked, and the units are split between the update and what is
left of them. -/
theorem allocateUnits_keepsTo (updateTime currentTime : U64) :
    KeepsTo (footprint sto)
      ((openL1PricingState sto version).allocateUnits updateTime currentTime) := by
  refine (KeepsTo.lift (getScalar_keepsTo .lastUpdateTime)).bind ?_
  intro stored
  -- the first update takes the time before its own as the last one
  refine Confined.join (fun lastUpdateTime => ?_) fun rest hrest =>
    .ite ((KeepsTo.checkedSub _ _).bind hrest) (hrest stored)
  refine .ite (.fail _ rfl) ?_
  refine (KeepsTo.checkedSub _ _).bind ?_
  intro numerator
  refine (KeepsTo.checkedSub _ _).bind ?_
  intro denominator
  refine (KeepsTo.lift (getScalar_keepsTo .unitsSinceUpdate)).bind ?_
  intro units
  refine (KeepsTo.checkedDiv _ _).bind ?_
  intro allocated
  refine (KeepsTo.checkedSub _ _).bind ?_
  intro left
  refine (KeepsTo.lift (setScalar_keepsTo .unitsSinceUpdate _)).bind ?_
  intro _
  exact .done _

/-- The cap is read, where there is one. -/
theorem imposeCostCap_keepsTo (arbosVersion units : U64) (weiSpent l1Basefee : U256) :
    KeepsTo (footprint sto) ((openL1PricingState sto version).imposeCostCap arbosVersion units
      weiSpent l1Basefee) := by
  refine .ite ?_ (.done _)
  refine (getScalar_keepsTo .amortizedCostCapBips).bind ?_
  intro amortizedCostCapBips
  exact .ite (.done _) (.done _)

/-- The funds that are due to the poster are read from its record and written back. -/
theorem creditPoster_keepsTo (p : Address) (weiSpent : U256) :
    KeepsTo (footprint sto) (creditPoster (record sto p) weiSpent) := by
  refine (fundsDue_keepsTo (footprint_hasTable sto) p).bind ?_
  intro dueToPoster
  exact setFundsDue_keepsTo (footprint_hasTable sto) p _

/-- The reward of a unit is read, and the rewards that are due are written. -/
theorem accrueRewards_keepsTo (due : I256) (units : U64) :
    KeepsTo (footprint sto) ((openL1PricingState sto version).accrueRewards due units) := by
  refine (getScalar_keepsTo .perUnitReward).bind ?_
  intro perUnitReward
  refine (expectI256_keepsTo _).bind ?_
  intro unitsSigned
  refine (expectI256_keepsTo _).bind ?_
  intro rewardSigned
  refine (setFundsDueForRewards_keepsTo _).bind ?_
  intro _
  exact .done _

/-- The price is changed from what is due, the funds, and the parameters of the pricer. The
funds are read in a way that depends on the version. -/
theorem adjustPrice_keepsTo {funds : Exec DbError U256} (hfunds : KeepsTo (footprint sto) funds)
    (arbosVersion units : U64) :
    KeepsTo (footprint sto)
      ((openL1PricingState sto version).adjustPrice funds arbosVersion units) := by
  refine .ite ?_ (.done _)
  refine (totalFundsDue_keepsTo (footprint_hasTable sto)).bind ?_
  intro totalFundsDue
  refine fundsDueForRewards_keepsTo.bind ?_
  intro fundsDueForRewards
  refine hfunds.bind ?_
  intro available
  refine (getScalar_keepsTo .inertia).bind ?_
  intro inertia
  refine (getWord_keepsTo .equilibrationUnits).bind ?_
  intro equilUnits
  refine (getWord_keepsTo .pricePerUnit).bind ?_
  intro price
  refine (getSigned_keepsTo .lastSurplus).bind ?_
  intro oldSurplus
  refine (priceChange_keepsTo _ _ _ _ _).bind ?_
  intro change
  refine (setLastSurplus_keepsTo _ _).bind ?_
  intro _
  exact setScalar_keepsTo .pricePerUnit _

/-- A payment out of the pool, when there is something to pay. -/
theorem payFromPool_keepsTo (context : String) (recipient : Address) (amount : U256) :
    KeepsTo (footprint sto) (payFromPool context recipient amount) := by
  refine .ite ?_ (.done _)
  refine (Exec.transfer_keepsTo trivial _ _ _).bind ?_
  rintro (_ | refusal)
  · exact .done _
  · exact .panic _

/-! ### The updates -/

/-- A poster is opened before version 2, and the function goes on with its record. An error
of the database is passed on, and any other error ends the run with a panic. -/
theorem openThen_keepsTo {α : Type} {p : Address} {create : Bool}
    {onErr : OpenPosterResult → Exec DbError BatchPosterState}
    {rest : BatchPosterState → Exec DbError α} (hdb : ∀ e, onErr (.db e) = .fail e)
    (hsemantic : ∀ e, ∃ message, onErr (.semantic e) = .panic message)
    (hrest : KeepsTo (footprint sto) (rest (record sto p))) :
    KeepsTo (footprint sto)
      (((BatchPostersTable.open (tableSpace sto)).openPoster p create).handleErr onErr
        >>= rest) := by
  have hopen : KeepsTo (footprint sto)
      (((BatchPostersTable.open (tableSpace sto)).openPoster p create).handleErr onErr) := by
    refine (openPoster_keepsTo (footprint_hasTable sto) p create).handleErr hdb ?_
    rintro _ ⟨e, rfl⟩
    obtain ⟨message, hmessage⟩ := hsemantic e
    rw [hmessage]
    exact .panic _
  have hrecord : (((BatchPostersTable.open (tableSpace sto)).openPoster p create).handleErr
      onErr).Returns (· = record sto p) := by
    refine .handleErr (openPoster_returns p create) ?_
    intro err
    cases err with
    | db e =>
        rw [hdb]
        exact trivial
    | semantic e =>
        obtain ⟨message, hmessage⟩ := hsemantic e
        rw [hmessage]
        exact trivial
  refine Confined.bind_of_returns hopen hrecord ?_
  rintro _ rfl
  exact hrest

/-- Before version 2 every poster of the list is paid in turn. Induction on the list, for any
funds that are left. -/
theorem preVersion2SettlePosters_keepsTo (posters : List Address) (availableFunds : U256) :
    KeepsTo (footprint sto)
      ((openL1PricingState sto version).preVersion2SettlePosters posters availableFunds) := by
  have htable := footprint_hasTable sto
  induction posters generalizing availableFunds with
  | nil => exact .done _
  | cons p posters ih =>
      refine openThen_keepsTo (fun _ => rfl) (fun _ => ⟨_, rfl⟩) ?_
      refine (fundsDue_keepsTo htable p).bind ?_
      intro balanceDue
      refine .ite (.ite ?_ (ih _)) (ih _)
      refine (payTo_keepsTo htable p).bind ?_
      intro addrToPay
      refine (payFromPool_keepsTo _ _ _).bind ?_
      intro _
      refine (I256.checkedSub_keepsTo _ _).bind ?_
      intro newBalanceDue
      refine (setFundsDue_keepsTo htable p _).bind ?_
      intro _
      exact ih _

/-- The price before version 2 is changed from the balance of the pool. -/
theorem preVersion2AdjustPrice_keepsTo (oldSurplus : I256) (units : U64) :
    KeepsTo (footprint sto)
      ((openL1PricingState sto version).preVersion2AdjustPrice oldSurplus units) := by
  refine .ite ?_ (.done _)
  refine (totalFundsDue_keepsTo (footprint_hasTable sto)).bind ?_
  intro totalFundsDue
  refine fundsDueForRewards_keepsTo.bind ?_
  intro fundsDueForRewards
  refine poolBalance_keepsTo.bind ?_
  intro available
  refine (getScalar_keepsTo .inertia).bind ?_
  intro inertia
  refine (getWord_keepsTo .equilibrationUnits).bind ?_
  intro equilUnits
  extract_lets equilSigned rest
  -- the inertia may be zero, and so may the divisor of the price change
  have hrest (inertiaUnits : I256) : KeepsTo (footprint sto) (rest inertiaUnits) := by
    refine (getWord_keepsTo .pricePerUnit).bind ?_
    intro price
    refine (expectI256_keepsTo _).bind ?_
    intro unitsSigned
    extract_lets allocPlusInert denom setPrice
    have hset (change : I256) : KeepsTo (footprint sto) (setPrice change) :=
      setScalar_keepsTo .pricePerUnit _
    exact .ite (hset _) ((I256.wrappingDiv_keepsTo _ _).bind hset)
  refine .ite (hrest _) ?_
  refine (expectI256_keepsTo _).bind ?_
  intro inertiaSigned
  exact (I256.wrappingDiv_keepsTo _ _).bind hrest

/-- The update before version 2. An update that is out of time ends without an error. -/
theorem preVersion2Update_keepsTo (updateTime currentTime : U64) (p : Address)
    (weiSpent : U256) :
    KeepsTo (footprint sto)
      ((openL1PricingState sto version).preVersion2UpdateForBatchPosterSpending updateTime
        currentTime p weiSpent) := by
  have htable := footprint_hasTable sto
  refine openThen_keepsTo (fun _ => rfl) (fun _ => ⟨_, rfl⟩) ?_
  refine (totalFundsDue_keepsTo htable).bind ?_
  intro totalFundsDue
  refine fundsDueForRewards_keepsTo.bind ?_
  intro fundsDueForRewards
  refine poolBalance_keepsTo.bind ?_
  intro poolBefore
  refine (getScalar_keepsTo .lastUpdateTime).bind ?_
  intro stored
  refine .ite (.done _) ?_
  -- the units of the update
  refine (KeepsTo.checkedSub _ _).bind ?_
  intro numerator
  refine (KeepsTo.checkedSub _ _).bind ?_
  intro denominator
  refine (getScalar_keepsTo .unitsSinceUpdate).bind ?_
  intro unitsSinceUpdate
  refine (KeepsTo.checkedSub _ _).bind ?_
  intro left
  refine (setScalar_keepsTo .unitsSinceUpdate _).bind ?_
  intro _
  -- what is due to the poster and as a reward
  refine (creditPoster_keepsTo p weiSpent).bind ?_
  intro _
  refine (accrueRewards_keepsTo _ _).bind ?_
  intro rewards
  -- the payments
  refine poolBalance_keepsTo.bind ?_
  intro availableFunds
  refine (setFundsDueForRewards_keepsTo _).bind ?_
  intro _
  refine payRewardsTo_keepsTo.bind ?_
  intro recipient
  refine (payFromPool_keepsTo _ _ _).bind ?_
  intro _
  refine (allPosters_keepsTo htable _).bind ?_
  intro allPosterAddrs
  refine (preVersion2SettlePosters_keepsTo _ _).bind ?_
  intro _
  -- the time and the price
  refine (setScalar_keepsTo .lastUpdateTime _).bind ?_
  intro _
  exact preVersion2AdjustPrice_keepsTo _ _

/-- The payment of the poster in the versions 2 to 9, out of the balance of the pool. -/
theorem preVersion10SettlePoster_keepsTo (p : Address) :
    KeepsTo (footprint sto) (preVersion10SettlePoster (record sto p)) := by
  have htable := footprint_hasTable sto
  refine poolBalance_keepsTo.bind ?_
  intro availableFunds
  refine (fundsDue_keepsTo htable p).bind ?_
  intro balanceDueToPoster
  refine .ite (.ite ?_ (.done _)) (.done _)
  refine (payTo_keepsTo htable p).bind ?_
  intro addrToPay
  refine (Exec.transfer_keepsTo trivial _ _ _).bind ?_
  rintro (_ | refusal)
  · exact setFundsDue_keepsTo htable p _
  · exact .panic _

/-- The update before version 10, which leaves the versions before 2 to their own. -/
theorem preVersion10Update_keepsTo (arbosVersion updateTime currentTime : U64) (p : Address)
    (weiSpent l1Basefee : U256) :
    KeepsTo (footprint sto)
      ((openL1PricingState sto version).preVersion10UpdateForBatchPosterSpending arbosVersion
        updateTime currentTime p weiSpent l1Basefee) := by
  refine .ite (KeepsTo.lift (preVersion2Update_keepsTo _ _ _ _)) ?_
  refine (openForSpending_keepsTo _ p).bind_of_returns (openForSpending_returns _ p) ?_
  rintro _ rfl
  refine (KeepsTo.lift fundsDueForRewards_keepsTo).bind ?_
  intro fundsDueForRewards
  refine (allocateUnits_keepsTo _ _).bind ?_
  intro unitsAllocated
  -- what is due to the poster and as a reward
  refine (KeepsTo.lift (imposeCostCap_keepsTo _ _ _ _)).bind ?_
  intro weiSpent
  refine (KeepsTo.lift (creditPoster_keepsTo p _)).bind ?_
  intro _
  refine (KeepsTo.lift (accrueRewards_keepsTo _ _)).bind ?_
  intro rewards
  -- the payments
  refine (KeepsTo.lift poolBalance_keepsTo).bind ?_
  intro available
  refine (KeepsTo.lift (setFundsDueForRewards_keepsTo _)).bind ?_
  intro _
  refine (KeepsTo.lift payRewardsTo_keepsTo).bind ?_
  intro recipient
  refine (KeepsTo.lift (payFromPool_keepsTo _ _ _)).bind ?_
  intro _
  refine (KeepsTo.lift (preVersion10SettlePoster_keepsTo p)).bind ?_
  intro _
  -- the time and the price
  refine (KeepsTo.lift (setScalar_keepsTo .lastUpdateTime _)).bind ?_
  intro _
  exact KeepsTo.lift (adjustPrice_keepsTo poolBalance_keepsTo _ _)

/-- The payment of the poster from version 10 on, out of the fees. -/
theorem settlePoster_keepsTo (p : Address) (l1FeesAvailable : U256) :
    KeepsTo (footprint sto)
      ((openL1PricingState sto version).settlePoster (record sto p) l1FeesAvailable) := by
  have htable := footprint_hasTable sto
  refine (fundsDue_keepsTo htable p).bind ?_
  intro balanceDueToPoster
  refine .ite (.ite ?_ (.done _)) (.done _)
  refine (payTo_keepsTo htable p).bind ?_
  intro addrToPay
  refine (transferFromL1FeesAvailable_keepsTo _ _).bind ?_
  intro left
  refine (setFundsDue_keepsTo htable p _).bind ?_
  intro _
  exact .done _

/-- The update, in every version. -/
theorem updateForBatchPosterSpending_keepsTo (arbosVersion updateTime currentTime : U64)
    (p : Address) (weiSpent l1Basefee : U256) :
    KeepsTo (footprint sto)
      ((openL1PricingState sto version).updateForBatchPosterSpending arbosVersion updateTime
        currentTime p weiSpent l1Basefee) := by
  refine .ite (preVersion10Update_keepsTo _ _ _ _ _ _) ?_
  refine (openForSpending_keepsTo _ p).bind_of_returns (openForSpending_returns _ p) ?_
  rintro _ rfl
  refine (KeepsTo.lift fundsDueForRewards_keepsTo).bind ?_
  intro fundsDueForRewards
  refine (KeepsTo.lift (getWord_keepsTo .l1FeesAvailable)).bind ?_
  intro l1FeesAvailable
  refine (allocateUnits_keepsTo _ _).bind ?_
  intro unitsAllocated
  -- what is due to the poster and as a reward
  refine (KeepsTo.lift (imposeCostCap_keepsTo _ _ _ _)).bind ?_
  intro weiSpent
  refine (KeepsTo.lift (creditPoster_keepsTo p _)).bind ?_
  intro _
  refine (KeepsTo.lift (accrueRewards_keepsTo _ _)).bind ?_
  intro rewards
  -- the payments
  refine (KeepsTo.lift (setFundsDueForRewards_keepsTo _)).bind ?_
  intro _
  refine (KeepsTo.lift payRewardsTo_keepsTo).bind ?_
  intro recipient
  refine (KeepsTo.lift (transferFromL1FeesAvailable_keepsTo _ _)).bind ?_
  intro feesLeft
  refine (KeepsTo.lift (settlePoster_keepsTo p _)).bind ?_
  intro feesLeft
  -- the time and the price
  refine (KeepsTo.lift (setScalar_keepsTo .lastUpdateTime _)).bind ?_
  intro _
  exact KeepsTo.lift (adjustPrice_keepsTo (.done _) _ _)

/-- The initial state is written to the slots of the pricer. -/
theorem initialize_keepsTo (initialRewardsRecipient : Address) (initialL1BaseFee : U256) :
    KeepsTo (footprint sto)
      (initializeL1PricingState sto initialRewardsRecipient initialL1BaseFee) := by
  have htable := footprint_hasTable sto
  have hset : ∀ (s : L1Scalar) (v : StorageValue),
      KeepsTo (footprint sto) (sto.set (U256.ofU64 s.offset) v) := fun s v =>
    Storage.set_keepsTo (footprint_scalar sto s) v
  refine (initializeTable_keepsTo htable).bind fun _ => Confined.bind ?_ fun _ => ?_
  · -- the first poster
    refine KeepsTo.handleErr (addPoster_keepsTo htable _ _) (fun _ => rfl) ?_
    rintro _ ⟨e, rfl⟩
    exact .panic _
  · refine (setScalar_keepsTo .payRewardsTo _).bind ?_
    intro _
    refine (setScalar_keepsTo .equilibrationUnits _).bind ?_
    intro _
    refine (hset .inertia _).bind ?_
    intro _
    refine (setScalar_keepsTo .fundsDueForRewards _).bind ?_
    intro _
    refine (hset .perUnitReward _).bind ?_
    intro _
    exact setScalar_keepsTo .pricePerUnit _

end

end L1Pricing

end ArbReth
