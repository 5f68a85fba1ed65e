import ArbReth.L1Pricing.LegacyLedger
import ArbReth.Reply

/-!
# `ArbReth.L1Pricing.Calls`: the public interface of the L1 pricer

An `L1Query` reads, an `L1Setter` writes one scalar, and an `L1Call` is one of these or an
operation on the funds, on the posters or on both: the update. `program` is the program of
the call on a handle, and `apply` its meaning on a ledger. `version` is the version of
ArbOS that the handle was opened with.

The accessors of the record of a poster are on the record that `openPoster` and
`addPoster` return for the poster. Between two calls the EVM moves funds as well, which is
the call `payment`.
-/

set_option autoImplicit false

namespace ArbReth

open ArbReth.Program

/-! ### Queries -/

/-- A call that reads. -/
inductive L1Query where
  | payRewardsTo
  | equilibrationUnits
  | inertia
  | perUnitReward
  | lastUpdateTime
  | fundsDueForRewards
  | unitsSinceUpdate
  | pricePerUnit
  | lastSurplus
  | perBatchGasCost
  | amortizedCostCapBips
  | l1FeesAvailable
  | parentGasFloorPerToken
  | getL1PricingSurplus
  | totalFundsDue
  | containsPoster (poster : Address)
  | allPosters (maxNumToGet : U64)
  | getFundsDueList
  | fundsDue (poster : Address)
  | payTo (poster : Address)

namespace L1Query

/-- The program of the query. -/
def program [Keccak] (self : L1PricingState) : L1Query → Exec CallError Reply
  | .payRewardsTo => self.payRewardsTo.reply .db .address
  | .equilibrationUnits => self.equilibrationUnits.reply .db .bigUint
  | .inertia => self.inertia.reply .db .uint64
  | .perUnitReward => self.perUnitReward.reply .db .uint64
  | .lastUpdateTime => self.lastUpdateTime.reply .db .uint64
  | .fundsDueForRewards => self.fundsDueForRewards.reply .db .bigInt
  | .unitsSinceUpdate => self.unitsSinceUpdate.reply .db .uint64
  | .pricePerUnit => self.pricePerUnit.reply .db .bigUint
  | .lastSurplus => self.lastSurplus.reply .db .bigInt
  | .perBatchGasCost => self.perBatchGasCost.reply .db .int64
  | .amortizedCostCapBips => self.amortizedCostCapBips.reply .db .uint64
  | .l1FeesAvailable => self.l1FeesAvailable.reply .db .bigUint
  | .parentGasFloorPerToken => self.parentGasFloorPerToken.reply .db .uint64
  | .getL1PricingSurplus => self.getL1PricingSurplus.reply .db .bigInt
  | .totalFundsDue => self.batchPosterTable.totalFundsDue.reply .db .bigInt
  | .containsPoster poster => (self.batchPosterTable.containsPoster poster).reply .db .flag
  | .allPosters maxNumToGet =>
      (self.batchPosterTable.allPosters maxNumToGet).reply .db .addresses
  | .getFundsDueList => self.batchPosterTable.getFundsDueList.reply .ofOpen .fundsDue
  | .fundsDue poster => (self.batchPosterTable.internalOpen poster).fundsDue.reply .db .bigInt
  | .payTo poster => (self.batchPosterTable.internalOpen poster).payTo.reply .db .address

/-- The posters of the list with a positive amount due. Each of them is opened, so each
has to be one. -/
def fundsDueItems (L : L1Ledger) (posters : List Address) :
    Outcome OpenPosterResult (List FundsDueItem) :=
  if ∀ p ∈ posters, L.IsPoster p then
    .ok ((posters.filter fun p => (L.fundsDue p).isPositive).map fun p => ⟨p, L.fundsDue p⟩)
  else .err (.semantic .notExist)

/-- The answer of a ledger. -/
def answer (version : U64) (L : L1Ledger) : L1Query → Outcome CallError Reply
  | .payRewardsTo => .ok (.address L.payRewardsTo)
  | .equilibrationUnits => .ok (.bigUint L.equilibrationUnits)
  | .inertia => .ok (.uint64 L.inertia)
  | .perUnitReward => .ok (.uint64 L.perUnitReward)
  | .lastUpdateTime => .ok (.uint64 L.lastUpdateTime)
  | .fundsDueForRewards => .ok (.bigInt L.fundsDueForRewards)
  | .unitsSinceUpdate => .ok (.uint64 L.unitsSinceUpdate)
  | .pricePerUnit => .ok (.bigUint L.pricePerUnit)
  | .lastSurplus => .ok (.bigInt L.lastSurplus)
  | .perBatchGasCost => .ok (.int64 L.perBatchGasCost)
  | .amortizedCostCapBips => .ok (.uint64 L.amortizedCostCapBips)
  | .l1FeesAvailable => .ok (.bigUint L.l1FeesAvailable)
  | .parentGasFloorPerToken =>
      .ok (.uint64 (if version < arbosVersion50 then 0 else L.gasFloorPerToken))
  | .getL1PricingSurplus => .ok (.bigInt (L.surplus .counter))
  | .totalFundsDue => .ok (.bigInt L.totalFundsDue)
  | .containsPoster poster => .ok (.flag (decide (L.IsPoster poster)))
  | .allPosters maxNumToGet => .ok (.addresses (L.posterList.take maxNumToGet.toNat))
  | .getFundsDueList => ((fundsDueItems L L.posterList).mapErr .ofOpen).map .fundsDue
  | .fundsDue poster => .ok (.bigInt (L.fundsDue poster))
  | .payTo poster => .ok (.address (L.payTo poster))

end L1Query

/-! ### Setters -/

/-- A setter of a scalar. -/
inductive L1Setter where
  | payRewardsTo (addr : Address)
  | equilibrationUnits (equilUnits : U256)
  | inertia (value : U64)
  | perUnitReward (weiPerUnit : U64)
  | lastUpdateTime (t : U64)
  | fundsDueForRewards (amt : I256)
  | unitsSinceUpdate (units : U64)
  | lastSurplus (val : I256) (arbosVersion : U64)
  | pricePerUnit (price : U256)
  | perBatchGasCost (cost : I64)
  | amortizedCostCapBips (cap : U64)
  | l1FeesAvailable (val : U256)
  | parentGasFloorPerToken (floor : U64)

namespace L1Setter

/-- The program of the setter. -/
def program (self : L1PricingState) : L1Setter → Exec DbError Unit
  | .payRewardsTo addr => self.setPayRewardsTo addr
  | .equilibrationUnits equilUnits => self.setEquilibrationUnits equilUnits
  | .inertia value => self.setInertia value
  | .perUnitReward weiPerUnit => self.setPerUnitReward weiPerUnit
  | .lastUpdateTime t => self.setLastUpdateTime t
  | .fundsDueForRewards amt => self.setFundsDueForRewards amt
  | .unitsSinceUpdate units => self.setUnitsSinceUpdate units
  | .lastSurplus val arbosVersion => self.setLastSurplus val arbosVersion
  | .pricePerUnit price => self.setPricePerUnit price
  | .perBatchGasCost cost => self.setPerBatchGasCost cost
  | .amortizedCostCapBips cap => self.setAmortizedCostCapBips cap
  | .l1FeesAvailable val => self.setL1FeesAvailable val
  | .parentGasFloorPerToken floor => self.setParentGasFloorPerToken floor

/-- The setter on a ledger. -/
def apply (version : U64) (L : L1Ledger) : L1Setter → Outcome DbError Unit × L1Ledger
  | .payRewardsTo addr => (.ok (), { L with payRewardsTo := addr })
  | .equilibrationUnits equilUnits => (.ok (), { L with equilibrationUnits := equilUnits })
  | .inertia value => (.ok (), { L with inertia := value })
  | .perUnitReward weiPerUnit => (.ok (), { L with perUnitReward := weiPerUnit })
  | .lastUpdateTime t => (.ok (), { L with lastUpdateTime := t })
  | .fundsDueForRewards amt => (.ok (), { L with fundsDueForRewards := amt })
  | .unitsSinceUpdate units => (.ok (), { L with unitsSinceUpdate := units })
  | .lastSurplus val arbosVersion =>
      (.ok (), { L with lastSurplus := L1Ledger.storedSurplus arbosVersion val })
  | .pricePerUnit price => (.ok (), { L with pricePerUnit := price })
  | .perBatchGasCost cost => (.ok (), { L with perBatchGasCost := cost })
  | .amortizedCostCapBips cap => (.ok (), { L with amortizedCostCapBips := cap })
  | .l1FeesAvailable val => (.ok (), { L with l1FeesAvailable := val })
  | .parentGasFloorPerToken floor =>
      if arbosVersion50 ≤ version then (.ok (), { L with gasFloorPerToken := floor })
      else (.panic "SetParentGasFloorPerToken requires ArbOS v50+", L)

end L1Setter

/-! ### All calls -/

/-- A call of the L1 pricer, or a payment of the EVM. -/
inductive L1Call where
  | query (q : L1Query)
  | set (s : L1Setter)
  | addToUnitsSinceUpdate (units : U64)
  | addToL1FeesAvailable (delta : U256)
  | transferFromL1FeesAvailable (recipient : Address) (amount : U256)
  | addPoster (posterAddress payTo : Address)
  | openPoster (poster : Address) (createIfNotExist : Bool)
  | setFundsDue (poster : Address) (val : I256)
  | setPayTo (poster addr : Address)
  | updateForBatchPosterSpending (arbosVersion updateTime currentTime : U64)
      (batchPoster : Address) (weiSpent l1Basefee : U256)
  | payment (src dst : Address) (amount : U256)

namespace L1Call
variable [Keccak]

/-- The program of the call. -/
def program (self : L1PricingState) : L1Call → Exec CallError Reply
  | .query q => q.program self
  | .set s => (s.program self).reply .db fun _ => .done
  | .addToUnitsSinceUpdate units => (self.addToUnitsSinceUpdate units).reply .db fun _ => .done
  | .addToL1FeesAvailable delta => (self.addToL1FeesAvailable delta).reply .db .bigUint
  | .transferFromL1FeesAvailable recipient amount =>
      (self.transferFromL1FeesAvailable recipient amount).reply .db .bigUint
  | .addPoster posterAddress payTo =>
      (self.batchPosterTable.addPoster posterAddress payTo).reply .ofOpen fun _ => .done
  | .openPoster poster createIfNotExist =>
      (self.batchPosterTable.openPoster poster createIfNotExist).reply .ofOpen fun _ => .done
  | .setFundsDue poster val =>
      ((self.batchPosterTable.internalOpen poster).setFundsDue val).reply .db fun _ => .done
  | .setPayTo poster addr =>
      ((self.batchPosterTable.internalOpen poster).setPayTo addr).reply .db fun _ => .done
  | .updateForBatchPosterSpending arbosVersion updateTime currentTime batchPoster weiSpent
      l1Basefee =>
      (self.updateForBatchPosterSpending arbosVersion updateTime currentTime batchPoster weiSpent
        l1Basefee).reply .ofUpdate fun _ => .done
  | .payment src dst amount =>
      (Exec.transfer src dst amount).reply .db fun refusal => .flag refusal.isNone

/-- The addition of a poster that is none yet. When the set is full, the record is written
and the account is no poster. -/
def insertNew (L : L1Ledger) (p q : Address) : Outcome CallError Reply × L1Ledger :=
  if L.count = BitVec.allOnes 64 then (.panic "attempt to add with overflow", L.enrollWith p q)
  else (.ok .done, L.registerWith p q)

/-- A payment between two accounts, whether it is refused or not. -/
def pay (L : L1Ledger) (src dst : Address) (amount : U256) : L1Ledger :=
  { L with balance := transferBalance L.balance src dst amount }

/-- The payment of `transferFromL1FeesAvailable`. When the counter is too small, the call
panics after the funds have moved. -/
def transferOut (L : L1Ledger) (recipient : Address) (amount : U256) :
    Outcome CallError Reply × L1Ledger :=
  match L.refusal recipient amount with
  | some err =>
      (.panic ("transfer_from_l1_fees_available: EVM balance transfer failed: " ++ err.debug),
        L.transferred recipient amount)
  | none =>
      if amount ≤ L.l1FeesAvailable then
        (.ok (.bigUint (L.l1FeesAvailable - amount)), L.pay .counter recipient amount)
      else
        (.panic ("transfer_from_l1_fees_available: stored l1FeesAvailable inconsistent with "
          ++ "EVM balance"), L.pay .pool recipient amount)

/-- The call on a ledger. -/
def apply (version : U64) : L1Call → L1Ledger → Outcome CallError Reply × L1Ledger
  | .query q, L => (q.answer version L, L)
  | .set s, L =>
      let r := s.apply version L
      ((r.1.mapErr .db).map fun _ => .done, r.2)
  | .addToUnitsSinceUpdate units, L =>
      (.ok .done, { L with unitsSinceUpdate := saturatingAdd L.unitsSinceUpdate units })
  | .addToL1FeesAvailable delta, L =>
      (.ok (.bigUint (saturatingAdd L.l1FeesAvailable delta)),
        { L with l1FeesAvailable := saturatingAdd L.l1FeesAvailable delta })
  | .transferFromL1FeesAvailable recipient amount, L => transferOut L recipient amount
  | .addPoster posterAddress payTo, L =>
      if L.IsPoster posterAddress then (.err (.semantic .alreadyExists), L)
      else insertNew L posterAddress payTo
  | .openPoster poster createIfNotExist, L =>
      if L.IsPoster poster then (.ok .done, L)
      else if createIfNotExist then insertNew L poster poster
      else (.err (.semantic .notExist), L)
  | .setFundsDue poster val, L => (.ok .done, L.setFundsDue poster val)
  | .setPayTo poster addr, L => (.ok .done, { L with payTo := Function.update L.payTo poster addr })
  | .updateForBatchPosterSpending arbosVersion updateTime currentTime batchPoster weiSpent
      l1Basefee, L =>
      let r := L.update arbosVersion updateTime currentTime batchPoster weiSpent l1Basefee
      ((r.1.mapErr .ofUpdate).map fun _ => .done, r.2)
  | .payment src dst amount, L =>
      (.ok (.flag (transferRefusal L.balance src dst amount).isNone), pay L src dst amount)

end L1Call

end ArbReth
