import ArbReth.L1Pricing.LegacyLedger
import ArbReth.L1Pricing.PosterMap

/-!
# `ArbReth.L1Pricing.DueCalls`: the calls of `setFundsDue`

The total of the amounts due changes in one place only, in `setFundsDue`. Here each
update of the pricer has its list of calls, in the order in which it makes them: the
credit, and a payment for one poster or for each. A call is made when the stages before
it have succeeded, so the lists follow the ways the payments can end.

`DueOp` is an operation of a client of the table and the pricer: on the posters, on the
records that it has opened, or a whole update.
-/

set_option autoImplicit false

namespace ArbReth

open ArbReth.Program

/-- A call of `setFundsDue`. -/
structure DueCall where
  poster : Address
  val : I256

namespace PosterTable

/-- The table after a call. -/
def call (T : PosterTable) (c : DueCall) : PosterTable :=
  { T with
      totalFundsDue := (T.totalFundsDue.saturatingAdd c.val).saturatingSub (T.fundsDue c.poster)
      fundsDue := Function.update T.fundsDue c.poster c.val }

/-- Neither the addition nor the subtraction of the call is clamped. -/
def Unclamped (T : PosterTable) (c : DueCall) : Prop :=
  I256.InRange (T.totalFundsDue.toInt + c.val.toInt)
    ∧ I256.InRange (T.totalFundsDue.toInt + c.val.toInt - (T.fundsDue c.poster).toInt)

instance (T : PosterTable) (c : DueCall) : Decidable (T.Unclamped c) :=
  inferInstanceAs (Decidable (_ ∧ _))

/-- The table after some calls. -/
def calls (T : PosterTable) (cs : List DueCall) : PosterTable := cs.foldl call T

/-- No call is clamped, each on the table that it finds. -/
def AllUnclamped : List DueCall → PosterTable → Prop
  | [], _ => True
  | c :: cs, T => T.Unclamped c ∧ AllUnclamped cs (T.call c)

instance : (cs : List DueCall) → (T : PosterTable) → Decidable (AllUnclamped cs T)
  | [], _ => inferInstanceAs (Decidable True)
  | c :: cs, T =>
      let _ := instDecidableAllUnclamped cs (T.call c)
      inferInstanceAs (Decidable (_ ∧ _))

end PosterTable

namespace L1Ledger

/-! ### The calls of an update -/

/-- The call for a payment to a poster. -/
def settleCall (L : L1Ledger) (p : Address) (amount : U256) : DueCall :=
  ⟨p, (L.fundsDue p).saturatingSub (I256.ofU256 amount)⟩

/-- The call for the credit of the wei that are accounted for. -/
def creditCall (L : L1Ledger) (p : Address) (wei : U256) : DueCall :=
  ⟨p, (L.fundsDue p).saturatingAdd (I256.ofU256 wei)⟩

/-- The calls of the payments from version 2 on. -/
def settleCalls (L : L1Ledger) (f : Funding) (units : U64) (p : Address) : List DueCall :=
  match L.payRewards f units with
  | (some _, _) => []
  | (none, L₁) =>
      let amount := L₁.posterPayment f p
      match L₁.refusal (L₁.payTo p) amount with
      | some _ => []
      | none => if amount = 0 then [] else [L₁.settleCall p amount]

/-- The calls of an update from version 2 on, after the poster is registered. -/
def spendCalls (L : L1Ledger) (f : Funding) (arbosVersion updateTime currentTime : U64)
    (p : Address) (weiSpent l1Basefee : U256) : List DueCall :=
  if ¬L.TimeOk updateTime currentTime then []
  else
    let units := L.allocated updateTime currentTime
    let wei := (L.takeUnits units).accounted arbosVersion units weiSpent l1Basefee
    (L.takeUnits units).creditCall p wei
      :: (L.account arbosVersion units p weiSpent l1Basefee).settleCalls f units p

/-- The calls of the payments to the posters of a list. -/
def settleAllCalls : List Address → U256 → L1Ledger → List DueCall
  | [], _, _ => []
  | p :: posters, availableFunds, L =>
      if ¬L.IsPoster p then []
      else
        let amount := L.legacyPayment availableFunds p
        if amount = 0 then settleAllCalls posters availableFunds L
        else
          match L.refusal (L.payTo p) amount with
          | some _ => []
          | none =>
              L.settleCall p amount
                :: settleAllCalls posters (availableFunds - amount) (L.legacySettle p amount)

/-- The calls of the payments before version 2. -/
def legacyPayCalls (L : L1Ledger) (units : U64) (availableFunds : U256) : List DueCall :=
  let payment := L.legacyReward availableFunds units
  let L₁ := L.debitRewards payment
  match L₁.refusal L₁.payRewardsTo payment with
  | some _ => []
  | none =>
      settleAllCalls L₁.posterList (availableFunds - payment)
        (L₁.pay .pool L₁.payRewardsTo payment)

/-- The calls of an update before version 2, after the poster is registered. -/
def legacySpendCalls (L : L1Ledger) (updateTime currentTime : U64) (p : Address)
    (weiSpent : U256) : List DueCall :=
  if ¬L.LegacyTimeOk updateTime currentTime then []
  else
    let units := L.legacyAllocated updateTime currentTime
    (L.takeUnits units).creditCall p weiSpent
      :: (L.legacyAccount units p weiSpent).legacyPayCalls units
        (L.legacyFunds updateTime currentTime)

/-- The calls of an update, after the poster is registered. -/
def updateCalls (L : L1Ledger) (arbosVersion updateTime currentTime : U64) (p : Address)
    (weiSpent l1Basefee : U256) : List DueCall :=
  if arbosVersion < arbosVersion2 then L.legacySpendCalls updateTime currentTime p weiSpent
  else
    L.spendCalls (Funding.ofVersion arbosVersion) arbosVersion updateTime currentTime p weiSpent
      l1Basefee

end L1Ledger

/-! ### The operations of a client -/

/-- An operation of a client of the table and the pricer. -/
inductive DueOp where
  | addPoster (posterAddress payTo : Address)
  | openPoster (poster : Address) (createIfNotExist : Bool)
  | setFundsDue (handle : Nat) (val : I256)
  | update (arbosVersion updateTime currentTime : U64) (batchPoster : Address)
      (weiSpent l1Basefee : U256)

/-- The errors of the operations. -/
inductive DueError where
  | table (e : OpenPosterResult)
  | spending (e : UpdateSpendingError)

/-- The addition of a new poster. The set of posters may be full. -/
def L1Ledger.addNew (L : L1Ledger) (p q : Address) :
    Outcome DueError (Unit × Option Address) × L1Ledger :=
  if L.count = BitVec.allOnes 64 then (.panic "attempt to add with overflow", L.enrollWith p q)
  else (.ok ((), some p), L.registerWith p q)

namespace DueOp
variable [Keccak]

/-- The program of the operation. An operation on a handle that was not opened does
nothing. -/
def program (self : L1PricingState) : DueOp → List BatchPosterState →
    Exec DueError (Unit × Option BatchPosterState)
  | .addPoster posterAddress payTo, _ => do
      let bpState ← (self.batchPosterTable.addPoster posterAddress payTo).mapErr .table
      pure ((), some bpState)
  | .openPoster poster createIfNotExist, _ => do
      let bpState ← (self.batchPosterTable.openPoster poster createIfNotExist).mapErr .table
      pure ((), some bpState)
  | .setFundsDue handle val, handles =>
      match handles[handle]? with
      | none => pure ((), none)
      | some bpState => do
          (bpState.setFundsDue val).mapErr fun e => .table (.db e)
          pure ((), none)
  | .update arbosVersion updateTime currentTime batchPoster weiSpent l1Basefee, _ => do
      (self.updateForBatchPosterSpending arbosVersion updateTime currentTime batchPoster weiSpent
        l1Basefee).mapErr .spending
      pure ((), none)

/-- The operation on a ledger. A handle is the poster that it was opened for. -/
def apply : DueOp → List Address → L1Ledger →
    Outcome DueError (Unit × Option Address) × L1Ledger
  | .addPoster posterAddress payTo, _, L =>
      if L.IsPoster posterAddress then (.err (.table (.semantic .alreadyExists)), L)
      else L.addNew posterAddress payTo
  | .openPoster poster createIfNotExist, _, L =>
      if L.IsPoster poster then (.ok ((), some poster), L)
      else if createIfNotExist then L.addNew poster poster
      else (.err (.table (.semantic .notExist)), L)
  | .setFundsDue handle val, handles, L =>
      match handles[handle]? with
      | none => (.ok ((), none), L)
      | some poster => (.ok ((), none), L.setFundsDue poster val)
  | .update arbosVersion updateTime currentTime batchPoster weiSpent l1Basefee, _, L =>
      let r := L.update arbosVersion updateTime currentTime batchPoster weiSpent l1Basefee
      ((r.1.mapErr .spending).map fun _ => ((), none), r.2)

/-- No call of `setFundsDue` that the operation makes is clamped. -/
def Unclamped : DueOp → List Address → L1Ledger → Prop
  | .addPoster .., _, _ => True
  | .openPoster .., _, _ => True
  | .setFundsDue handle val, handles, L =>
      ∀ poster ∈ handles[handle]?, L.toPosterTable.Unclamped ⟨poster, val⟩
  | .update arbosVersion updateTime currentTime batchPoster weiSpent l1Basefee, _, L =>
      ¬(¬L.IsPoster batchPoster ∧ L.count = BitVec.allOnes 64) →
        PosterTable.AllUnclamped
          ((L.register batchPoster).updateCalls arbosVersion updateTime currentTime batchPoster
            weiSpent l1Basefee)
          (L.register batchPoster).toPosterTable

instance : (op : DueOp) → (handles : List Address) → (L : L1Ledger) →
    Decidable (op.Unclamped handles L)
  | .addPoster .., _, _ => inferInstanceAs (Decidable True)
  | .openPoster .., _, _ => inferInstanceAs (Decidable True)
  | .setFundsDue .., _, _ => inferInstanceAs (Decidable (∀ _ ∈ _, _))
  | .update .., _, _ => inferInstanceAs (Decidable (_ → _))

end DueOp

end ArbReth
