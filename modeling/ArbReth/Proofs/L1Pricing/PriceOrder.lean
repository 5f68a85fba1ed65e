import ArbReth.Proofs.L1Pricing.Calls
import ArbReth.Proofs.L1Pricing.PriceSign

/-!
# `ArbReth.Proofs.L1Pricing.PriceOrder`: the price follows, and nothing follows the price

The state of the price controller is four scalars, the `PriceScalars`. The other parts of a
ledger do not depend on them: `L1Call.apply_withPrice` says that a call which does not query
them gives the same result and the same rest for all of them, and changes them by a function
of their own.

That function is monotone, for the order in which a higher price and a higher old surplus are
above. It comes from `priceChangeOf_le`: for all words, also where an operation saturates, a
higher surplus gives a lower price change, and a higher old surplus a higher one.
-/

set_option autoImplicit false

namespace ArbReth

open ArbReth.Program

/-! ### The price change is monotone -/

namespace I256

/-- Clamping into the range of a signed word keeps the order. -/
theorem clamp_le_clamp {i j : Int} (h : i ≤ j) : (clamp i).toInt ≤ (clamp j).toInt := by
  rw [toInt_clamp, toInt_clamp]
  omega

/-- A quotient grows with its dividend, also when the divisor is zero and it is not taken. -/
theorem guardedQuot_le {x y : I256} (h : x.toInt ≤ y.toInt) (divisor : U256) :
    (if (ofU256 divisor).isZero then zero else x.wrappingQuot (ofU256 divisor)).toInt
      ≤ (if (ofU256 divisor).isZero then zero else y.wrappingQuot (ofU256 divisor)).toInt := by
  split
  · exact Int.le_refl _
  · rename_i hne
    have hpos := ofU256_pos (Bool.eq_false_of_not_eq_true hne)
    rw [toInt_wrappingQuot x hpos, toInt_wrappingQuot y hpos]
    exact Int.tdiv_le_tdiv hpos h

/-- The magnitude that a fall of the price takes off. The smallest change has no negation, and
is the largest word. -/
theorem toNat_toU256_wrappingNeg_le {x y : I256} (h : x.toInt ≤ y.toInt) (hy : y.toInt < 0) :
    y.wrappingNeg.toU256.toNat ≤ x.wrappingNeg.toU256.toNat := by
  have hneg : ∀ z : I256, z.toInt < 0 → z.toInt ≠ -2 ^ 255 →
      (z.wrappingNeg.toU256.toNat : Int) = -z.toInt := by
    intro z hz hne
    have hlow := z.le_toInt
    have hwrap : z.wrappingNeg.toInt = -z.toInt := toInt_fromRaw_ofInt ⟨by omega, by omega⟩
    rw [toNat_toU256 (by omega), hwrap]
  by_cases hx : x.toInt = -2 ^ 255
  · have hwrap : x.wrappingNeg.toInt = -2 ^ 255 := by
      show (BitVec.ofInt 256 (-x.toInt)).toInt = _
      rw [hx]
      decide
    have hmax : x.wrappingNeg.toU256 = BitVec.allOnes 256 := by
      rw [toU256, if_neg (by omega)]
    have hlt := y.wrappingNeg.toU256.isLt
    rw [hmax, BitVec.toNat_allOnes]
    omega
  · have hlow := x.le_toInt
    have hmx := hneg x (by omega) hx
    have hmy := hneg y hy (by omega)
    omega

end I256

/-- For all words, the change falls with the surplus and rises with the old surplus. -/
theorem priceChangeOf_le {surplus surplus' oldSurplus oldSurplus' : I256} {units : U64}
    (hsurplus : surplus'.toInt ≤ surplus.toInt) (hold : oldSurplus.toInt ≤ oldSurplus'.toInt)
    (hunits : 0 < units) (equilUnits : U256) (inertia : U64) :
    (priceChangeOf surplus oldSurplus equilUnits inertia units).toInt
      ≤ (priceChangeOf surplus' oldSurplus' equilUnits inertia units).toInt := by
  have hword := I256.ofU256_ofU64_pos hunits
  have hneg : surplus.saturatingNeg.toInt ≤ surplus'.saturatingNeg.toInt :=
    I256.clamp_le_clamp (by omega)
  have hdesired := I256.guardedQuot_le hneg equilUnits
  have hactual :
      ((surplus'.saturatingSub oldSurplus').wrappingQuot (I256.ofU256 (U256.ofU64 units))).toInt
        ≤ ((surplus.saturatingSub oldSurplus).wrappingQuot
          (I256.ofU256 (U256.ofU64 units))).toInt := by
    rw [I256.toInt_wrappingQuot _ hword, I256.toInt_wrappingQuot _ hword]
    exact Int.tdiv_le_tdiv hword (I256.clamp_le_clamp (by omega))
  refine I256.guardedQuot_le ?_ _
  refine I256.clamp_le_clamp (Int.mul_le_mul_of_nonneg_right ?_ hword.le)
  exact I256.clamp_le_clamp (by omega)

namespace L1PricingState

/-- The new price grows with the old price and with the change. -/
theorem applyPriceChange_le_applyPriceChange {price price' : U256} {change change' : I256}
    (hprice : price ≤ price') (hchange : change.toInt ≤ change'.toInt) :
    applyPriceChange price change ≤ applyPriceChange price' change' := by
  rw [BitVec.le_def] at hprice ⊢
  by_cases hsign : 0 ≤ change.toInt
  · have hsign' : 0 ≤ change'.toInt := hsign.trans hchange
    have hword := I256.toNat_toU256 hsign
    have hword' := I256.toNat_toU256 hsign'
    simp only [applyPriceChange, if_pos hsign, if_pos hsign', toNat_saturatingAdd]
    omega
  · have hdown : (applyPriceChange price change).toNat ≤ price.toNat :=
      BitVec.le_def.mp (applyPriceChange_le (by omega))
    by_cases hsign' : 0 ≤ change'.toInt
    · have hup : price'.toNat ≤ (applyPriceChange price' change').toNat :=
        BitVec.le_def.mp (le_applyPriceChange hsign')
      omega
    · -- both changes are taken off, as magnitudes
      have hmagnitude := I256.toNat_toU256_wrappingNeg_le hchange (by omega)
      simp only [applyPriceChange, if_neg hsign, if_neg hsign', toNat_saturatingSub]
      omega

end L1PricingState

/-! ### The state of the price controller -/

/-- The scalars of the price controller. -/
structure PriceScalars where
  equilibrationUnits : U256
  inertia : U64
  pricePerUnit : U256
  lastSurplus : I256

namespace PriceScalars

/-- A higher price and a higher old surplus, with the same parameters. -/
structure Below (P Q : PriceScalars) : Prop where
  equilibrationUnits : P.equilibrationUnits = Q.equilibrationUnits
  inertia : P.inertia = Q.inertia
  pricePerUnit : P.pricePerUnit ≤ Q.pricePerUnit
  lastSurplus : P.lastSurplus.toInt ≤ Q.lastSurplus.toInt

instance : Preorder PriceScalars where
  le := Below
  le_refl P := ⟨rfl, rfl, BitVec.le_refl _, Int.le_refl _⟩
  le_trans P Q R h h' := ⟨h.1.trans h'.1, h.2.trans h'.2, BitVec.le_trans h.3 h'.3, h.4.trans h'.4⟩

/-- The adjustment at the end of an update from version 2 on. -/
def adjust (P : PriceScalars) (surplus : I256) (arbosVersion units : U64) : PriceScalars :=
  if 0 < units then
    { P with
        lastSurplus := L1Ledger.storedSurplus arbosVersion surplus
        pricePerUnit := L1PricingState.applyPriceChange P.pricePerUnit
          (priceChangeOf surplus P.lastSurplus P.equilibrationUnits P.inertia units) }
  else P

/-- The adjustment at the end of an update before version 2. -/
def legacyAdjust (P : PriceScalars) (surplus oldSurplus : I256) (units : U64) : PriceScalars :=
  if 0 < units then
    { P with
        pricePerUnit := L1PricingState.applyPriceChange P.pricePerUnit
          (legacyPriceChangeOf surplus oldSurplus P.equilibrationUnits P.inertia units) }
  else P

/-- A higher price and a higher old surplus give a higher price after the adjustment. The new old
surplus is that of the update for both. -/
theorem adjust_monotone (surplus : I256) (arbosVersion units : U64) :
    Monotone fun P : PriceScalars => P.adjust surplus arbosVersion units := by
  intro P Q h
  by_cases hunits : 0 < units
  · simp only [adjust, if_pos hunits]
    refine ⟨h.equilibrationUnits, h.inertia, ?_, Int.le_refl _⟩
    refine L1PricingState.applyPriceChange_le_applyPriceChange h.pricePerUnit ?_
    rw [h.equilibrationUnits, h.inertia]
    exact priceChangeOf_le (Int.le_refl _) h.lastSurplus hunits _ _
  · simp only [adjust, if_neg hunits]
    exact h

/-- The adjustment before version 2 does not read the stored surplus, so it keeps its order. -/
theorem legacyAdjust_monotone (surplus oldSurplus : I256) (units : U64) :
    Monotone fun P : PriceScalars => P.legacyAdjust surplus oldSurplus units := by
  intro P Q h
  by_cases hunits : 0 < units
  · simp only [legacyAdjust, if_pos hunits]
    refine ⟨h.equilibrationUnits, h.inertia, ?_, h.lastSurplus⟩
    refine L1PricingState.applyPriceChange_le_applyPriceChange h.pricePerUnit ?_
    rw [h.equilibrationUnits, h.inertia]
  · simp only [legacyAdjust, if_neg hunits]
    exact h

end PriceScalars

namespace L1Ledger

/-- The ledger with another state of the price controller. -/
def withPrice (L : L1Ledger) (P : PriceScalars) : L1Ledger :=
  { L with
      equilibrationUnits := P.equilibrationUnits
      inertia := P.inertia
      pricePerUnit := P.pricePerUnit
      lastSurplus := P.lastSurplus }

section
variable (L : L1Ledger) (P : PriceScalars)

/-- The surplus comes from the funds and the dues. -/
@[simp] theorem surplus_withPrice (f : Funding) : (L.withPrice P).surplus f = L.surplus f := by
  cases f <;> rfl

/-- A new poster is the same for all prices. -/
theorem register_withPrice (p : Address) :
    (L.withPrice P).register p = (L.register p).withPrice P := by
  unfold register
  by_cases hp : L.IsPoster p
  · rw [if_pos hp, if_pos (show (L.withPrice P).IsPoster p from hp)]
  · rw [if_neg hp, if_neg (show ¬(L.withPrice P).IsPoster p from hp)]
    rfl

/-- A payment is the same for all prices. -/
theorem pay_withPrice (f : Funding) (dst : Address) (amount : U256) :
    (L.withPrice P).pay f dst amount = (L.pay f dst amount).withPrice P := by
  cases f <;> rfl

/-- What an update adds to the dues is the same for all prices. -/
theorem account_withPrice (arbosVersion units : U64) (p : Address) (weiSpent l1Basefee : U256) :
    (L.withPrice P).account arbosVersion units p weiSpent l1Basefee
      = (L.account arbosVersion units p weiSpent l1Basefee).withPrice P := rfl

/-- The payment of the rewards is the same for all prices, also when it is refused. -/
theorem payRewards_withPrice (f : Funding) (units : U64) :
    (L.withPrice P).payRewards f units
      = ((L.payRewards f units).1, (L.payRewards f units).2.withPrice P) := by
  have hamount : (L.withPrice P).rewardPayment f units = L.rewardPayment f units := by
    cases f <;> rfl
  have hdebit : (L.withPrice P).debitRewards (L.rewardPayment f units)
      = (L.debitRewards (L.rewardPayment f units)).withPrice P := rfl
  have hrefusal : ∀ K : L1Ledger, (K.withPrice P).refusal = K.refusal := fun _ => rfl
  have hpayRewardsTo : ∀ K : L1Ledger, (K.withPrice P).payRewardsTo = K.payRewardsTo := fun _ => rfl
  simp only [payRewards, hamount, hdebit, hrefusal, hpayRewardsTo, pay_withPrice]
  split <;> rfl

/-- The end of an accepted payment to the poster is the same for all prices. -/
theorem settlePoster_withPrice (f : Funding) (p : Address) (amount : U256) :
    (L.withPrice P).settlePoster f p amount = (L.settlePoster f p amount).withPrice P := by
  unfold settlePoster
  split
  · rfl
  · rw [show (L.withPrice P).payTo = L.payTo from rfl, pay_withPrice]
    rfl

/-- The payment to the poster is the same for all prices, also when it is refused. -/
theorem payPoster_withPrice (f : Funding) (p : Address) :
    (L.withPrice P).payPoster f p
      = ((L.payPoster f p).1, (L.payPoster f p).2.withPrice P) := by
  have hamount : (L.withPrice P).posterPayment f p = L.posterPayment f p := by
    cases f <;> rfl
  have hrefusal : (L.withPrice P).refusal = L.refusal := rfl
  have hpayTo : (L.withPrice P).payTo = L.payTo := rfl
  simp only [payPoster, hamount, hrefusal, hpayTo, settlePoster_withPrice]
  split <;> rfl

/-- Only the end of an update reads the state of the price controller, to adjust it. -/
theorem finish_withPrice (f : Funding) (arbosVersion updateTime units : U64) :
    (L.withPrice P).finish f arbosVersion updateTime units
      = (L.finish f arbosVersion updateTime units).withPrice
          (P.adjust (L.surplus f) arbosVersion units) := by
  have htime : ({ L.withPrice P with lastUpdateTime := updateTime } : L1Ledger)
      = ({ L with lastUpdateTime := updateTime } : L1Ledger).withPrice P := rfl
  have hsurplus : ({ L with lastUpdateTime := updateTime } : L1Ledger).surplus f = L.surplus f := by
    cases f <;> rfl
  unfold finish adjustPrice PriceScalars.adjust
  rw [htime, surplus_withPrice, hsurplus]
  split <;> rfl

/-! ### Updates -/

/-- The operation gives one result and one ledger for every state of the price controller, and
it changes that state by a monotone function. -/
def CarriesPrice {ρ : Type} (op : L1Ledger → ρ × L1Ledger) : Prop :=
  ∃ (r : ρ) (K : L1Ledger) (g : PriceScalars → PriceScalars), Monotone g
    ∧ ∀ P, op (L.withPrice P) = (r, K.withPrice (g P))

variable {L} in
/-- An operation that leaves the price controller alone. -/
theorem carriesPrice_of_keeps {ρ : Type} {op : L1Ledger → ρ × L1Ledger} {r : ρ} {K : L1Ledger}
    (h : ∀ P, op (L.withPrice P) = (r, K.withPrice P)) : L.CarriesPrice op :=
  ⟨r, K, id, monotone_id, h⟩

/-- An operation that the price controller has no part in. -/
theorem carriesPrice_of_comm {ρ : Type} {op : L1Ledger → ρ × L1Ledger}
    (h : ∀ P, op (L.withPrice P) = ((op L).1, (op L).2.withPrice P)) : L.CarriesPrice op :=
  carriesPrice_of_keeps h

/-- The second half of an update. A refused payment ends it before the price is read. -/
theorem settle_carriesPrice (f : Funding) (arbosVersion updateTime units : U64) (p : Address) :
    L.CarriesPrice fun L => L.settle f arbosVersion updateTime units p := by
  rcases hrewards : L.payRewards f units with ⟨_ | e, L₁⟩
  · rcases hposter : L₁.payPoster f p with ⟨_ | e, L₂⟩
    · refine ⟨.ok (), L₂.finish f arbosVersion updateTime units, _,
        PriceScalars.adjust_monotone (L₂.surplus f) arbosVersion units, fun P => ?_⟩
      simp only [settle, payRewards_withPrice, payPoster_withPrice, hrewards, hposter,
        finish_withPrice]
    · refine carriesPrice_of_keeps (r := .panic (f.posterRefused ++ e.debug)) (K := L₂) fun P => ?_
      simp only [settle, payRewards_withPrice, payPoster_withPrice, hrewards, hposter]
  · refine carriesPrice_of_keeps (r := .panic (f.rewardsRefused ++ e.debug)) (K := L₁) fun P => ?_
    simp only [settle, payRewards_withPrice, hrewards]

/-- The update from version 2 on, also when it panics or rejects its times. -/
theorem spend_carriesPrice (f : Funding) (arbosVersion updateTime currentTime : U64) (p : Address)
    (weiSpent l1Basefee : U256) :
    L.CarriesPrice fun L => L.spend f arbosVersion updateTime currentTime p weiSpent l1Basefee := by
  by_cases hfull : ¬L.IsPoster p ∧ L.count = BitVec.allOnes 64
  · refine carriesPrice_of_keeps (r := .panic "attempt to add with overflow") (K := L.enroll p)
      fun P => ?_
    have hfull' : ¬(L.withPrice P).IsPoster p ∧ (L.withPrice P).count = BitVec.allOnes 64 := hfull
    simp only [spend, if_pos hfull']
    rfl
  have hfull' (P : PriceScalars) :
      ¬(¬(L.withPrice P).IsPoster p ∧ (L.withPrice P).count = BitVec.allOnes 64) := hfull
  by_cases htime : (L.register p).TimeOk updateTime currentTime
  · obtain ⟨r, K, g, hg, hsettle⟩ := settle_carriesPrice
      ((L.register p).account arbosVersion ((L.register p).allocated updateTime currentTime) p
        weiSpent l1Basefee) f arbosVersion updateTime
      ((L.register p).allocated updateTime currentTime) p
    refine ⟨r, K, g, hg, fun P => ?_⟩
    have htime' : ¬¬((L.register p).withPrice P).TimeOk updateTime currentTime := not_not.mpr htime
    simp only [spend, if_neg (hfull' P), register_withPrice, if_neg htime', account_withPrice]
    exact hsettle P
  · refine carriesPrice_of_keeps (r := .err .invalidTime) (K := L.register p) fun P => ?_
    have htime' : ¬((L.register p).withPrice P).TimeOk updateTime currentTime := htime
    simp only [spend, if_neg (hfull' P), register_withPrice, if_pos htime']

/-- The last step of an update before version 2 reads the price, to adjust it. -/
theorem legacyAdjustPrice_withPrice (oldSurplus : I256) (units : U64) :
    (L.withPrice P).legacyAdjustPrice oldSurplus units
      = (L.legacyAdjustPrice oldSurplus units).withPrice
          (P.legacyAdjust (L.surplus .pool) oldSurplus units) := by
  unfold legacyAdjustPrice PriceScalars.legacyAdjust
  rw [surplus_withPrice]
  split <;> rfl

variable [Keccak]

/-- The loop over the posters is the same for all prices, by induction on the list. -/
theorem settleAll_withPrice (posters : List Address) (availableFunds : U256) :
    settleAll posters availableFunds (L.withPrice P)
      = ((settleAll posters availableFunds L).1,
          (settleAll posters availableFunds L).2.withPrice P) := by
  induction posters generalizing availableFunds L with
  | nil => rfl
  | cons p posters ih =>
      have hposter : (L.withPrice P).IsPoster p ↔ L.IsPoster p := Iff.rfl
      have hamount : (L.withPrice P).legacyPayment = L.legacyPayment := rfl
      have hrefusal : (L.withPrice P).refusal = L.refusal := rfl
      have hpayTo : (L.withPrice P).payTo = L.payTo := rfl
      have hsettle : ∀ amount, (L.withPrice P).legacySettle p amount
          = (L.legacySettle p amount).withPrice P := by
        intro amount
        unfold legacySettle
        rw [hpayTo, pay_withPrice]
        rfl
      simp only [settleAll, hposter, hamount, hrefusal, hpayTo, hsettle, ih]
      split
      · rfl
      · split
        · rfl
        · split <;> rfl

/-- The payments before version 2 and the adjustment after them. -/
theorem legacyPayAll_carriesPrice (updateTime units : U64) (availableFunds : U256)
    (oldSurplus : I256) :
    L.CarriesPrice fun L => L.legacyPayAll updateTime units availableFunds oldSurplus := by
  let payment := L.legacyReward availableFunds units
  let L₁ := L.debitRewards payment
  have hpayment (P : PriceScalars) : (L.withPrice P).legacyReward availableFunds units = payment :=
    rfl
  have hdebit (P : PriceScalars) : (L.withPrice P).debitRewards payment = L₁.withPrice P := rfl
  have hpayTo (P : PriceScalars) : (L₁.withPrice P).payRewardsTo = L₁.payRewardsTo := rfl
  have hlist (P : PriceScalars) : (L₁.withPrice P).posterList = L₁.posterList := rfl
  have hrefusal (P : PriceScalars) : (L₁.withPrice P).refusal = L₁.refusal := rfl
  cases hrefused : L₁.refusal L₁.payRewardsTo payment with
  | some e =>
      refine carriesPrice_of_keeps
        (r := .panic ("pre_version2: rewards transfer failed: " ++ e.debug))
        (K := L₁.transferred L₁.payRewardsTo payment) fun P => ?_
      simp only [legacyPayAll, hpayment, hdebit, hpayTo, hrefusal, hrefused]
      rfl
  | none =>
      rcases hall : settleAll L₁.posterList (availableFunds - payment)
        (L₁.pay .pool L₁.payRewardsTo payment) with ⟨r, L₂⟩
      cases r with
      | ok u =>
          refine ⟨.ok (),
            { L₂ with lastUpdateTime := updateTime }.legacyAdjustPrice oldSurplus units, _,
            PriceScalars.legacyAdjust_monotone (L₂.surplus .pool) oldSurplus units, fun P => ?_⟩
          simp only [legacyPayAll, hpayment, hdebit, hpayTo, hrefusal, hrefused, hlist,
            pay_withPrice, settleAll_withPrice, hall]
          exact congrArg (Prod.mk _) (legacyAdjustPrice_withPrice
            { L₂ with lastUpdateTime := updateTime } P oldSurplus units)
      | err e =>
          refine carriesPrice_of_keeps (r := .err e) (K := L₂) fun P => ?_
          simp only [legacyPayAll, hpayment, hdebit, hpayTo, hrefusal, hrefused, hlist,
            pay_withPrice, settleAll_withPrice, hall]
      | panic m =>
          refine carriesPrice_of_keeps (r := .panic m) (K := L₂) fun P => ?_
          simp only [legacyPayAll, hpayment, hdebit, hpayTo, hrefusal, hrefused, hlist,
            pay_withPrice, settleAll_withPrice, hall]

/-- The update before version 2, also when it panics or rejects its times. -/
theorem legacySpend_carriesPrice (updateTime currentTime : U64) (p : Address) (weiSpent : U256) :
    L.CarriesPrice fun L => L.legacySpend updateTime currentTime p weiSpent := by
  by_cases hfull : ¬L.IsPoster p ∧ L.count = BitVec.allOnes 64
  · refine carriesPrice_of_keeps (r := .panic "attempt to add with overflow") (K := L.enroll p)
      fun P => ?_
    have hfull' : ¬(L.withPrice P).IsPoster p ∧ (L.withPrice P).count = BitVec.allOnes 64 := hfull
    simp only [legacySpend, if_pos hfull']
    rfl
  have hfull' (P : PriceScalars) :
      ¬(¬(L.withPrice P).IsPoster p ∧ (L.withPrice P).count = BitVec.allOnes 64) := hfull
  by_cases htime : (L.register p).LegacyTimeOk updateTime currentTime
  · obtain ⟨r, K, g, hg, hpay⟩ := legacyPayAll_carriesPrice
      ((L.register p).legacyAccount ((L.register p).legacyAllocated updateTime currentTime) p
        weiSpent) updateTime ((L.register p).legacyAllocated updateTime currentTime)
      ((L.register p).legacyFunds updateTime currentTime) ((L.register p).surplus .pool)
    refine ⟨r, K, g, hg, fun P => ?_⟩
    have htime' : ¬¬((L.register p).withPrice P).LegacyTimeOk updateTime currentTime :=
      not_not.mpr htime
    simp only [legacySpend, if_neg (hfull' P), register_withPrice, if_neg htime', surplus_withPrice]
    exact hpay P
  · refine carriesPrice_of_keeps (r := .ok ()) (K := L.register p) fun P => ?_
    have htime' : ¬((L.register p).withPrice P).LegacyTimeOk updateTime currentTime := htime
    simp only [legacySpend, if_neg (hfull' P), register_withPrice, if_pos htime']

/-- The update of every version, with the errors that its callers see. -/
theorem update_carriesPrice (arbosVersion updateTime currentTime : U64) (p : Address)
    (weiSpent l1Basefee : U256) :
    L.CarriesPrice fun L =>
      L.update arbosVersion updateTime currentTime p weiSpent l1Basefee := by
  by_cases htwo : arbosVersion < arbosVersion2
  · obtain ⟨r, K, g, hg, hspend⟩ := legacySpend_carriesPrice L updateTime currentTime p weiSpent
    cases r with
    | ok u =>
        refine ⟨.ok (), K, g, hg, fun P => ?_⟩
        simp only [update, if_pos htwo, hspend]
    | err e =>
        refine ⟨.err (.db e), K, g, hg, fun P => ?_⟩
        simp only [update, if_pos htwo, hspend]
    | panic m =>
        refine ⟨.panic m, K, g, hg, fun P => ?_⟩
        simp only [update, if_pos htwo, hspend]
  · obtain ⟨r, K, g, hg, hspend⟩ := spend_carriesPrice L (.ofVersion arbosVersion) arbosVersion
      updateTime currentTime p weiSpent l1Basefee
    refine ⟨r, K, g, hg, fun P => ?_⟩
    simp only [update, if_neg htwo, hspend]

end

end L1Ledger

/-! ### Calls -/

/-- A call that asks for a scalar of the price controller. -/
def L1Call.AsksForPrice : L1Call → Prop
  | .query .equilibrationUnits | .query .inertia | .query .pricePerUnit | .query .lastSurplus =>
      True
  | _ => False

instance : (c : L1Call) → Decidable c.AsksForPrice
  | .query q => by
      cases q <;> unfold L1Call.AsksForPrice <;> infer_instance
  | .set _ | .addToUnitsSinceUpdate _ | .addToL1FeesAvailable _
  | .transferFromL1FeesAvailable _ _ | .addPoster _ _ | .openPoster _ _ | .setFundsDue _ _
  | .setPayTo _ _ | .updateForBatchPosterSpending _ _ _ _ _ _ | .payment _ _ _ =>
      inferInstanceAs (Decidable False)

namespace L1Ledger
variable (version : U64) (L : L1Ledger)

/-- A query that does not ask for the price controller has one answer for all prices. -/
theorem answer_withPrice {q : L1Query} (hq : ¬(L1Call.query q).AsksForPrice) (P : PriceScalars) :
    q.answer version (L.withPrice P) = q.answer version L := by
  cases q with
  | equilibrationUnits | inertia | pricePerUnit | lastSurplus => exact absurd trivial hq
  | getL1PricingSurplus =>
      show Outcome.ok (Reply.bigInt ((L.withPrice P).surplus .counter)) = _
      rw [surplus_withPrice]
      rfl
  | _ => rfl

/-- A setter of the price controller overwrites one of its scalars. The others leave it
alone. -/
theorem set_carriesPrice (s : L1Setter) : L.CarriesPrice (s.apply version) := by
  cases s with
  | equilibrationUnits v =>
      exact ⟨.ok (), L, fun P => { P with equilibrationUnits := v },
        fun P Q h => ⟨rfl, h.inertia, h.pricePerUnit, h.lastSurplus⟩, fun P => rfl⟩
  | inertia v =>
      exact ⟨.ok (), L, fun P => { P with inertia := v },
        fun P Q h => ⟨h.equilibrationUnits, rfl, h.pricePerUnit, h.lastSurplus⟩, fun P => rfl⟩
  | pricePerUnit v =>
      exact ⟨.ok (), L, fun P => { P with pricePerUnit := v },
        fun P Q h => ⟨h.equilibrationUnits, h.inertia, BitVec.le_refl _, h.lastSurplus⟩,
        fun P => rfl⟩
  | lastSurplus v arbosVersion =>
      exact ⟨.ok (), L, fun P => { P with lastSurplus := storedSurplus arbosVersion v },
        fun P Q h => ⟨h.equilibrationUnits, h.inertia, h.pricePerUnit, Int.le_refl _⟩,
        fun P => rfl⟩
  | parentGasFloorPerToken floor =>
      by_cases hversion : arbosVersion50 ≤ version
      · refine carriesPrice_of_keeps (r := .ok ()) (K := { L with gasFloorPerToken := floor })
          fun P => ?_
        simp only [L1Setter.apply, if_pos hversion]
        rfl
      · refine carriesPrice_of_keeps
          (r := .panic "SetParentGasFloorPerToken requires ArbOS v50+") (K := L) fun P => ?_
        simp only [L1Setter.apply, if_neg hversion]
  | _ => exact carriesPrice_of_comm _ fun P => rfl

variable {version L} in
/-- A change of the result. -/
theorem CarriesPrice.mapResult {ρ τ : Type} {op : L1Ledger → ρ × L1Ledger} (h : L.CarriesPrice op)
    (φ : ρ → τ) : L.CarriesPrice fun L => (φ (op L).1, (op L).2) := by
  obtain ⟨r, K, g, hg, hop⟩ := h
  exact ⟨φ r, K, g, hg, fun P => by simp only [hop]⟩

/-- A choice that the price controller has no part in. -/
theorem CarriesPrice.ite {ρ : Type} {op op' : L1Ledger → ρ × L1Ledger} {C : L1Ledger → Prop}
    [DecidablePred C] (hC : ∀ P, C (L.withPrice P) ↔ C L) (h : C L → L.CarriesPrice op)
    (h' : ¬C L → L.CarriesPrice op') : L.CarriesPrice fun L => if C L then op L else op' L := by
  by_cases hc : C L
  · obtain ⟨r, K, g, hg, hop⟩ := h hc
    refine ⟨r, K, g, hg, fun P => ?_⟩
    simp only [if_pos ((hC P).mpr hc)]
    exact hop P
  · obtain ⟨r, K, g, hg, hop⟩ := h' hc
    refine ⟨r, K, g, hg, fun P => ?_⟩
    simp only [if_neg fun hP => hc ((hC P).mp hP)]
    exact hop P

/-- The payment out of the fees, also when it is refused or the counter is too small. -/
theorem transferOut_carriesPrice (recipient : Address) (amount : U256) :
    L.CarriesPrice fun L => L1Call.transferOut L recipient amount := by
  have hrefusal (P : PriceScalars) :
      (L.withPrice P).refusal recipient amount = L.refusal recipient amount := rfl
  cases h : L.refusal recipient amount with
  | some e =>
      refine carriesPrice_of_keeps (K := L.transferred recipient amount) (r := .panic
        ("transfer_from_l1_fees_available: EVM balance transfer failed: " ++ e.debug)) fun P => ?_
      simp only [L1Call.transferOut, hrefusal, h]
      rfl
  | none =>
      have hfees (P : PriceScalars) : (L.withPrice P).l1FeesAvailable = L.l1FeesAvailable := rfl
      by_cases hle : amount ≤ L.l1FeesAvailable
      · refine carriesPrice_of_keeps (r := .ok (.bigUint (L.l1FeesAvailable - amount)))
          (K := L.pay .counter recipient amount) fun P => ?_
        simp only [L1Call.transferOut, hrefusal, h, hfees, if_pos hle, pay_withPrice]
      · refine carriesPrice_of_keeps (K := L.pay .pool recipient amount) (r := .panic
          ("transfer_from_l1_fees_available: stored l1FeesAvailable inconsistent with "
            ++ "EVM balance")) fun P => ?_
        simp only [L1Call.transferOut, hrefusal, h, hfees, if_neg hle, pay_withPrice]

/-- The addition of an account, also to a full set. -/
theorem insertNew_carriesPrice (p q : Address) :
    L.CarriesPrice fun L => L1Call.insertNew L p q :=
  CarriesPrice.ite (C := fun L => L.count = BitVec.allOnes 64) L (fun _ => Iff.rfl)
    (fun _ => carriesPrice_of_comm L fun _ => rfl)
    fun _ => carriesPrice_of_comm L fun _ => rfl

/-- A payment of the EVM. -/
theorem payment_carriesPrice (src dst : Address) (amount : U256) :
    L.CarriesPrice fun L =>
      ((.ok (.flag (transferRefusal L.balance src dst amount).isNone) : Outcome CallError Reply),
        L1Call.pay L src dst amount) :=
  carriesPrice_of_comm L fun _ => rfl

variable [Keccak]

/-- Each call that does not ask for a scalar of the price controller. -/
theorem call_carriesPrice {c : L1Call} (hc : ¬c.AsksForPrice) :
    L.CarriesPrice (c.apply version) := by
  cases c with
  | query q =>
      refine carriesPrice_of_keeps (r := q.answer version L) (K := L) fun P => ?_
      exact congrArg (·, L.withPrice P) (answer_withPrice version L hc P)
  | set s =>
      exact (set_carriesPrice version L s).mapResult fun r => (r.mapErr CallError.db).map fun _ =>
        Reply.done
  | addToUnitsSinceUpdate units | addToL1FeesAvailable delta =>
      exact carriesPrice_of_comm _ fun P => rfl
  | transferFromL1FeesAvailable recipient amount =>
      exact transferOut_carriesPrice L recipient amount
  | addPoster p q =>
      exact CarriesPrice.ite (C := fun L => L.IsPoster p) L (fun _ => Iff.rfl)
        (fun _ => carriesPrice_of_comm L fun _ => rfl)
        fun _ => insertNew_carriesPrice L p q
  | openPoster p create =>
      refine CarriesPrice.ite (C := fun L => L.IsPoster p) L (fun _ => Iff.rfl)
        (fun _ => carriesPrice_of_comm L fun _ => rfl) fun _ => ?_
      exact CarriesPrice.ite (C := fun _ => create = true) L (fun _ => Iff.rfl)
        (fun _ => insertNew_carriesPrice L p p)
        fun _ => carriesPrice_of_comm L fun _ => rfl
  | setFundsDue p val | setPayTo p addr => exact carriesPrice_of_comm _ fun P => rfl
  | updateForBatchPosterSpending v updateTime currentTime p weiSpent l1Basefee =>
      exact (update_carriesPrice L v updateTime currentTime p weiSpent l1Basefee).mapResult
        fun r => (r.mapErr CallError.ofUpdate).map fun _ => Reply.done
  | payment src dst amount => exact payment_carriesPrice L src dst amount

/-- By induction on the calls: the changes of the price controller compose. -/
theorem specOps_carriesPrice {calls : List L1Call} (hcalls : ∀ c ∈ calls, ¬c.AsksForPrice) :
    L.CarriesPrice (specOps (L1Call.apply version) calls) := by
  induction calls generalizing L with
  | nil => exact carriesPrice_of_comm _ fun P => rfl
  | cons c calls ih =>
      obtain ⟨r, K, g, hg, hc⟩ := call_carriesPrice version L (hcalls c (by simp))
      obtain ⟨results, K', g', hg', hrest⟩ := ih K fun c' hc' => hcalls c' (by simp [hc'])
      refine ⟨r :: results, K', g' ∘ g, hg'.comp hg, fun P => ?_⟩
      simp only [specOps, hc P, hrest (g P), Function.comp]

end L1Ledger

namespace L1Pricing
variable [Keccak] {sto : Storage} {A : Set Address}

omit [Keccak] in
/-- The new price is monotone. For all words, also where an operation saturates or a divisor is
zero, it rises with the old price and the old surplus, and falls with the surplus. -/
theorem price_monotone {price price' : U256} {surplus surplus' oldSurplus oldSurplus' : I256}
    {units : U64} (hprice : price ≤ price') (hsurplus : surplus'.toInt ≤ surplus.toInt)
    (hold : oldSurplus.toInt ≤ oldSurplus'.toInt) (hunits : 0 < units) (equilUnits : U256)
    (inertia : U64) :
    ∃ change change' : I256,
      (L1PricingState.priceChange surplus oldSurplus equilUnits inertia units : Exec DbError I256)
        = pure change
      ∧ (L1PricingState.priceChange surplus' oldSurplus' equilUnits inertia units
          : Exec DbError I256) = pure change'
      ∧ L1PricingState.applyPriceChange price change
          ≤ L1PricingState.applyPriceChange price' change' := by
  refine ⟨_, _, priceChange_eq surplus oldSurplus equilUnits inertia hunits,
    priceChange_eq surplus' oldSurplus' equilUnits inertia hunits, ?_⟩
  exact L1PricingState.applyPriceChange_le_applyPriceChange hprice
    (priceChangeOf_le hsurplus hold hunits equilUnits inertia)

omit [Keccak] in
/-- At the extreme surpluses, where a difference and a negation are clamped, and with no divisor
but the units. -/
theorem price_monotone_extreme :
    let least := I256.fromRaw (BitVec.intMin 256)
    let most := I256.fromRaw (BitVec.intMax 256)
    ∃ change change' : I256,
      (L1PricingState.priceChange most least 0 0 1 : Exec DbError I256) = pure change
      ∧ (L1PricingState.priceChange least most 0 0 1 : Exec DbError I256) = pure change'
      ∧ L1PricingState.applyPriceChange 0 change ≤ L1PricingState.applyPriceChange 1 change' :=
  price_monotone (by decide) (by decide +kernel) (by decide +kernel) (by decide) 0 0

/-- Nothing follows the price. Two stores that differ in the price controller give the same
results in every sequence of calls that do not ask for it, and differ in the price controller
only in the end. When one of them starts with the higher price and old surplus, it ends
so. `A` holds the posters of the stores and the accounts whose records the calls write. -/
theorem price_isolated (hslots : (layout sto).Apart (L1Key.Among A)) (version : U64)
    {calls : List L1Call} (hamong : ∀ c ∈ calls, c.Among A)
    (hcalls : ∀ c ∈ calls, ¬c.AsksForPrice) {w w' : World} {L : L1Ledger}
    {P Q : PriceScalars} (hR : Represents sto A w (L.withPrice P))
    (hR' : Represents sto A w' (L.withPrice Q)) :
    let run := runOps World.handle (L1Call.program (openL1PricingState sto version)) calls
    (run w).1 = (run w').1
      ∧ ∃ (K : L1Ledger) (P' Q' : PriceScalars), Represents sto A (run w).2 (K.withPrice P')
        ∧ Represents sto A (run w').2 (K.withPrice Q') ∧ (P ≤ Q → P' ≤ Q') := by
  intro run
  obtain ⟨results, K, g, hg, hspec⟩ := L1Ledger.specOps_carriesPrice version L hcalls
  have hrun : ∀ {v : World} {S : PriceScalars}, Represents sto A v (L.withPrice S) →
      (run v).1 = results ∧ Represents sto A (run v).2 (K.withPrice (g S)) := by
    intro v S hS
    have hcall := runOps_realizes (fun L c hc => call_realizes hslots version L hc) calls v _ hS
      (admissibleOps_of_forall hamong _)
    rw [hspec S] at hcall
    exact hcall
  exact ⟨(hrun hR).1.trans (hrun hR').1.symm, K, g P, g Q, (hrun hR).2, (hrun hR').2,
    fun h => hg h⟩

end L1Pricing

namespace L1Pricing
attribute [local instance] sampleHash

/-- The scalars of the price controller after the initialization with a base fee. -/
def initialPrice (baseFee : U256) : PriceScalars :=
  ⟨U256.ofU64 initialEquilibrationUnitsV0, initialInertia, baseFee, I256.zero⟩

/-- Two stores with different old prices, under the same calls. -/
theorem price_isolated_sample :
    let start (fee : U256) :=
      (World.run (initializeL1PricingState sampleRoot 9 fee) sampleStart).2
    let run := runOps World.handle (L1Call.program (openL1PricingState sampleRoot 10))
      [.addToL1FeesAvailable 100, .addToUnitsSinceUpdate 4,
        .updateForBatchPosterSpending 10 5 6 7 4 0]
    (run (start 1)).1 = (run (start 2)).1
      ∧ ∃ (K : L1Ledger) (P' Q' : PriceScalars),
        Represents sampleRoot Set.univ (run (start 1)).2 (K.withPrice P')
        ∧ Represents sampleRoot Set.univ (run (start 2)).2 (K.withPrice Q')
        ∧ (initialPrice 1 ≤ initialPrice 2 → P' ≤ Q') := by
  intro start run
  have hstart : ∀ fee : U256, Represents sampleRoot Set.univ (start fee)
      ((L1Ledger.initial sampleStart.balance 9 1).withPrice (initialPrice fee)) := by
    intro fee
    obtain ⟨w, hrun, hR⟩ := initialize_realizes sampleRoot_layout_apart (Set.mem_univ _)
      sampleStart.balance 9 fee sampleStart (represents_fresh rfl fun _ => rfl)
    have hw : start fee = w := congrArg Prod.snd hrun
    rw [hw]
    exact hR
  exact price_isolated sampleRoot_layout_apart 10 (by simp [L1Call.Among]) (by decide) (hstart 1)
    (hstart 2)

end L1Pricing

end ArbReth
