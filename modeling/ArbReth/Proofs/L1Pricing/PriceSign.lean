import ArbReth.Proofs.L1Pricing.Price

/-!
# `ArbReth.Proofs.L1Pricing.PriceSign`: the direction of the price adjustment

A surplus that is not negative and has not fallen never raises the price. A surplus that is
not positive and has not risen never lowers it. No range is assumed. The saturating
operations keep the sign of the exact result, and every divisor comes from an unsigned word,
so that a quotient keeps the sign of its dividend.

`priceChangeOf_nonpos` and `priceChangeOf_nonneg` follow the sign from the surplus to the
change. `price_sign` states the result for the computation alone, for all words, and for
whole updates from version 2 on.
-/

set_option autoImplicit false

namespace ArbReth

open ArbReth.Program

namespace I256
variable {i : Int} {x y : I256}

/-! ### Signs -/

/-- Clamping keeps the sign of a number that is not negative. -/
theorem clamp_nonneg (h : 0 ≤ i) : 0 ≤ (clamp i).toInt := by
  rw [toInt_clamp]
  omega

/-- Clamping keeps the sign of a number that is not positive. -/
theorem clamp_nonpos (h : i ≤ 0) : (clamp i).toInt ≤ 0 := by
  rw [toInt_clamp]
  omega

/-- The conversion of a word is not negative, since it saturates. -/
theorem ofU256_nonneg (x : U256) : 0 ≤ (ofU256 x).toInt := by
  rw [toInt_ofU256]
  omega

/-- A word that is not zero is positive. -/
theorem ofU256_pos {x : U256} (h : (ofU256 x).isZero = false) : 0 < (ofU256 x).toInt := by
  have hnonneg := ofU256_nonneg x
  have hne : (ofU256 x).toInt ≠ 0 := by simpa [isZero] using h
  omega

/-- A positive number of units stays positive. -/
theorem ofU256_ofU64_pos {units : U64} (h : 0 < units) :
    0 < (ofU256 (U256.ofU64 units)).toInt := by
  have hpos : 0 < units.toNat := BitVec.lt_def.mp h
  rw [toInt_ofU256_ofU64]
  omega

/-- A quotient by a positive number keeps the sign of a dividend that is not negative. -/
theorem wrappingQuot_nonneg (hx : 0 ≤ x.toInt) (hy : 0 < y.toInt) :
    0 ≤ (x.wrappingQuot y).toInt := by
  rw [toInt_wrappingQuot x hy]
  exact Int.tdiv_nonneg hx hy.le

/-- A quotient by a positive number keeps the sign of a dividend that is not positive. -/
theorem wrappingQuot_nonpos (hx : x.toInt ≤ 0) (hy : 0 < y.toInt) :
    (x.wrappingQuot y).toInt ≤ 0 := by
  have hquot : 0 ≤ -x.toInt / y.toInt := Int.ediv_nonneg (by omega) hy.le
  rw [toInt_wrappingQuot x hy, Rounding.tdiv_eq_neg_ediv hx]
  omega

/-- A quotient that is zero for a zero divisor. -/
theorem guardedQuot_nonneg (hx : 0 ≤ x.toInt) (divisor : U256) :
    0 ≤ (if (ofU256 divisor).isZero then zero else x.wrappingQuot (ofU256 divisor)).toInt := by
  split
  · exact Int.le_refl 0
  · rename_i hne
    exact wrappingQuot_nonneg hx (ofU256_pos (Bool.eq_false_of_not_eq_true hne))

/-- The guard against a zero divisor gives zero, which is not positive. -/
theorem guardedQuot_nonpos (hx : x.toInt ≤ 0) (divisor : U256) :
    (if (ofU256 divisor).isZero then zero else x.wrappingQuot (ofU256 divisor)).toInt ≤ 0 := by
  split
  · exact Int.le_refl 0
  · rename_i hne
    exact wrappingQuot_nonpos hx (ofU256_pos (Bool.eq_false_of_not_eq_true hne))

end I256

/-! ### The change -/

section Change
variable {surplus oldSurplus : I256} {units : U64}

/-- A surplus that is not negative and has not fallen. -/
theorem priceChangeOf_nonpos (hsign : 0 ≤ surplus.toInt)
    (hrise : oldSurplus.toInt ≤ surplus.toInt) (hunits : 0 < units) (equilUnits : U256)
    (inertia : U64) : (priceChangeOf surplus oldSurplus equilUnits inertia units).toInt ≤ 0 := by
  have hword := I256.ofU256_ofU64_pos hunits
  have hneg : surplus.saturatingNeg.toInt ≤ 0 := I256.clamp_nonpos (by omega)
  have hdiff : 0 ≤ (surplus.saturatingSub oldSurplus).toInt := I256.clamp_nonneg (by omega)
  have hdesired := I256.guardedQuot_nonpos hneg equilUnits
  have hactual := I256.wrappingQuot_nonneg hdiff hword
  -- The divisor may have wrapped. It is not negative, and zero is tested for.
  refine I256.guardedQuot_nonpos (I256.clamp_nonpos ?_) _
  exact Int.mul_nonpos_of_nonpos_of_nonneg
    (I256.clamp_nonpos (Int.sub_nonpos_of_le (hdesired.trans hactual))) hword.le

/-- A surplus that is not positive and has not risen. -/
theorem priceChangeOf_nonneg (hsign : surplus.toInt ≤ 0)
    (hfall : surplus.toInt ≤ oldSurplus.toInt) (hunits : 0 < units) (equilUnits : U256)
    (inertia : U64) : 0 ≤ (priceChangeOf surplus oldSurplus equilUnits inertia units).toInt := by
  have hword := I256.ofU256_ofU64_pos hunits
  have hneg : 0 ≤ surplus.saturatingNeg.toInt := I256.clamp_nonneg (by omega)
  have hdiff : (surplus.saturatingSub oldSurplus).toInt ≤ 0 := I256.clamp_nonpos (by omega)
  have hdesired := I256.guardedQuot_nonneg hneg equilUnits
  have hactual := I256.wrappingQuot_nonpos hdiff hword
  refine I256.guardedQuot_nonneg (I256.clamp_nonneg ?_) _
  exact Int.mul_nonneg (I256.clamp_nonneg (Int.sub_nonneg_of_le (hactual.trans hdesired)))
    hword.le

end Change

/-! ### The price -/

namespace L1PricingState
variable {price : U256} {change : I256}

/-- A change that is not positive never raises the price, also when its negation wraps. -/
theorem applyPriceChange_le (h : change.toInt ≤ 0) : applyPriceChange price change ≤ price := by
  rw [applyPriceChange, BitVec.le_def]
  split
  · rename_i hsign
    have hzero := I256.toNat_toU256 hsign
    have hlt := price.isLt
    rw [toNat_saturatingAdd]
    omega
  · rw [toNat_saturatingSub]
    omega

/-- A change that is not negative does not lower the price. -/
theorem le_applyPriceChange (h : 0 ≤ change.toInt) : price ≤ applyPriceChange price change := by
  have hlt := price.isLt
  rw [applyPriceChange, if_pos h, BitVec.le_def, toNat_saturatingAdd]
  omega

end L1PricingState

namespace L1Ledger

/-- The price at the end of an update that takes some units, beside the surplus that is
left. -/
theorem finish_sign (L : L1Ledger) (f : Funding) (arbosVersion updateTime : U64) {units : U64}
    (hunits : 0 < units) :
    (0 ≤ (L.surplus f).toInt → L.lastSurplus.toInt ≤ (L.surplus f).toInt →
        (L.finish f arbosVersion updateTime units).pricePerUnit ≤ L.pricePerUnit)
      ∧ ((L.surplus f).toInt ≤ 0 → (L.surplus f).toInt ≤ L.lastSurplus.toInt →
        L.pricePerUnit ≤ (L.finish f arbosVersion updateTime units).pricePerUnit) := by
  have hsurplus : ({ L with lastUpdateTime := updateTime } : L1Ledger).surplus f = L.surplus f := by
    cases f <;> rfl
  rw [finish, adjustPrice, if_pos hunits, hsurplus]
  exact ⟨fun hsign hrise => L1PricingState.applyPriceChange_le
      (priceChangeOf_nonpos hsign hrise hunits _ _),
    fun hsign hfall => L1PricingState.le_applyPriceChange
      (priceChangeOf_nonneg hsign hfall hunits _ _)⟩

/-- The end of the update leaves the surplus as it is. -/
theorem finish_surplus (L : L1Ledger) (f g : Funding) (arbosVersion updateTime units : U64) :
    (L.finish f arbosVersion updateTime units).surplus g = L.surplus g := by
  obtain ⟨htable, hbalance, hfees, hrewards⟩ := finish_frame L f arbosVersion updateTime units
  have htotal := congrArg PosterTable.totalFundsDue htable
  cases g <;> simp only [surplus, funds, htotal, hbalance, hfees, hrewards]

end L1Ledger

namespace L1Pricing
variable [Keccak] {sto : Storage} {A : Set Address}

/-- The direction of the price. For all words and a positive number of units, the price
after the computed change moves with the sign of the surplus. A successful update from
version 2 on that takes some units writes such a price: the surplus is the one that it
leaves, and the old surplus and the old price are those before it. -/
theorem price_sign (hslots : (layout sto).Apart (L1Key.Among A)) {w : World} {L : L1Ledger}
    (hR : Represents sto A w L) (version : U64) {arbosVersion : U64}
    (htwo : arbosVersion2 ≤ arbosVersion) (updateTime currentTime : U64) {p : Address}
    (hp : p ∈ A) (weiSpent l1Basefee : U256)
    (hok : (World.run ((openL1PricingState sto version).updateForBatchPosterSpending arbosVersion
      updateTime currentTime p weiSpent l1Basefee) w).1 = .ok ())
    (hunits : 0 < L.allocated updateTime currentTime) :
    (∀ (price : U256) (surplus oldSurplus : I256) (equilUnits : U256) (inertia units : U64),
      0 < units → ∃ change : I256,
        (L1PricingState.priceChange surplus oldSurplus equilUnits inertia units
          : Exec DbError I256) = pure change
        ∧ (0 ≤ surplus.toInt → oldSurplus.toInt ≤ surplus.toInt →
          L1PricingState.applyPriceChange price change ≤ price)
        ∧ (surplus.toInt ≤ 0 → surplus.toInt ≤ oldSurplus.toInt →
          price ≤ L1PricingState.applyPriceChange price change)
        ∧ (L1PricingState.applyPriceChange price change).toNat ≤ 2 ^ 256 - 1)
    ∧ ∃ L' : L1Ledger,
      Represents sto A (World.run ((openL1PricingState sto version).updateForBatchPosterSpending
        arbosVersion updateTime currentTime p weiSpent l1Basefee) w).2 L'
      ∧ (0 ≤ (L'.surplus (.ofVersion arbosVersion)).toInt →
          L.lastSurplus.toInt ≤ (L'.surplus (.ofVersion arbosVersion)).toInt →
          L'.pricePerUnit ≤ L.pricePerUnit)
      ∧ ((L'.surplus (.ofVersion arbosVersion)).toInt ≤ 0 →
          (L'.surplus (.ofVersion arbosVersion)).toInt ≤ L.lastSurplus.toInt →
          L.pricePerUnit ≤ L'.pricePerUnit) := by
  constructor
  · intro price surplus oldSurplus equilUnits inertia units hpos
    exact ⟨_, priceChange_eq surplus oldSurplus equilUnits inertia hpos,
      fun hsign hrise => L1PricingState.applyPriceChange_le
        (priceChangeOf_nonpos hsign hrise hpos _ _),
      fun hsign hfall => L1PricingState.le_applyPriceChange
        (priceChangeOf_nonneg hsign hfall hpos _ _),
      Nat.le_pred_of_lt (BitVec.isLt _)⟩
  · obtain ⟨w', hrun, hR'⟩ := update_realizes hslots version L htwo updateTime currentTime hp
      weiSpent l1Basefee w hR
    have hrun' : World.run ((openL1PricingState sto version).updateForBatchPosterSpending
      arbosVersion updateTime currentTime p weiSpent l1Basefee) w = _ := hrun
    rw [hrun'] at hok ⊢
    rw [L1Ledger.spend_of_ok hok] at hR'
    -- nothing before the adjustment writes the price or the old surplus
    have hscalars := L1Ledger.settled_priceScalars L (.ofVersion arbosVersion) arbosVersion
      (L.allocated updateTime currentTime) p weiSpent l1Basefee
    simp only [L1Ledger.priceScalars, Prod.mk.injEq] at hscalars
    obtain ⟨hprice, hold, -, -⟩ := hscalars
    refine ⟨_, hR', ?_⟩
    rw [L1Ledger.finish_surplus, ← hprice, ← hold]
    exact L1Ledger.finish_sign _ _ _ _ hunits

end L1Pricing

namespace L1Pricing
attribute [local instance] sampleHash

/-- The update of the sample ledger at version 10, with a surplus of -4 in the end. -/
theorem price_sign_sample :
    ∃ L' : L1Ledger, Represents sampleRoot Set.univ (World.run ((openL1PricingState sampleRoot
        10).updateForBatchPosterSpending 10 5 5 7 64 0) sampleWorld).2 L'
      ∧ (0 ≤ (L'.surplus (.ofVersion 10)).toInt →
          sampleLedger.lastSurplus.toInt ≤ (L'.surplus (.ofVersion 10)).toInt →
          L'.pricePerUnit ≤ sampleLedger.pricePerUnit)
      ∧ ((L'.surplus (.ofVersion 10)).toInt ≤ 0 →
          (L'.surplus (.ofVersion 10)).toInt ≤ sampleLedger.lastSurplus.toInt →
          sampleLedger.pricePerUnit ≤ L'.pricePerUnit) :=
  (price_sign sampleRoot_layout_apart sampleWorld_represents 10 (by decide) 5 5
    (Set.mem_univ 7) 64 0 sampleUpdate_ok (by decide +kernel)).2

end L1Pricing

end ArbReth
