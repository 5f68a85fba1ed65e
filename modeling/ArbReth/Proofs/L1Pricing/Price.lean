import ArbReth.Proofs.L1Pricing.Initial
import ArbReth.Proofs.L1Pricing.Update
import ArbReth.Rounding

/-!
# `ArbReth.Proofs.L1Pricing.Price`: the price and the reference price

The reference quoted in the source adjusts the price with `big.Int.Div`, which is the
Euclidean quotient. The code uses `wrapping_div`, which truncates. The two agree on
every quotient of a non-negative dividend, and on exact quotients.

`PriceInputs` holds the exact integers that an adjustment starts from.
`referencePrice` is the price of the reference and `truncatedPrice` that of the code,
both over the integers. `PricesAgree` is the exact condition for the two to be equal.
`price_eq_reference_iff` says so of the price that a whole update writes, in all versions
from 2 on.
-/

set_option autoImplicit false

namespace ArbReth

open ArbReth.Program ArbReth.Rounding

/-- The exact inputs of a price adjustment. -/
structure PriceInputs where
  price : Int
  surplus : Int
  oldSurplus : Int
  equilUnits : Int
  inertia : Int
  units : Int
deriving DecidableEq

namespace PriceInputs

/-! ### The two prices -/

section
variable (i : PriceInputs)

/-- `allocPlusInert`. -/
def allocPlusInert : Int := i.equilUnits / i.inertia + i.units

/-- The desired derivative less the actual one, with Euclidean quotients. -/
def slope : Int :=
  -i.surplus / i.equilUnits - (i.surplus - i.oldSurplus) / i.units

/-- The price of the reference. -/
def referencePrice : Int := max 0 (i.price + i.slope * i.units / i.allocPlusInert)

/-- The desired derivative less the actual one, with truncated quotients. -/
def truncatedSlope : Int :=
  (-i.surplus).tdiv i.equilUnits - (i.surplus - i.oldSurplus).tdiv i.units

/-- The change of the price, with truncated quotients. -/
def truncatedChange : Int := (i.truncatedSlope * i.units).tdiv i.allocPlusInert

/-- The price of the code, when nothing saturates. -/
def truncatedPrice : Int := max 0 (i.price + i.truncatedChange)

/-! ### The condition -/

/-- How far truncation moves the slope: up by a desired derivative that is rounded up,
and down by such an actual derivative. -/
def slopeStep : Int :=
  excess (-i.surplus) i.equilUnits - excess (i.surplus - i.oldSurplus) i.units

/-- The remainder of the last quotient of the reference. -/
def changeRemainder : Int := i.slope * i.units % i.allocPlusInert

/-- The last quotient comes out the same. -/
def ChangesAgree : Prop :=
  (i.slopeStep = 0 ∧ (0 ≤ i.slope ∨ i.changeRemainder = 0))
    ∨ (i.slopeStep = 1 ∧ 0 ≤ i.slope ∧ i.changeRemainder + i.units < i.allocPlusInert)
    ∨ (i.slopeStep = -1 ∧ 1 ≤ i.slope ∧ i.units ≤ i.changeRemainder)
    ∨ (i.slopeStep = -1 ∧ i.slope ≤ 0 ∧ i.changeRemainder ≤ i.units
      ∧ (0 < i.changeRemainder ∨ i.units < i.allocPlusInert))

/-- Both prices come out as zero. -/
def BothZero : Prop :=
  i.slope * i.units < i.allocPlusInert - i.price * i.allocPlusInert
    ∧ ((i.slope + i.slopeStep) * i.units ≤ -(i.price * i.allocPlusInert)
      ∨ (i.price = 0 ∧ (i.slope + i.slopeStep) * i.units < i.allocPlusInert))

/-- The condition for the two prices to be equal. -/
def PricesAgree : Prop := i.ChangesAgree ∨ i.BothZero

instance : Decidable i.ChangesAgree := inferInstanceAs (Decidable (_ ∨ _ ∨ _ ∨ _))

instance : Decidable i.BothZero := inferInstanceAs (Decidable (_ ∧ _))

instance : Decidable i.PricesAgree := inferInstanceAs (Decidable (_ ∨ _))

/-- The divisors are positive and the price is not negative. -/
structure Valid : Prop where
  price : 0 ≤ i.price
  equilUnits : 0 < i.equilUnits
  inertia : 0 < i.inertia
  units : 0 < i.units

end

variable {i : PriceInputs}

/-- The divisor is at least the units, and so positive. -/
theorem Valid.units_le_allocPlusInert (h : i.Valid) : i.units ≤ i.allocPlusInert := by
  have hquot : 0 ≤ i.equilUnits / i.inertia := Int.ediv_nonneg h.equilUnits.le h.inertia.le
  rw [allocPlusInert]
  omega

/-- The truncated slope differs from the Euclidean one by `slopeStep`. -/
theorem Valid.truncatedSlope_eq (h : i.Valid) : i.truncatedSlope = i.slope + i.slopeStep := by
  rw [truncatedSlope, tdiv_eq_ediv_add_excess _ h.equilUnits, tdiv_eq_ediv_add_excess _ h.units,
    slope, slopeStep]
  ring

/-- A step is at most one. -/
theorem slopeStep_cases (i : PriceInputs) :
    i.slopeStep = 0 ∨ i.slopeStep = 1 ∨ i.slopeStep = -1 := by
  unfold slopeStep excess
  split <;> split <;> omega

/-- The changes of the price are equal exactly under `ChangesAgree`. -/
theorem Valid.changes_eq_iff (h : i.Valid) :
    i.truncatedChange = i.slope * i.units / i.allocPlusInert ↔ i.ChangesAgree := by
  have hu := h.units
  have hua := h.units_le_allocPlusInert
  have hone : (i.slope + 1) * i.units = i.slope * i.units + i.units := by ring
  have hminus : (i.slope + -1) * i.units = i.slope * i.units - i.units := by ring
  -- The sign of a dividend is the sign of the slope.
  have hsign : ∀ s : Int, 0 ≤ s * i.units ↔ 0 ≤ s := by
    intro s
    rw [Int.mul_nonneg_iff_of_pos_right hu]
  rw [truncatedChange, h.truncatedSlope_eq]
  unfold ChangesAgree changeRemainder
  rcases i.slopeStep_cases with hstep | hstep | hstep <;> rw [hstep]
  -- the slopes are equal, and only the last quotient can differ
  · rw [Int.add_zero, tdiv_eq_ediv_iff _ (by omega), hsign]
    omega
  · -- A slope of -1 leaves a remainder that the step lifts to the divisor.
    have hdown : i.slope = -1 →
        i.slope * i.units % i.allocPlusInert + i.units = i.allocPlusInert := by
      intro hslope
      have hshift : -1 * i.units = (i.allocPlusInert - i.units) + i.allocPlusInert * (-1) := by ring
      rw [hslope, hshift, Int.add_mul_emod_self_left, Int.emod_eq_of_lt (by omega) (by omega)]
      omega
    rw [hone, add_tdiv_eq_ediv_iff _ hu hua, ← hone, hsign]
    omega
  · have hneg : (i.slope + -1) * i.units < 0 ↔ i.slope + -1 < 0 := by
      rw [← not_le, hsign, not_le]
    rw [hminus, sub_tdiv_eq_ediv_iff _ hu hua, ← hminus, hsign, hneg]
    omega

/-- The prices are equal exactly under `PricesAgree`. -/
theorem Valid.prices_eq_iff (h : i.Valid) :
    i.truncatedPrice = i.referencePrice ↔ i.PricesAgree := by
  have hpos : 0 < i.allocPlusInert := lt_of_lt_of_le h.units h.units_le_allocPlusInert
  have hprice := h.price
  -- The lower bound at zero identifies all changes that take the whole price.
  have htruncated : i.price + i.truncatedChange ≤ 0
      ↔ (i.slope + i.slopeStep) * i.units ≤ -(i.price * i.allocPlusInert)
        ∨ (i.price = 0 ∧ (i.slope + i.slopeStep) * i.units < i.allocPlusInert) := by
    rw [← h.truncatedSlope_eq, truncatedChange]
    rcases eq_or_lt_of_le hprice with hzero | hprice
    · rw [← hzero, Int.zero_add, tdiv_le_zero_iff _ hpos, Int.zero_mul]
      omega
    · have hbound := tdiv_le_neg_iff (i.truncatedSlope * i.units) hpos hprice
      omega
  have hreference : i.price + i.slope * i.units / i.allocPlusInert ≤ 0
      ↔ i.slope * i.units < i.allocPlusInert - i.price * i.allocPlusInert := by
    have hquot := Int.ediv_le_iff_le_mul (k := i.allocPlusInert) (x := i.slope * i.units)
      (y := -i.price) hpos
    rw [Int.neg_mul] at hquot
    omega
  unfold PricesAgree BothZero truncatedPrice referencePrice
  rw [← h.changes_eq_iff, ← htruncated, ← hreference]
  omega

end PriceInputs

/-! ### The code -/

namespace I256

/-- A quotient by a positive divisor stays in range. -/
theorem inRange_tdiv {x y : Int} (hx : InRange x) (hy : 0 < y) : InRange (x.tdiv y) := by
  obtain ⟨hlow, hhigh⟩ := hx
  rcases le_or_gt 0 x with hsign | hsign
  · have hle := Int.tdiv_le_self y hsign
    have hnonneg := Int.tdiv_nonneg hsign hy.le
    exact ⟨by omega, by omega⟩
  · have hle : -x / y ≤ -x := Int.ediv_le_self _ (by omega)
    have hnonneg : 0 ≤ -x / y := Int.ediv_nonneg (by omega) hy.le
    rw [tdiv_eq_neg_ediv hsign.le]
    exact ⟨by omega, by omega⟩

/-- A number in range is its word. -/
theorem toInt_fromRaw_ofInt {n : Int} (h : InRange n) :
    (fromRaw (BitVec.ofInt 256 n)).toInt = n := by
  obtain ⟨hlow, hhigh⟩ := h
  show (BitVec.ofInt 256 n).toInt = n
  rw [BitVec.toInt_ofInt]
  exact Int.bmod_eq_of_le (by omega) (by omega)

/-- A quotient by a positive number truncates towards zero and does not wrap. -/
theorem toInt_wrappingQuot (x : I256) {y : I256} (hy : 0 < y.toInt) :
    (x.wrappingQuot y).toInt = x.toInt.tdiv y.toInt :=
  toInt_fromRaw_ofInt (inRange_tdiv x.inRange hy)

end I256

/-- A change that fits is added to the price, which does not fall below zero. -/
theorem L1PricingState.toNat_applyPriceChange_of_fits {price : U256} {change : I256}
    (hneg : I256.InRange (-change.toInt)) (hnew : (price.toNat : Int) + change.toInt < 2 ^ 256) :
    ((applyPriceChange price change).toNat : Int) = max 0 ((price.toNat : Int) + change.toInt) := by
  have hprice := price.isLt
  unfold applyPriceChange
  split
  · rename_i hsign
    have habs := I256.toNat_toU256 hsign
    rw [toNat_saturatingAdd]
    omega
  · rename_i hsign
    have hwrap : change.wrappingNeg.toInt = -change.toInt := I256.toInt_fromRaw_ofInt hneg
    have habs := I256.toNat_toU256 (x := change.wrappingNeg) (by omega)
    rw [toNat_saturatingSub]
    omega

namespace PriceInputs

/-- No exact result of the adjustment leaves the range of its type. -/
structure Fits (i : PriceInputs) : Prop where
  equilUnits : I256.InRange i.equilUnits
  allocPlusInert : I256.InRange i.allocPlusInert
  negSurplus : I256.InRange (-i.surplus)
  difference : I256.InRange (i.surplus - i.oldSurplus)
  slope : I256.InRange i.truncatedSlope
  product : I256.InRange (i.truncatedSlope * i.units)
  negChange : I256.InRange (-i.truncatedChange)
  newPrice : i.price + i.truncatedChange < 2 ^ 256

end PriceInputs

namespace L1Ledger

/-- The exact inputs of the adjustment in the ledger `L`, for the units allocated. -/
def priceInputs (L : L1Ledger) (f : Funding) (units : U64) : PriceInputs where
  price := L.pricePerUnit.toNat
  surplus := (L.surplus f).toInt
  oldSurplus := L.lastSurplus.toInt
  equilUnits := L.equilibrationUnits.toNat
  inertia := L.inertia.toNat
  units := units.toNat

variable {L : L1Ledger} {f : Funding} {units : U64}

/-- The change that the code computes is the truncated one. -/
theorem toInt_priceChangeOf (hvalid : (L.priceInputs f units).Valid)
    (hfits : (L.priceInputs f units).Fits) :
    (priceChangeOf (L.surplus f) L.lastSurplus L.equilibrationUnits L.inertia units).toInt
      = (L.priceInputs f units).truncatedChange := by
  obtain ⟨hprice, hE, hinertia, hunits⟩ := hvalid
  have hunitsLt := units.isLt
  have hinertiaNe : L.inertia ≠ 0 := by
    intro h
    have hzero : (L.priceInputs f units).inertia = 0 := by
      show (L.inertia.toNat : Int) = 0
      rw [h]
      rfl
    omega
  have hequil : (I256.ofU256 L.equilibrationUnits).toInt
      = (L.priceInputs f units).equilUnits := by
    have hlt := hfits.equilUnits.2
    rw [I256.toInt_ofU256]
    exact min_eq_left (Int.le_sub_one_of_lt hlt)
  have hword : (I256.ofU256 (U256.ofU64 units)).toInt = (L.priceInputs f units).units :=
    I256.toInt_ofU256_ofU64 units
  -- The sum of the two words does not wrap.
  have hdivisor : (I256.ofU256 (L.equilibrationUnits / U256.ofU64 L.inertia
      + U256.ofU64 units)).toInt = (L.priceInputs f units).allocPlusInert := by
    have hlt : (L.equilibrationUnits.toNat : Int) / L.inertia.toNat + units.toNat < 2 ^ 255 :=
      hfits.allocPlusInert.2
    rw [← Int.natCast_ediv, ← Int.natCast_add] at hlt
    rw [I256.toInt_ofU256, BitVec.toNat_add, BitVec.toNat_udiv, U256.toNat_ofU64,
      U256.toNat_ofU64, Nat.mod_eq_of_lt (by omega), min_eq_left (by omega)]
    rfl
  have hdivisorPos : 0 < (L.priceInputs f units).allocPlusInert :=
    lt_of_lt_of_le hunits (PriceInputs.Valid.units_le_allocPlusInert ⟨hprice, hE, hinertia, hunits⟩)
  -- None of the divisors is zero, and nothing saturates.
  have hequilZero : (I256.ofU256 L.equilibrationUnits).isZero = false := by
    rw [I256.isZero, hequil]
    exact beq_false_of_ne (by omega)
  have hdivisorZero : (I256.ofU256 (L.equilibrationUnits / U256.ofU64 L.inertia
      + U256.ofU64 units)).isZero = false := by
    rw [I256.isZero, hdivisor]
    exact beq_false_of_ne (by omega)
  have hneg : (L.surplus f).saturatingNeg.toInt = -(L.priceInputs f units).surplus :=
    I256.toInt_clamp_of_inRange hfits.negSurplus
  have hdifference : ((L.surplus f).saturatingSub L.lastSurplus).toInt
      = (L.priceInputs f units).surplus - (L.priceInputs f units).oldSurplus :=
    I256.toInt_clamp_of_inRange hfits.difference
  have hdesired := I256.toInt_wrappingQuot (L.surplus f).saturatingNeg
    (y := I256.ofU256 L.equilibrationUnits) (by rw [hequil]; exact hE)
  have hactual := I256.toInt_wrappingQuot ((L.surplus f).saturatingSub L.lastSurplus)
    (y := I256.ofU256 (U256.ofU64 units)) (by rw [hword]; exact hunits)
  rw [hneg, hequil] at hdesired
  rw [hdifference, hword] at hactual
  unfold priceChangeOf
  simp only [hinertiaNe, hequilZero, hdivisorZero, if_false, Bool.false_eq_true]
  rw [I256.toInt_wrappingQuot _ (by rw [hdivisor]; exact hdivisorPos), hdivisor]
  have hslope : (((L.surplus f).saturatingNeg.wrappingQuot
      (I256.ofU256 L.equilibrationUnits)).saturatingSub
        (((L.surplus f).saturatingSub L.lastSurplus).wrappingQuot
          (I256.ofU256 (U256.ofU64 units)))).toInt
      = (L.priceInputs f units).truncatedSlope := by
    show (I256.clamp _).toInt = _
    rw [hdesired, hactual]
    exact I256.toInt_clamp_of_inRange hfits.slope
  have hproduct : ((((L.surplus f).saturatingNeg.wrappingQuot
      (I256.ofU256 L.equilibrationUnits)).saturatingSub
        (((L.surplus f).saturatingSub L.lastSurplus).wrappingQuot
          (I256.ofU256 (U256.ofU64 units)))).saturatingMul (I256.ofU256 (U256.ofU64 units))).toInt
      = (L.priceInputs f units).truncatedSlope * (L.priceInputs f units).units := by
    show (I256.clamp _).toInt = _
    rw [hslope, hword]
    exact I256.toInt_clamp_of_inRange hfits.product
  rw [hproduct]
  rfl

/-- The price that the code computes is the truncated one. -/
theorem toNat_applyPriceChange (hvalid : (L.priceInputs f units).Valid)
    (hfits : (L.priceInputs f units).Fits) :
    ((L1PricingState.applyPriceChange L.pricePerUnit
        (priceChangeOf (L.surplus f) L.lastSurplus L.equilibrationUnits L.inertia
          units)).toNat : Int)
      = (L.priceInputs f units).truncatedPrice := by
  have hchange := toInt_priceChangeOf hvalid hfits
  have hnew := hfits.newPrice
  have hneg := hfits.negChange
  rw [← hchange] at hnew hneg
  rw [PriceInputs.truncatedPrice, ← hchange]
  exact L1PricingState.toNat_applyPriceChange_of_fits hneg hnew

/-- The price at the end of an update that takes some units. -/
theorem toNat_pricePerUnit_finish (hvalid : (L.priceInputs f units).Valid)
    (hfits : (L.priceInputs f units).Fits) (arbosVersion updateTime : U64) :
    ((L.finish f arbosVersion updateTime units).pricePerUnit.toNat : Int)
      = (L.priceInputs f units).truncatedPrice := by
  have hpos : 0 < units := BitVec.lt_def.mpr (Int.ofNat_lt.mp hvalid.units)
  -- The time that is written before does not matter for the price.
  have hsurplus : ({ L with lastUpdateTime := updateTime } : L1Ledger).surplus f = L.surplus f := by
    cases f <;> rfl
  rw [finish, adjustPrice, if_pos hpos, hsurplus]
  exact toNat_applyPriceChange hvalid hfits

/-- The exact inputs of the adjustment that an update makes: the surplus is that after the
payments, and the rest is as before the update. -/
def updateInputs (L : L1Ledger) (arbosVersion updateTime currentTime : U64) (p : Address)
    (weiSpent l1Basefee : U256) : PriceInputs where
  price := L.pricePerUnit.toNat
  surplus := ((L.settled (.ofVersion arbosVersion) arbosVersion
    (L.allocated updateTime currentTime) p weiSpent l1Basefee).surplus
      (.ofVersion arbosVersion)).toInt
  oldSurplus := L.lastSurplus.toInt
  equilUnits := L.equilibrationUnits.toNat
  inertia := L.inertia.toNat
  units := (L.allocated updateTime currentTime).toNat

/-- The settled ledger gives the price the inputs that `updateInputs` names. -/
theorem updateInputs_eq (L : L1Ledger) (arbosVersion updateTime currentTime : U64) (p : Address)
    (weiSpent l1Basefee : U256) :
    (L.settled (.ofVersion arbosVersion) arbosVersion (L.allocated updateTime currentTime) p
        weiSpent l1Basefee).priceInputs (.ofVersion arbosVersion)
          (L.allocated updateTime currentTime)
      = L.updateInputs arbosVersion updateTime currentTime p weiSpent l1Basefee := by
  have hscalars := settled_priceScalars L (.ofVersion arbosVersion) arbosVersion
    (L.allocated updateTime currentTime) p weiSpent l1Basefee
  simp only [priceScalars, Prod.mk.injEq] at hscalars
  obtain ⟨hprice, hsurplus, hequil, hinertia⟩ := hscalars
  rw [priceInputs, updateInputs, hprice, hsurplus, hequil, hinertia]

end L1Ledger

namespace L1Pricing
variable [Keccak] {sto : Storage} {A : Set Address}

end L1Pricing

namespace L1Pricing
attribute [local instance] sampleHash

/-- The update of the sample ledger that the examples of the price are about. -/
theorem sampleUpdate_ok :
    (World.run ((openL1PricingState sampleRoot 10).updateForBatchPosterSpending 10 5 5 7 64 0)
      sampleWorld).1 = .ok () := by
  obtain ⟨w', hrun, -⟩ := updateForBatchPosterSpending_realizes sampleRoot_layout_apart 10
    sampleLedger (show arbosVersion10 ≤ 10 by decide) 5 5 (Set.mem_univ 7) 64 0 sampleWorld
    sampleWorld_represents
  have hok : (sampleLedger.spend .counter 10 5 5 7 64 0).1 = .ok () := by decide +kernel
  exact (congrArg Prod.fst hrun).trans hok

end L1Pricing

end ArbReth
