import ArbReth.Proofs.L1Pricing.Initial
import ArbReth.Proofs.L1Pricing.Update

/-!
# `ArbReth.Proofs.L1Pricing.CostCap`: the cap on the cost and the reference cap

From version 3 on an update accounts for at most `l1Basefee * units * cap / 10000` wei. The
reference quoted in the source computes this over the integers, and it casts the stored cap
to signed bips first, which saturates at `2 ^ 63 - 1`. The code multiplies with the stored
cap as it is, and its products saturate at the largest word before the division.

`CapAgrees` is the exact condition for the two to account for the same wei. It compares the
product with the cast cap, `castProduct`, with what the rest of a larger cap adds,
`uncastProduct`. `cost_cap_eq_reference_iff` states it for both generations of the update
that have the cap. The version 3 upgrade stores `2 ^ 64 - 1`.
-/

set_option autoImplicit false

namespace ArbReth

open ArbReth.Program

namespace L1Ledger

section
variable (L : L1Ledger) (units : U64) (weiSpent l1Basefee : U256)

/-- `SaturatingCastToBips` of the stored cap. -/
def capBips : Nat := min L.amortizedCostCapBips.toNat (2 ^ 63 - 1)

/-- The product that the reference divides. -/
def castProduct : Nat := l1Basefee.toNat * units.toNat * L.capBips

/-- What the part of the cap that the cast drops adds to the product. -/
def uncastProduct : Nat :=
  l1Basefee.toNat * units.toNat * (L.amortizedCostCapBips.toNat - (2 ^ 63 - 1))

/-- The wei that the reference accounts for. -/
def referenceAccounted : Nat :=
  if L.amortizedCostCapBips = 0 then weiSpent.toNat
  else min weiSpent.toNat (L.castProduct units l1Basefee / 10000)

/-- The condition for the code to account for the wei of the reference. There is no cap, or
the wei are below both caps, or both caps are the same number: without saturation what the
cast drops is less than the last division, and with it the reference cap is the largest
word over 10000 as well. -/
def CapAgrees : Prop :=
  L.amortizedCostCapBips = 0
    ∨ (10000 * weiSpent.toNat ≤ L.castProduct units l1Basefee ∧ 10000 * weiSpent.toNat < 2 ^ 256)
    ∨ (L.castProduct units l1Basefee + L.uncastProduct units l1Basefee < 2 ^ 256 + 64
      ∧ L.castProduct units l1Basefee % 10000 + L.uncastProduct units l1Basefee < 10000)
    ∨ (2 ^ 256 + 64 ≤ L.castProduct units l1Basefee + L.uncastProduct units l1Basefee
      ∧ 2 ^ 256 - 9936 ≤ L.castProduct units l1Basefee
      ∧ L.castProduct units l1Basefee < 2 ^ 256 + 64)

instance : Decidable (L.CapAgrees units weiSpent l1Basefee) :=
  inferInstanceAs (Decidable (_ ∨ _ ∨ _ ∨ _))

/-- The registered ledger after the units are taken, `wei` are credited and the reward is
accrued. -/
def accountedFor (p : Address) (wei : U256) : L1Ledger :=
  (((L.register p).takeUnits units).credit p wei).accrue units

end

variable {L : L1Ledger} {units : U64} {weiSpent l1Basefee : U256}

/-- The product with the stored cap. -/
theorem castProduct_add_uncastProduct (L : L1Ledger) (units : U64) (l1Basefee : U256) :
    L.castProduct units l1Basefee + L.uncastProduct units l1Basefee
      = l1Basefee.toNat * units.toNat * L.amortizedCostCapBips.toNat := by
  have hsplit : L.capBips + (L.amortizedCostCapBips.toNat - (2 ^ 63 - 1))
      = L.amortizedCostCapBips.toNat := by
    unfold capBips
    omega
  calc L.castProduct units l1Basefee + L.uncastProduct units l1Basefee
      = l1Basefee.toNat * units.toNat
          * (L.capBips + (L.amortizedCostCapBips.toNat - (2 ^ 63 - 1))) :=
        (Nat.mul_add _ _ _).symm
    _ = l1Basefee.toNat * units.toNat * L.amortizedCostCapBips.toNat := by rw [hsplit]

/-- Both products saturate, and with a cap this is one saturation of the exact product. -/
theorem toNat_costCap (hcap : L.amortizedCostCapBips ≠ 0) :
    (L.costCap units l1Basefee).toNat
      = min (L.castProduct units l1Basefee + L.uncastProduct units l1Basefee) (2 ^ 256 - 1)
        / 10000 := by
  have hpos : 0 < L.amortizedCostCapBips.toNat :=
    Nat.pos_of_ne_zero fun h => hcap (BitVec.eq_of_toNat_eq h)
  have hsaturate : min (min (l1Basefee.toNat * units.toNat) (2 ^ 256 - 1)
        * L.amortizedCostCapBips.toNat) (2 ^ 256 - 1)
      = min (l1Basefee.toNat * units.toNat * L.amortizedCostCapBips.toNat) (2 ^ 256 - 1) := by
    rcases Nat.le_total (l1Basefee.toNat * units.toNat) (2 ^ 256 - 1) with hle | hge
    · rw [Nat.min_eq_left hle]
    · -- a product that has saturated stays above the bound
      have hsat := Nat.le_mul_of_pos_right (2 ^ 256 - 1) hpos
      have hexact := Nat.le_mul_of_pos_right (l1Basefee.toNat * units.toNat) hpos
      rw [Nat.min_eq_right hge]
      omega
  rw [castProduct_add_uncastProduct, ← hsaturate, costCap, BitVec.toNat_udiv,
    toNat_saturatingMul, toNat_saturatingMul, U256.toNat_ofU64, U256.toNat_ofU64]
  rfl

/-- With a cap set, the wei accounted for are at most the cap. -/
theorem toNat_accounted_of_cap {v : U64} (hv : arbosVersion3 ≤ v)
    (hcap : L.amortizedCostCapBips ≠ 0) :
    (L.accounted v units weiSpent l1Basefee).toNat
      = min weiSpent.toNat (L.costCap units l1Basefee).toNat := by
  rw [accounted, if_pos ⟨hv, hcap⟩]
  split <;> rename_i h <;> rw [BitVec.lt_def] at h <;> omega

/-- The code accounts for the wei of the reference exactly under `CapAgrees`. -/
theorem toNat_accounted_eq_iff {v : U64} (hv : arbosVersion3 ≤ v) :
    (L.accounted v units weiSpent l1Basefee).toNat = L.referenceAccounted units weiSpent l1Basefee
      ↔ L.CapAgrees units weiSpent l1Basefee := by
  unfold referenceAccounted CapAgrees
  by_cases hcap : L.amortizedCostCapBips = 0
  · rw [accounted, if_neg fun h => h.2 hcap, if_pos hcap]
    exact iff_of_true rfl (.inl hcap)
  · rw [toNat_accounted_of_cap hv hcap, toNat_costCap hcap, if_neg hcap]
    -- The largest word leaves 9935 over 10000, so the caps meet up to 64 above it.
    generalize L.castProduct units l1Basefee = cast
    generalize L.uncastProduct units l1Basefee = uncast
    simp only [hcap, false_or]
    omega

/-- An accepted update accounts for the capped wei, and settles. -/
theorem spend_of_accepted (f : Funding) {v updateTime currentTime : U64} {p : Address}
    (hroom : ¬(¬L.IsPoster p ∧ L.count = BitVec.allOnes 64))
    (htime : L.TimeOk updateTime currentTime) :
    L.spend f v updateTime currentTime p weiSpent l1Basefee
      = (L.accountedFor (L.allocated updateTime currentTime) p
          (L.accounted v (L.allocated updateTime currentTime) weiSpent l1Basefee)).settle f v
            updateTime (L.allocated updateTime currentTime) p := by
  have htime' : (L.register p).TimeOk updateTime currentTime := by
    unfold TimeOk
    rw [register_lastTime]
    exact htime
  have hcap : ∀ n, ((L.register p).takeUnits n).accounted v n weiSpent l1Basefee
      = L.accounted v n weiSpent l1Basefee := by
    intro n
    have hscalar : ((L.register p).takeUnits n).amortizedCostCapBips = L.amortizedCostCapBips := by
      show (L.register p).amortizedCostCapBips = _
      rw [register_toL1Scalars]
    unfold accounted costCap
    rw [hscalar]
  rw [spend, if_neg hroom]
  simp only [htime', not_true_eq_false, if_false, register_allocated]
  rw [account, hcap]
  rfl

end L1Ledger

namespace L1Pricing
variable [Keccak] {sto : Storage} {A : Set Address}

/-- The cap on the cost, from version 3 on. The wei that the code accounts for are those of
the reference exactly under `CapAgrees`, for all units, wei and base fees and every stored
cap. These are the wei that an accepted update credits. -/
theorem cost_cap_eq_reference_iff (hslots : (layout sto).Apart (L1Key.Among A)) {w : World}
    {L : L1Ledger} (hR : Represents sto A w L) (version : U64) {arbosVersion : U64}
    (hthree : arbosVersion3 ≤ arbosVersion) (units : U64) (weiSpent l1Basefee : U256) :
    ∃ capped, (World.run ((openL1PricingState sto version).imposeCostCap arbosVersion units
        weiSpent l1Basefee) w).1 = .ok capped
      ∧ (capped.toNat = L.referenceAccounted units weiSpent l1Basefee
          ↔ L.CapAgrees units weiSpent l1Basefee)
      ∧ ∀ (updateTime currentTime : U64) (p : Address), p ∈ A →
          ¬(¬L.IsPoster p ∧ L.count = BitVec.allOnes 64) → L.TimeOk updateTime currentTime →
          L.allocated updateTime currentTime = units →
          ∃ w', World.run ((openL1PricingState sto version).updateForBatchPosterSpending
              arbosVersion updateTime currentTime p weiSpent l1Basefee) w
            = (((L.accountedFor units p capped).settle (.ofVersion arbosVersion) arbosVersion
                updateTime units p).1, w')
          ∧ Represents sto A w' ((L.accountedFor units p capped).settle (.ofVersion arbosVersion)
              arbosVersion updateTime units p).2 := by
  have htwo : arbosVersion2 ≤ arbosVersion := by
    have hle : arbosVersion2 ≤ arbosVersion3 := by decide
    exact BitVec.le_trans hle hthree
  obtain ⟨w₁, hrun, -⟩ := imposeCostCap_realizes version L arbosVersion units weiSpent l1Basefee
    w hR
  refine ⟨L.accounted arbosVersion units weiSpent l1Basefee, congrArg Prod.fst hrun,
    L1Ledger.toNat_accounted_eq_iff hthree, ?_⟩
  intro updateTime currentTime p hp hroom htime hunits
  obtain ⟨w', hupdate, hR'⟩ := update_realizes hslots version L htwo updateTime currentTime hp
    weiSpent l1Basefee w hR
  rw [L1Ledger.spend_of_accepted _ hroom htime, hunits] at hupdate hR'
  exact ⟨w', hupdate, hR'⟩

end L1Pricing

namespace L1Pricing
attribute [local instance] sampleHash

/-- The sample ledger with the cap that the version 3 upgrade stores. -/
def cappedLedger : L1Ledger :=
  { sampleLedger with amortizedCostCapBips := BitVec.allOnes 64 }

/-- The sample store with a cap. -/
def cappedWorld : World :=
  (World.run ((openL1PricingState sampleRoot 10).setAmortizedCostCapBips (BitVec.allOnes 64))
    sampleWorld).2

/-- The store represents the ledger with the cap. -/
theorem cappedWorld_represents : Represents sampleRoot Set.univ cappedWorld cappedLedger := by
  obtain ⟨w, hrun, hR⟩ := setAmortizedCostCapBips_realizes sampleRoot_layout_apart 10
    sampleLedger (BitVec.allOnes 64) sampleWorld sampleWorld_represents
  have hworld : cappedWorld = w := congrArg Prod.snd hrun
  rwa [hworld]

/-- A hundred wei are below both caps. -/
theorem cost_cap_eq_reference_sample :
    ∃ capped, (World.run ((openL1PricingState sampleRoot 10).imposeCostCap 10 4 100 1000000000)
        cappedWorld).1 = .ok capped
      ∧ capped.toNat = cappedLedger.referenceAccounted 4 100 1000000000 := by
  obtain ⟨capped, hrun, hiff, -⟩ := cost_cap_eq_reference_iff sampleRoot_layout_apart
    cappedWorld_represents 10 (show arbosVersion3 ≤ 10 by decide) 4 100 1000000000
  exact ⟨capped, hrun, hiff.mpr (by decide +kernel)⟩

/-- Four units at a base fee of 1 wei. The code caps at `4 * (2 ^ 64 - 1) / 10000`, and the
reference at half of that. -/
theorem cost_cap_ne_reference_sample :
    (World.run ((openL1PricingState sampleRoot 10).imposeCostCap 10 4 10000000000000000 1)
        cappedWorld).1 = .ok 7378697629483820
      ∧ cappedLedger.referenceAccounted 4 10000000000000000 1 = 3689348814741910 := by
  obtain ⟨w, hrun, -⟩ := imposeCostCap_realizes 10 cappedLedger 10 4 10000000000000000 1
    cappedWorld cappedWorld_represents
  have hcapped : cappedLedger.accounted 10 4 10000000000000000 1 = 7378697629483820 := by
    decide +kernel
  exact ⟨(congrArg Prod.fst hrun).trans (congrArg Outcome.ok hcapped), by decide +kernel⟩

end L1Pricing

end ArbReth
