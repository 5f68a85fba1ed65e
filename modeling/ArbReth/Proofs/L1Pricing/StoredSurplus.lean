import ArbReth.Proofs.L1Pricing.PriceSign

/-!
# `ArbReth.Proofs.L1Pricing.StoredSurplus`: the stored surplus is the surplus of the state

From version 10 on the update computes the surplus from a local of the fee counter, which is
threaded through the two payments, and from the debts that it reads again. It stores the
surplus as it is. `getL1PricingSurplus` computes it from the state alone.

In the ledger the local and the counter are one field, because every payment moves them
together (`settle_realizes`). So the surplus that is stored is `L1Ledger.surplus .counter`,
and the writes after its computation change none of its parts.
-/

set_option autoImplicit false

namespace ArbReth

open ArbReth.Program

namespace L1Ledger
variable {L : L1Ledger} {v : U64}

/-- From version 7 on the surplus is read back as it was stored. -/
theorem storedSurplus_eq (hv : arbosVersion7 ≤ v) (surplus : I256) :
    storedSurplus v surplus = surplus := if_neg (BitVec.not_lt.mpr hv)

/-- An update that takes some units ends with the surplus of its own ledger. -/
theorem finish_lastSurplus (hv : arbosVersion7 ≤ v) (f : Funding) (updateTime : U64) {units : U64}
    (hunits : 0 < units) :
    (L.finish f v updateTime units).lastSurplus = (L.finish f v updateTime units).surplus f := by
  have hsurplus : ({ L with lastUpdateTime := updateTime } : L1Ledger).surplus f = L.surplus f := by
    cases f <;> rfl
  have hstored : (L.finish f v updateTime units).lastSurplus = storedSurplus v (L.surplus f) := by
    rw [finish, adjustPrice, if_pos hunits, hsurplus]
  rw [finish_surplus, hstored, storedSurplus_eq hv]

end L1Ledger

namespace L1Pricing
variable [Keccak] {sto : Storage} {A : Set Address}

/-- The surplus of the state is the counter less what is due. -/
theorem getL1PricingSurplus_realizes (version : U64) (L : L1Ledger) :
    Realizes World.handle (Represents sto A) (openL1PricingState sto version).getL1PricingSurplus L
      (.ok (L.surplus .counter)) L :=
  .bind (totalFundsDue_realizes version L) <| .bind (fundsDueForRewards_realizes version L) <|
    .bind (l1FeesAvailable_realizes version L) (.pure _)

/-- A program that realizes its result and leaves the ledger has this result in each world
that represents it. -/
theorem run_of_realizes {ε α : Type} {p : Exec ε α} {r : Outcome ε α} {L L' : L1Ledger} {w : World}
    (hp : Realizes World.handle (Represents sto A) p L r L') (hR : Represents sto A w L) :
    (World.run p w).1 = r := by
  obtain ⟨w', hrun, -⟩ := hp w hR
  exact congrArg Prod.fst hrun

/-- After a successful update from version 10 on that takes some units, the stored surplus
is what `getL1PricingSurplus` returns. -/
theorem stored_surplus (hslots : (layout sto).Apart (L1Key.Among A)) {w : World}
    {L : L1Ledger} (hR : Represents sto A w L) (version : U64) {arbosVersion : U64}
    (hten : arbosVersion10 ≤ arbosVersion) (updateTime currentTime : U64) {p : Address}
    (hp : p ∈ A) (weiSpent l1Basefee : U256)
    (hok : (World.run ((openL1PricingState sto version).updateForBatchPosterSpending arbosVersion
      updateTime currentTime p weiSpent l1Basefee) w).1 = .ok ())
    (hunits : 0 < L.allocated updateTime currentTime) :
    let w' := (World.run ((openL1PricingState sto version).updateForBatchPosterSpending
      arbosVersion updateTime currentTime p weiSpent l1Basefee) w).2
    ∃ surplus,
      (World.run (openL1PricingState sto version).lastSurplus w').1 = .ok surplus
      ∧ (World.run (openL1PricingState sto version).getL1PricingSurplus w').1 = .ok surplus := by
  have hseven : arbosVersion7 ≤ arbosVersion := by
    have hle : arbosVersion7 ≤ arbosVersion10 := by decide
    exact BitVec.le_trans hle hten
  obtain ⟨w₁, hrun, hR₁⟩ := updateForBatchPosterSpending_realizes hslots version L hten updateTime
    currentTime hp weiSpent l1Basefee w hR
  have hrun₁ : World.run ((openL1PricingState sto version).updateForBatchPosterSpending
    arbosVersion updateTime currentTime p weiSpent l1Basefee) w = _ := hrun
  intro w'
  have hw' : w' = w₁ := by simp only [w', hrun₁]
  rw [hrun₁] at hok
  rw [L1Ledger.spend_of_ok hok] at hR₁
  rw [hw']
  -- the writes after the computation of the surplus change none of its parts
  refine ⟨_, run_of_realizes (lastSurplus_realizes version _) hR₁, ?_⟩
  rw [L1Ledger.finish_lastSurplus hseven .counter updateTime hunits]
  exact run_of_realizes (getL1PricingSurplus_realizes version _) hR₁

end L1Pricing

namespace L1Pricing
attribute [local instance] sampleHash

/-- A new poster, whose due is covered in part. -/
theorem stored_surplus_sample :
    let w' := (World.run ((openL1PricingState sampleRoot 10).updateForBatchPosterSpending 10 5 5 7
      64 0) sampleWorld).2
    ∃ surplus,
      (World.run (openL1PricingState sampleRoot 10).lastSurplus w').1 = .ok surplus
      ∧ (World.run (openL1PricingState sampleRoot 10).getL1PricingSurplus w').1 = .ok surplus :=
  stored_surplus sampleRoot_layout_apart sampleWorld_represents 10 (by decide) 5 5
    (Set.mem_univ 7) 64 0 sampleUpdate_ok (by decide +kernel)

end L1Pricing

end ArbReth
