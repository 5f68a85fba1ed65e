import ArbReth.Proofs.Multigas.Exact

/-!
# `ArbReth.Proofs.Multigas.Saturation`: the total under saturation

`Clamped` says that the total is the sum of the amounts, clamped to the largest word.
Every operation keeps this but two: `with` and `saturatingDecrement` take an amount off
a total that may have been clamped, while the other amounts still add up to more.

`KeepsTotal` is the exact condition for a step to keep the law. `clamped_apply_iff` says
so of one step, and `clamped_of_reachable` carries the law along every run of steps that
meet it. `not_clamped_sample` is a run that breaks it: a `with` after it wraps.
-/

set_option autoImplicit false

namespace ArbReth

namespace MultiGas

/-- The total is the sum of the amounts, clamped to the largest word. -/
def Clamped (self : MultiGas) : Prop :=
  self.total.toNat = min (sumAmounts self.gas) (2 ^ 64 - 1)

/-- The step keeps the law: the amounts that `with` or `saturatingDecrement` lowers do not
add up to more than the total can hold, or nothing is lowered. -/
def KeepsTotal (self : MultiGas) : GasOp → Prop
  | .with kind amount => sumAmounts self.gas < 2 ^ 64 ∨ self.gas kind ≤ amount
  | .saturatingDecrement kind gas =>
      sumAmounts self.gas < 2 ^ 64 ∨ gas = 0 ∨ self.gas kind = 0
  | _ => True

/-! ### Sums of saturated amounts -/

/-- The sum of the saturated amounts: nothing is lost, or it is at least the largest word. -/
theorem sumAmounts_saturatingAdd (a b : ResourceKind → U64) :
    min (sumAmounts fun kind => ArbReth.saturatingAdd (a kind) (b kind)) (2 ^ 64 - 1)
      = min (sumAmounts a + sumAmounts b) (2 ^ 64 - 1) := by
  by_cases hfits : ∀ kind, (a kind).toNat + (b kind).toNat ≤ 2 ^ 64 - 1
  · have hsum : sumAmounts (fun kind => ArbReth.saturatingAdd (a kind) (b kind))
        = sumAmounts a + sumAmounts b := by
      rw [sumAmounts, sumAmounts, sumAmounts, ← List.sum_map_add]
      simp only [toNat_saturatingAdd, Nat.min_eq_left (hfits _)]
    rw [hsum]
  · -- one kind is clamped, and both sides reach the bound through it
    obtain ⟨kind, hkind⟩ := not_forall.mp hfits
    have hle := toNat_le_sumAmounts (fun kind => ArbReth.saturatingAdd (a kind) (b kind)) kind
    have ha := toNat_le_sumAmounts a kind
    have hb := toNat_le_sumAmounts b kind
    rw [toNat_saturatingAdd] at hle
    omega

/-- A total that is computed anew is the clamped sum. -/
theorem clamped_recomputeTotal (self : MultiGas) : (recomputeTotal self).1.Clamped :=
  toNat_total_recomputeTotal self

namespace Clamped
variable {self x : MultiGas}

/-- No amount is over the total. -/
theorem toNat_gas_le (h : self.Clamped) (kind : ResourceKind) :
    (self.gas kind).toNat ≤ self.total.toNat := by
  have hle := toNat_le_sumAmounts self.gas kind
  have hlt := (self.gas kind).isLt
  rw [h]
  omega

/-! ### The steps -/

/-- `with` keeps the clamped sum unless the sum does not fit and the amount is lowered. -/
theorem with_iff (h : self.Clamped) (kind : ResourceKind) (amount : U64) :
    (self.«with» kind amount).1.Clamped
      ↔ sumAmounts self.gas < 2 ^ 64 ∨ self.gas kind ≤ amount := by
  have hle := h.toNat_gas_le kind
  have hbase : (self.total - self.gas kind).toNat = self.total.toNat - (self.gas kind).toNat :=
    BitVec.toNat_sub_of_le hle
  have hsum := sumAmounts_update self.gas kind amount
  have hgas := toNat_le_sumAmounts self.gas kind
  have hself : self.total.toNat = min (sumAmounts self.gas) (2 ^ 64 - 1) := h
  rw [BitVec.le_def]
  by_cases hfits : (self.total - self.gas kind).toNat + amount.toNat < 2 ^ 64
  · rw [with_of_fits self hfits]
    show (self.total - self.gas kind + amount).toNat
      = min (sumAmounts (Function.update self.gas kind amount)) _ ↔ _
    -- A clamped total lost what is above the bound, and only a larger amount hides it.
    rw [toNat_add_of_lt hfits, hbase]
    omega
  · -- the receiver is returned, and an overflow needs a larger amount or a total that fits
    rw [with_of_not_fits self hfits]
    exact ⟨fun _ => by omega, fun _ => h⟩

/-- A decrement keeps the clamped sum unless the sum does not fit and gas is taken off. -/
theorem saturatingDecrement_iff (h : self.Clamped) (kind : ResourceKind) (gas : U64) :
    (self.saturatingDecrement kind gas).Clamped
      ↔ sumAmounts self.gas < 2 ^ 64 ∨ gas = 0 ∨ self.gas kind = 0 := by
  have hself : self.total.toNat = min (sumAmounts self.gas) (2 ^ 64 - 1) := h
  have hsum := sumAmounts_update self.gas kind (self.gas kind - minWord gas (self.gas kind))
  have hgas := toNat_le_sumAmounts self.gas kind
  -- The reduction is what the kind has at most, and the total is lowered by it.
  have hreduced := toNat_minWord gas (self.gas kind)
  have hle : minWord gas (self.gas kind) ≤ self.gas kind := by
    rw [BitVec.le_def]
    omega
  rw [BitVec.toNat_sub_of_le hle] at hsum
  show (ArbReth.saturatingSub self.total (minWord gas (self.gas kind))).toNat
    = min (sumAmounts (Function.update self.gas kind _)) _ ↔ _
  rw [toNat_saturatingSub, ← BitVec.toNat_inj, ← BitVec.toNat_inj]
  have hzero : (0 : U64).toNat = 0 := rfl
  omega

/-- A checked addition keeps the clamped sum. -/
theorem safeAdd (h : self.Clamped) (hx : x.Clamped) : (self.safeAdd x).1.Clamped := by
  by_cases hfits : AddFits self x
  · have hself : self.total.toNat = min (sumAmounts self.gas) (2 ^ 64 - 1) := h
    have hother : x.total.toNat = min (sumAmounts x.gas) (2 ^ 64 - 1) := hx
    have hsum : sumAmounts (fun kind => self.gas kind + x.gas kind)
        = sumAmounts self.gas + sumAmounts x.gas := by
      rw [sumAmounts, sumAmounts, sumAmounts, ← List.sum_map_add]
      simp only [toNat_add_of_lt (hfits.gas _)]
    have htotal := hfits.total
    rw [safeAdd_of_fits hfits]
    show (self.total + x.total).toNat = min (sumAmounts fun kind => self.gas kind + x.gas kind) _
    rw [toNat_add_of_lt htotal, hsum]
    omega
  · rwa [safeAdd_of_not_fits hfits]

/-- A saturating addition keeps the clamped sum. -/
theorem saturatingAdd (h : self.Clamped) (hx : x.Clamped) : (self.saturatingAdd x).Clamped := by
  have hself : self.total.toNat = min (sumAmounts self.gas) (2 ^ 64 - 1) := h
  have hother : x.total.toNat = min (sumAmounts x.gas) (2 ^ 64 - 1) := hx
  -- The total and the kinds are clamped apart, with the same minimum in the end.
  have hsum := sumAmounts_saturatingAdd self.gas x.gas
  show (ArbReth.saturatingAdd self.total x.total).toNat
    = min (sumAmounts fun kind => ArbReth.saturatingAdd (self.gas kind) (x.gas kind)) _
  rw [toNat_saturatingAdd]
  omega

/-- A checked subtraction computes the total anew. -/
theorem safeSub (h : self.Clamped) (x : MultiGas) : (self.safeSub x).1.Clamped := by
  by_cases hfits : SubFits self x
  · rw [safeSub_of_fits hfits]
    -- the recomputed total needs no law of the operands
    exact clamped_recomputeTotal _
  · rwa [safeSub_of_not_fits hfits]

/-- A checked increment keeps the clamped sum. -/
theorem safeIncrement (h : self.Clamped) (kind : ResourceKind) (gas : U64) :
    (self.safeIncrement kind gas).1.Clamped := by
  by_cases hfits : (self.gas kind).toNat + gas.toNat < 2 ^ 64
      ∧ self.total.toNat + gas.toNat < 2 ^ 64
  · obtain ⟨hkind, htotal⟩ := hfits
    have hself : self.total.toNat = min (sumAmounts self.gas) (2 ^ 64 - 1) := h
    have hsum := sumAmounts_update self.gas kind (self.gas kind + gas)
    rw [toNat_add_of_lt hkind] at hsum
    rw [safeIncrement_of_fits self hkind htotal]
    show (self.total + gas).toNat = min (sumAmounts (Function.update self.gas kind _)) _
    rw [toNat_add_of_lt htotal]
    omega
  · rwa [safeIncrement_of_not_fits self hfits]

/-- A saturating increment keeps the clamped sum. -/
theorem saturatingIncrement (h : self.Clamped) (kind : ResourceKind) (gas : U64) :
    (self.saturatingIncrement kind gas).Clamped := by
  have hself : self.total.toNat = min (sumAmounts self.gas) (2 ^ 64 - 1) := h
  -- A kind that is clamped makes the sum reach the bound as well.
  have hsum := sumAmounts_update self.gas kind (ArbReth.saturatingAdd (self.gas kind) gas)
  have hgas := toNat_le_sumAmounts self.gas kind
  rw [toNat_saturatingAdd] at hsum
  show (ArbReth.saturatingAdd self.total gas).toNat
    = min (sumAmounts (Function.update self.gas kind _)) _
  rw [toNat_saturatingAdd]
  omega

end Clamped

/-- A step from a value that keeps the law, with an operand that does, keeps it exactly
under the condition. -/
theorem clamped_apply_iff {self : MultiGas} (h : self.Clamped) (op : GasOp)
    (hoperand : ∀ x, op.operand = some x → x.Clamped) :
    (op.apply self).Clamped ↔ KeepsTotal self op := by
  cases op with
  | «with» kind amount => exact h.with_iff kind amount
  | withRefund amount => exact iff_of_true h trivial
  | safeAdd x => exact iff_of_true (h.safeAdd (hoperand x rfl)) trivial
  | saturatingAdd x => exact iff_of_true (h.saturatingAdd (hoperand x rfl)) trivial
  | saturatingAddInto x => exact iff_of_true (h.saturatingAdd (hoperand x rfl)) trivial
  | safeSub x => exact iff_of_true (h.safeSub x) trivial
  | saturatingSub x => exact iff_of_true (clamped_recomputeTotal _) trivial
  | safeIncrement kind gas => exact iff_of_true (h.safeIncrement kind gas) trivial
  | saturatingIncrement kind gas => exact iff_of_true (h.saturatingIncrement kind gas) trivial
  | saturatingIncrementInto kind gas => exact iff_of_true (h.saturatingIncrement kind gas) trivial
  | saturatingDecrement kind gas => exact h.saturatingDecrement_iff kind gas

/-- A total that is the exact sum is the clamped one. -/
theorem Balanced.clamped {self : MultiGas} (h : self.Balanced) : self.Clamped := by
  have hlt := self.total.isLt
  have htotal : self.total.toNat = sumAmounts self.gas := h
  rw [Clamped]
  omega

/-- Every value reached by steps that keep the total has the clamped sum. -/
theorem Reachable.clamped {self : MultiGas} (h : Reachable KeepsTotal self) : self.Clamped := by
  induction h with
  | zero => exact balanced_zero.clamped
  | new kind amount => exact (balanced_new kind amount).clamped
  | fromPairs h => exact ((fromPairs_eq _).2 _ h).2.2.clamped
  | apply hself hoperand hop ih ihoperand => exact (clamped_apply_iff ih _ ihoperand).mpr hop

/-- In every run whose steps keep the total, the total of each value is the sum of its
amounts, clamped to the largest word. So no amount is above the total, and the
subtraction of `with` does not wrap. -/
theorem clamped_of_reachable {self : MultiGas} (h : Reachable KeepsTotal self) :
    self.total.toNat = min (sumAmounts self.gas) (2 ^ 64 - 1)
      ∧ ∀ kind, self.get kind ≤ self.total
        ∧ (self.total - self.get kind).toNat = self.total.toNat - (self.get kind).toNat := by
  have hclamped := h.clamped
  refine ⟨hclamped, fun kind => ?_⟩
  have hle : self.get kind ≤ self.total := hclamped.toNat_gas_le kind
  exact ⟨hle, BitVec.toNat_sub_of_le hle⟩

/-- Two kinds of one unit more than the total can hold, and nothing is lowered. -/
theorem clamped_of_reachable_sample :
    ((new .computation (BitVec.allOnes 64)).saturatingIncrement .storageAccess 1).total.toNat
      = 2 ^ 64 - 1 :=
  (clamped_of_reachable (@Reachable.apply _ _ (.saturatingIncrement .storageAccess 1)
    (.new .computation (BitVec.allOnes 64)) (fun _ hx => nomatch hx) trivial)).1

/-- The same two kinds, and then one of them is lowered to nothing. -/
def overdrawn : MultiGas :=
  ((new .computation (BitVec.allOnes 64)).saturatingIncrement .storageAccess 1).saturatingDecrement
    .storageAccess 1

/-- The amount of the other kind is now above the total. To set it to zero wraps: all
amounts are zero then, no overflow is told, and the total is the largest word. -/
theorem not_clamped_sample :
    Reachable (fun _ _ => True) overdrawn ∧ ¬overdrawn.Clamped
      ∧ overdrawn.total < overdrawn.get .computation
      ∧ (overdrawn.«with» .computation 0).2 = false
      ∧ sumAmounts (overdrawn.«with» .computation 0).1.gas = 0
      ∧ (overdrawn.«with» .computation 0).1.total = BitVec.allOnes 64 := by
  refine ⟨?_, by unfold Clamped; decide, by decide, by decide, by decide, by decide⟩
  refine @Reachable.apply _ _ (.saturatingDecrement .storageAccess 1) ?_
    (fun _ hx => nomatch hx) trivial
  refine @Reachable.apply _ _ (.saturatingIncrement .storageAccess 1) ?_
    (fun _ hx => nomatch hx) trivial
  exact .new _ _

end MultiGas

end ArbReth
