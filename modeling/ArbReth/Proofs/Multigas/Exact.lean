import ArbReth.Multigas.Resources
import Mathlib.Algebra.BigOperators.Group.List.Basic
import Mathlib.Algebra.Order.BigOperators.Group.List
import Mathlib.Data.Int.Init
import Mathlib.Data.List.Induction
import Mathlib.Tactic.Abel

/-!
# `ArbReth.Proofs.Multigas.Exact`: exact multi-gas arithmetic

`GasAmounts` holds the exact numbers of a value, integers of any size, and the exact
operations on them. `MultiGas.amounts` reads a value so. `IsExact` says of the result of
an operation that its flag tells whether an exact number leaves the range of a `u64`,
that the receiver is returned then, and that all numbers are exact otherwise.

The flags look at the kinds, the total and the refund in turn. They are right because of
the invariant `Balanced`: the total is the sum of the amounts. `exact_of_reachable` says
so of every value that the exact operations build.
-/

set_option autoImplicit false

namespace ArbReth

/-! ### Exact amounts -/

/-- Exact amounts, their total and the refund. -/
@[ext] structure GasAmounts where
  gas : ResourceKind → Int
  total : Int
  refund : Int

namespace GasAmounts

/-- Every number fits in a `u64`. -/
structure InRange (e : GasAmounts) : Prop where
  gas : ∀ kind, 0 ≤ e.gas kind ∧ e.gas kind < 2 ^ 64
  total : 0 ≤ e.total ∧ e.total < 2 ^ 64
  refund : 0 ≤ e.refund ∧ e.refund < 2 ^ 64

/-- The exact sum. -/
def add (e x : GasAmounts) : GasAmounts where
  gas kind := e.gas kind + x.gas kind
  total := e.total + x.total
  refund := e.refund + x.refund

/-- The exact difference. -/
def sub (e x : GasAmounts) : GasAmounts where
  gas kind := e.gas kind - x.gas kind
  total := e.total - x.total
  refund := e.refund - x.refund

/-- One kind is replaced, and the total follows. -/
def set (e : GasAmounts) (kind : ResourceKind) (amount : Int) : GasAmounts :=
  { e with gas := Function.update e.gas kind amount, total := e.total - e.gas kind + amount }

/-- One kind and the total are raised. -/
def increment (e : GasAmounts) (kind : ResourceKind) (gas : Int) : GasAmounts :=
  e.set kind (e.gas kind + gas)

/-- The total is the sum of the amounts. -/
def Balanced (e : GasAmounts) : Prop := e.total = (ResourceKind.all.map e.gas).sum

end GasAmounts

/-! ### The loops over the kinds -/

/-- The list of the kinds names each of them once. -/
theorem ResourceKind.nodup_all : ResourceKind.all.Nodup := by decide

/-- A sum over all kinds moves by the change of one term. -/
theorem ResourceKind.sum_update {M : Type} [AddCommMonoid M] (f : ResourceKind → M)
    (kind : ResourceKind) (v : M) :
    (ResourceKind.all.map (Function.update f kind v)).sum + f kind
      = (ResourceKind.all.map f).sum + v := by
  cases kind <;> simp [ResourceKind.all, Function.update] <;> abel

namespace GasAmounts.Balanced
variable {e x : GasAmounts}

/-- A sum of balanced numbers is balanced. -/
theorem add (he : e.Balanced) (hx : x.Balanced) : (e.add x).Balanced := by
  show e.total + x.total = (ResourceKind.all.map fun kind => e.gas kind + x.gas kind).sum
  rw [List.sum_map_add, he, hx]

/-- A difference of balanced numbers is balanced. -/
theorem sub (he : e.Balanced) (hx : x.Balanced) : (e.sub x).Balanced := by
  show e.total - x.total = (ResourceKind.all.map fun kind => e.gas kind - x.gas kind).sum
  have hsplit : (ResourceKind.all.map e.gas).sum
      = (ResourceKind.all.map fun kind => (e.gas kind - x.gas kind) + x.gas kind).sum := by
    simp only [Int.sub_add_cancel]
  rw [List.sum_map_add] at hsplit
  rw [he, hx]
  omega

/-- A change of one amount, with the total changed by as much. -/
theorem set (he : e.Balanced) (kind : ResourceKind) (amount : Int) :
    (e.set kind amount).Balanced := by
  have hsum := ResourceKind.sum_update e.gas kind amount
  show e.total - e.gas kind + amount = _
  rw [he]
  simp only [GasAmounts.set]
  omega

end GasAmounts.Balanced

/-- A sum that fits is the wrapped one, and no flag is raised. -/
theorem saturatingScalarAdd_of_lt {a b : U64} (h : a.toNat + b.toNat < 2 ^ 64) :
    saturatingScalarAdd a b = (a + b, false) := if_neg (by omega)

/-- A sum that does not fit is the largest word, with the flag. -/
theorem saturatingScalarAdd_of_le {a b : U64} (h : 2 ^ 64 ≤ a.toNat + b.toNat) :
    saturatingScalarAdd a b = (BitVec.allOnes 64, true) := if_pos h

/-- A difference that is not negative is exact, and no flag is raised. -/
theorem saturatingScalarSub_of_le {a b : U64} (h : b ≤ a) :
    saturatingScalarSub a b = (a - b, false) := if_neg (BitVec.not_lt.mpr h)

/-- A negative difference is zero, with the flag. -/
theorem saturatingScalarSub_of_lt {a b : U64} (h : a < b) :
    saturatingScalarSub a b = (0, true) := if_pos h

/-- A sum that fits does not wrap. -/
theorem toNat_add_of_lt {a b : U64} (h : a.toNat + b.toNat < 2 ^ 64) :
    (a + b).toNat = a.toNat + b.toNat := by
  rw [BitVec.toNat_add, Nat.mod_eq_of_lt h]

namespace MultiGas

/-- The exact sum of the amounts. -/
def sumAmounts (gas : ResourceKind → U64) : Nat :=
  (ResourceKind.all.map fun kind => (gas kind).toNat).sum

/-- The sum moves by the change of one amount. -/
theorem sumAmounts_update (gas : ResourceKind → U64) (kind : ResourceKind) (v : U64) :
    sumAmounts (Function.update gas kind v) + (gas kind).toNat
      = sumAmounts gas + v.toNat := by
  have hmap : (fun k => (Function.update gas kind v k).toNat)
      = Function.update (fun k => (gas k).toNat) kind v.toNat :=
    funext fun k => Function.apply_update (fun _ => BitVec.toNat) gas kind v k
  rw [sumAmounts, hmap]
  exact ResourceKind.sum_update _ kind v.toNat

/-- One amount is at most the sum. -/
theorem toNat_le_sumAmounts (gas : ResourceKind → U64) (kind : ResourceKind) :
    (gas kind).toNat ≤ sumAmounts gas :=
  List.single_le_sum (fun _ _ => Nat.zero_le _) _
    (List.mem_map.mpr ⟨kind, kind.mem_all, rfl⟩)

/-- No gas of any kind adds up to nothing. -/
theorem sumAmounts_zero : sumAmounts (fun _ => 0) = 0 := by decide

/-- The loop of `recomputeTotal` saturates at the first overflow. -/
theorem sumKinds_eq (gas : ResourceKind → U64) (kinds : List ResourceKind) (total : U64) :
    (sumKinds gas kinds total).1.toNat
        = min (total.toNat + (kinds.map fun kind => (gas kind).toNat).sum) (2 ^ 64 - 1)
      ∧ ((sumKinds gas kinds total).2 = true
        ↔ 2 ^ 64 ≤ total.toNat + (kinds.map fun kind => (gas kind).toNat).sum) := by
  induction kinds generalizing total with
  | nil =>
      have h := total.isLt
      simp [sumKinds]
      omega
  | cons kind kinds ih =>
      rw [List.map_cons, List.sum_cons, sumKinds]
      rcases Nat.lt_or_ge (total.toNat + (gas kind).toNat) (2 ^ 64) with h | h
      · rw [saturatingScalarAdd_of_lt h]
        obtain ⟨h₁, h₂⟩ := ih (total + gas kind)
        rw [toNat_add_of_lt h] at h₁ h₂
        simp only [Bool.false_eq_true, if_false]
        rw [h₁, h₂, Nat.add_assoc]
        exact ⟨rfl, Iff.rfl⟩
      -- The loop stops here. The kinds that are left can only raise the sum.
      · rw [saturatingScalarAdd_of_le h]
        simp
        omega

/-- The total after the recomputation is the clamped sum of the amounts. -/
theorem toNat_total_recomputeTotal (self : MultiGas) :
    (recomputeTotal self).1.total.toNat = min (sumAmounts self.gas) (2 ^ 64 - 1) := by
  have h := (sumKinds_eq self.gas ResourceKind.all 0).1
  rw [show (0 : U64).toNat = 0 from rfl, Nat.zero_add] at h
  exact h

/-- The recomputation is flagged exactly when the sum does not fit. -/
theorem recomputeTotal_flag (self : MultiGas) :
    (recomputeTotal self).2 = true ↔ 2 ^ 64 ≤ sumAmounts self.gas := by
  have h := (sumKinds_eq self.gas ResourceKind.all 0).2
  rw [show (0 : U64).toNat = 0 from rfl, Nat.zero_add] at h
  exact h

/-- The loop over the kinds stops when one of them has a flag. -/
theorem combineKinds_eq_none {op : U64 → U64 → U64 × Bool} {x : ResourceKind → U64}
    {kinds : List ResourceKind} (hnodup : kinds.Nodup) (gas : ResourceKind → U64)
    {kind : ResourceKind} (hmem : kind ∈ kinds) (hflag : (op (gas kind) (x kind)).2 = true) :
    combineKinds op x kinds gas = none := by
  induction kinds generalizing gas with
  | nil => cases hmem
  | cons head kinds ih =>
      obtain ⟨hhead, hnodup⟩ := List.nodup_cons.mp hnodup
      rw [combineKinds]
      by_cases hstop : (op (gas head) (x head)).2 = true
      · simp [hstop]
      · rcases List.mem_cons.mp hmem with rfl | hmem
        · exact absurd hflag hstop
        -- An earlier kind changes its own amount only, so the flag is still ahead.
        · have hne : kind ≠ head := fun h => hhead (h ▸ hmem)
          simp only [hstop, Bool.false_eq_true, if_false]
          exact ih hnodup _ hmem (by rwa [Function.update_of_ne hne])

/-- Without a flag, each kind of the loop is combined on its own. -/
theorem combineKinds_eq_some {op : U64 → U64 → U64 × Bool} {x : ResourceKind → U64}
    {kinds : List ResourceKind} (hnodup : kinds.Nodup) (gas : ResourceKind → U64)
    (hflag : ∀ kind ∈ kinds, (op (gas kind) (x kind)).2 = false) :
    combineKinds op x kinds gas
      = some fun kind => if kind ∈ kinds then (op (gas kind) (x kind)).1 else gas kind := by
  induction kinds generalizing gas with
  | nil => simp [combineKinds]
  | cons head kinds ih =>
      obtain ⟨hhead, hnodup⟩ := List.nodup_cons.mp hnodup
      have hne : ∀ kind ∈ kinds, kind ≠ head := fun kind hmem h => hhead (h ▸ hmem)
      rw [combineKinds]
      simp only [hflag head List.mem_cons_self, Bool.false_eq_true, if_false]
      rw [ih hnodup _ fun kind hmem => by
        rw [Function.update_of_ne (hne kind hmem)]
        exact hflag kind (List.mem_cons_of_mem _ hmem)]
      congr 1
      funext kind
      by_cases hmem : kind ∈ kinds
      · rw [if_pos hmem, if_pos (List.mem_cons_of_mem _ hmem),
          Function.update_of_ne (hne kind hmem)]
      · rw [if_neg hmem]
        by_cases heq : kind = head
        · rw [heq, Function.update_self, if_pos List.mem_cons_self]
        · rw [Function.update_of_ne heq, if_neg (by simp [heq, hmem])]

/-- The loop over all kinds, without a flag. -/
theorem combineKinds_all (op : U64 → U64 → U64 × Bool) {x gas : ResourceKind → U64}
    (hflag : ∀ kind, (op (gas kind) (x kind)).2 = false) :
    combineKinds op x ResourceKind.all gas = some fun kind => (op (gas kind) (x kind)).1 := by
  rw [combineKinds_eq_some ResourceKind.nodup_all gas fun kind _ => hflag kind]
  simp only [ResourceKind.mem_all, if_true]

/-! ### What each operation returns -/

section
variable (self x : MultiGas)

/-- A `with` that fits sets the amount and moves the total by the difference. -/
theorem with_of_fits {kind : ResourceKind} {amount : U64}
    (h : (self.total - self.gas kind).toNat + amount.toNat < 2 ^ 64) :
    self.«with» kind amount
      = ({ self with
            gas := Function.update self.gas kind amount
            total := self.total - self.gas kind + amount }, false) := by
  simp only [«with», saturatingScalarAdd_of_lt h, Bool.false_eq_true, if_false]

/-- A `with` that does not fit returns the receiver with the flag. -/
theorem with_of_not_fits {kind : ResourceKind} {amount : U64}
    (h : ¬(self.total - self.gas kind).toNat + amount.toNat < 2 ^ 64) :
    self.«with» kind amount = (self, true) := by
  simp only [«with», saturatingScalarAdd_of_le (Nat.not_lt.mp h), if_true]

/-- An increment that fits is exact in the amount and in the total. -/
theorem safeIncrement_of_fits {kind : ResourceKind} {gas : U64}
    (hkind : (self.gas kind).toNat + gas.toNat < 2 ^ 64)
    (htotal : self.total.toNat + gas.toNat < 2 ^ 64) :
    self.safeIncrement kind gas
      = ({ self with
            gas := Function.update self.gas kind (self.gas kind + gas)
            total := self.total + gas }, false) := by
  simp only [safeIncrement, saturatingScalarAdd_of_lt hkind, saturatingScalarAdd_of_lt htotal,
    Bool.false_eq_true, if_false]

/-- An increment that does not fit returns the receiver with the flag. -/
theorem safeIncrement_of_not_fits {kind : ResourceKind} {gas : U64}
    (h : ¬((self.gas kind).toNat + gas.toNat < 2 ^ 64
      ∧ self.total.toNat + gas.toNat < 2 ^ 64)) :
    self.safeIncrement kind gas = (self, true) := by
  unfold safeIncrement
  rcases Nat.lt_or_ge ((self.gas kind).toNat + gas.toNat) (2 ^ 64) with hkind | hkind
  -- The kind fits, so it is the total that overflows, and the new amount is dropped.
  · have htotal : 2 ^ 64 ≤ self.total.toNat + gas.toNat :=
      Nat.not_lt.mp fun hlt => h ⟨hkind, hlt⟩
    simp only [saturatingScalarAdd_of_lt hkind, saturatingScalarAdd_of_le htotal,
      Bool.false_eq_true, if_false, if_true]
  · simp only [saturatingScalarAdd_of_le hkind, if_true]

/-- No number of the sum overflows. -/
structure AddFits (a x : MultiGas) : Prop where
  gas : ∀ kind, (a.gas kind).toNat + (x.gas kind).toNat < 2 ^ 64
  total : a.total.toNat + x.total.toNat < 2 ^ 64
  refund : a.refund.toNat + x.refund.toNat < 2 ^ 64

variable {self x}

/-- A sum that fits is exact in all numbers. -/
theorem safeAdd_of_fits (h : AddFits self x) :
    self.safeAdd x
      = ({ gas := fun kind => self.gas kind + x.gas kind
           total := self.total + x.total
           refund := self.refund + x.refund }, false) := by
  have hkinds := combineKinds_all saturatingScalarAdd fun kind => by
    rw [saturatingScalarAdd_of_lt (h.gas kind)]
  simp only [safeAdd, hkinds, saturatingScalarAdd_of_lt h.total, saturatingScalarAdd_of_lt h.refund,
    saturatingScalarAdd_of_lt (h.gas _), Bool.false_eq_true, if_false]

/-- A sum that does not fit returns the receiver with the flag. -/
theorem safeAdd_of_not_fits (h : ¬AddFits self x) : self.safeAdd x = (self, true) := by
  unfold safeAdd
  by_cases hgas : ∀ kind, (self.gas kind).toNat + (x.gas kind).toNat < 2 ^ 64
  · rw [combineKinds_all _ fun kind => by rw [saturatingScalarAdd_of_lt (hgas kind)]]
    rcases Nat.lt_or_ge (self.total.toNat + x.total.toNat) (2 ^ 64) with htotal | htotal
    · have hrefund : 2 ^ 64 ≤ self.refund.toNat + x.refund.toNat :=
        Nat.not_lt.mp fun hlt => h ⟨hgas, htotal, hlt⟩
      simp only [saturatingScalarAdd_of_lt htotal, saturatingScalarAdd_of_le hrefund,
        Bool.false_eq_true, if_false, if_true]
    · simp only [saturatingScalarAdd_of_le htotal, if_true]
  · -- the loop stops at a kind
    obtain ⟨kind, hkind⟩ := not_forall.mp hgas
    rw [combineKinds_eq_none ResourceKind.nodup_all _ kind.mem_all
      (by rw [saturatingScalarAdd_of_le (Nat.not_lt.mp hkind)])]

/-- No number of the difference underflows. -/
structure SubFits (a x : MultiGas) : Prop where
  gas : ∀ kind, x.gas kind ≤ a.gas kind
  refund : x.refund ≤ a.refund

/-- A difference that fits is exact in all numbers. -/
theorem safeSub_of_fits (h : SubFits self x) :
    self.safeSub x
      = ((recomputeTotal { self with
            gas := fun kind => self.gas kind - x.gas kind
            refund := self.refund - x.refund }).1, false) := by
  have hkinds := combineKinds_all saturatingScalarSub fun kind => by
    rw [saturatingScalarSub_of_le (h.gas kind)]
  simp only [safeSub, hkinds, saturatingScalarSub_of_le h.refund,
    saturatingScalarSub_of_le (h.gas _), Bool.false_eq_true, if_false]

/-- A difference that does not fit returns the receiver with the flag. -/
theorem safeSub_of_not_fits (h : ¬SubFits self x) : self.safeSub x = (self, true) := by
  unfold safeSub
  by_cases hgas : ∀ kind, x.gas kind ≤ self.gas kind
  · rw [combineKinds_all _ fun kind => by rw [saturatingScalarSub_of_le (hgas kind)]]
    have hrefund : self.refund < x.refund := BitVec.not_le.mp fun hle => h ⟨hgas, hle⟩
    simp only [saturatingScalarSub_of_lt hrefund, if_true]
  · obtain ⟨kind, hkind⟩ := not_forall.mp hgas
    rw [combineKinds_eq_none ResourceKind.nodup_all _ kind.mem_all
      (by rw [saturatingScalarSub_of_lt (BitVec.not_le.mp hkind)])]

end

/-! ### Exact results -/

/-- The numbers of the value. -/
def amounts (self : MultiGas) : GasAmounts where
  gas kind := (self.gas kind).toNat
  total := self.total.toNat
  refund := self.refund.toNat

/-- The numbers of a value are words, so they are in range. -/
theorem amounts_inRange (self : MultiGas) : self.amounts.InRange where
  gas kind := by
    have := (self.gas kind).isLt
    simp only [amounts]
    omega
  total := by
    have := self.total.isLt
    simp only [amounts]
    omega
  refund := by
    have := self.refund.isLt
    simp only [amounts]
    omega

/-- Replacing one amount and the total in the numbers. -/
theorem amounts_update {self : MultiGas} {kind : ResourceKind} {v : U64} {total : U64} :
    ({ self with gas := Function.update self.gas kind v, total := total } : MultiGas).amounts
      = { self.amounts with
            gas := Function.update self.amounts.gas kind v.toNat
            total := total.toNat } := by
  ext k
  · by_cases h : k = kind
    · subst h
      simp [amounts]
    · simp [amounts, Function.update_of_ne h]
  · rfl
  · rfl

/-- The total is the sum of the amounts. -/
def Balanced (self : MultiGas) : Prop := self.total.toNat = sumAmounts self.gas

/-- The result of an operation with the exact numbers `e`: the flag tells that a number
leaves the range, and the receiver is returned then. -/
structure IsExact (receiver : MultiGas) (e : GasAmounts) (r : MultiGas × Bool) : Prop where
  flag : r.2 = true ↔ ¬e.InRange
  unchanged : r.2 = true → r.1 = receiver
  exact : r.2 = false → r.1.amounts = e

namespace IsExact
variable {self : MultiGas} {e : GasAmounts}

/-- The result with the flag is right when an exact number leaves the range. -/
theorem of_flag (h : ¬e.InRange) : IsExact self e (self, true) where
  flag := ⟨fun _ => h, fun _ => rfl⟩
  unchanged _ := rfl
  exact hfalse := absurd hfalse Bool.noConfusion

/-- The result without the flag is right when its numbers are the exact ones. -/
theorem of_value {m : MultiGas} (h : m.amounts = e) : IsExact self e (m, false) where
  flag := ⟨fun htrue => absurd htrue Bool.noConfusion,
    fun hout => absurd (h ▸ m.amounts_inRange) hout⟩
  unchanged htrue := absurd htrue Bool.noConfusion
  exact _ := h

end IsExact

namespace Balanced
variable {self x : MultiGas}

/-- No amount of a balanced value exceeds the total. -/
theorem toNat_gas_le (h : self.Balanced) (kind : ResourceKind) :
    (self.gas kind).toNat ≤ self.total.toNat := by
  rw [h]
  exact toNat_le_sumAmounts self.gas kind

/-- `with` is exact on a balanced value. -/
theorem with_isExact (h : self.Balanced) (kind : ResourceKind) (amount : U64) :
    IsExact self (self.amounts.set kind amount.toNat) (self.«with» kind amount) := by
  have hle := h.toNat_gas_le kind
  -- the subtraction does not wrap
  have hbase : (self.total - self.gas kind).toNat = self.total.toNat - (self.gas kind).toNat :=
    BitVec.toNat_sub_of_le hle
  by_cases hfits : (self.total - self.gas kind).toNat + amount.toNat < 2 ^ 64
  · rw [with_of_fits self hfits]
    refine .of_value ?_
    rw [amounts_update, toNat_add_of_lt hfits, hbase]
    simp only [GasAmounts.set, amounts]
    congr 1
    omega
  · rw [with_of_not_fits self hfits]
    refine .of_flag ?_
    intro hin
    -- Exact numbers in range would make the sum fit.
    have := hin.total.2
    simp only [GasAmounts.set, amounts] at this
    omega

/-- The increment is exact on a balanced value. -/
theorem safeIncrement_isExact (h : self.Balanced) (kind : ResourceKind) (gas : U64) :
    IsExact self (self.amounts.increment kind gas.toNat) (self.safeIncrement kind gas) := by
  have hle := h.toNat_gas_le kind
  by_cases htotal : self.total.toNat + gas.toNat < 2 ^ 64
  · -- the amount fits because the total does
    have hkind : (self.gas kind).toNat + gas.toNat < 2 ^ 64 := by omega
    rw [safeIncrement_of_fits self hkind htotal]
    refine .of_value ?_
    rw [amounts_update, toNat_add_of_lt htotal, toNat_add_of_lt hkind]
    simp only [GasAmounts.increment, GasAmounts.set, amounts]
    congr 1
    omega
  · rw [safeIncrement_of_not_fits self fun hfits => htotal hfits.2]
    refine .of_flag ?_
    intro hin
    have := hin.total.2
    simp only [GasAmounts.increment, GasAmounts.set, amounts] at this
    omega

/-- The total is added like each kind, so the invariant is not used. -/
theorem safeAdd_isExact (self x : MultiGas) :
    IsExact self (self.amounts.add x.amounts) (self.safeAdd x) := by
  by_cases hfits : AddFits self x
  · rw [safeAdd_of_fits hfits]
    refine .of_value ?_
    ext kind
    · simp only [amounts, GasAmounts.add, toNat_add_of_lt (hfits.gas kind), Nat.cast_add]
    · simp only [amounts, GasAmounts.add, toNat_add_of_lt hfits.total, Nat.cast_add]
    · simp only [amounts, GasAmounts.add, toNat_add_of_lt hfits.refund, Nat.cast_add]
  · rw [safeAdd_of_not_fits hfits]
    refine .of_flag fun hin => hfits ⟨fun kind => ?_, ?_, ?_⟩
    · have := (hin.gas kind).2
      simp only [GasAmounts.add, amounts] at this
      omega
    · have := hin.total.2
      simp only [GasAmounts.add, amounts] at this
      omega
    · have := hin.refund.2
      simp only [GasAmounts.add, amounts] at this
      omega

/-- The total is recomputed. It is the difference of the totals as both are sums. -/
theorem safeSub_isExact (hself : self.Balanced) (hx : x.Balanced) :
    IsExact self (self.amounts.sub x.amounts) (self.safeSub x) := by
  by_cases hfits : SubFits self x
  swap
  · rw [safeSub_of_not_fits hfits]
    refine .of_flag fun hin => hfits ⟨fun kind => ?_, ?_⟩
    · have := (hin.gas kind).1
      simp only [GasAmounts.sub, amounts] at this
      rw [BitVec.le_def]
      omega
    · have := hin.refund.1
      simp only [GasAmounts.sub, amounts] at this
      rw [BitVec.le_def]
      omega
  have hgas : ∀ kind, (self.gas kind - x.gas kind).toNat + (x.gas kind).toNat
      = (self.gas kind).toNat := by
    intro kind
    have hle := hfits.gas kind
    rw [BitVec.toNat_sub_of_le hle]
    rw [BitVec.le_def] at hle
    omega
  -- the sum of the differences is a difference of sums
  have hsum : sumAmounts (fun kind => self.gas kind - x.gas kind) + sumAmounts x.gas
      = sumAmounts self.gas := by
    rw [sumAmounts, sumAmounts, ← List.sum_map_add, sumAmounts]
    simp only [hgas]
  have hlt := self.total.isLt
  have htotal : self.total.toNat = sumAmounts self.gas := hself
  have htotal' : x.total.toNat = sumAmounts x.gas := hx
  -- The recomputed total does not saturate: it is at most the total of the receiver.
  rw [safeSub_of_fits hfits]
  refine .of_value ?_
  ext kind
  · show ((self.gas kind - x.gas kind).toNat : Int) = (self.gas kind).toNat - (x.gas kind).toNat
    have := hgas kind
    omega
  · simp only [amounts, GasAmounts.sub, toNat_total_recomputeTotal]
    omega
  · show ((self.refund - x.refund).toNat : Int) = self.refund.toNat - x.refund.toNat
    have hle := hfits.refund
    rw [BitVec.toNat_sub_of_le hle]
    rw [BitVec.le_def] at hle
    omega

end Balanced

/-- The invariant of a value is that of its exact numbers. -/
theorem balanced_iff (self : MultiGas) : self.Balanced ↔ self.amounts.Balanced := by
  have hsum :
      (ResourceKind.all.map self.amounts.gas).sum = ((sumAmounts self.gas : Nat) : Int) := by
    simp [sumAmounts, amounts, ResourceKind.all]
  rw [Balanced, GasAmounts.Balanced, hsum]
  exact Nat.cast_inj.symm

/-- An exact operation keeps the invariant when the exact numbers do. -/
theorem IsExact.balanced {self : MultiGas} {e : GasAmounts} {r : MultiGas × Bool}
    (h : IsExact self e r) (hself : self.Balanced) (he : e.Balanced) : r.1.Balanced := by
  cases hflag : r.2 with
  | true => rwa [h.unchanged hflag]
  | false => rwa [balanced_iff, h.exact hflag]

/-! ### Values built by exact operations -/

/-- `fromPairs` panics exactly when the sum of its amounts does not fit, and sets the
amounts otherwise. -/
theorem fromPairs_eq (pairs : List Pair) :
    (fromPairs pairs = .error "multigas overflow" ↔ 2 ^ 64 ≤ sumAmounts (assignPairs pairs))
      ∧ ∀ m, fromPairs pairs = .ok m →
        m.gas = assignPairs pairs ∧ m.refund = 0 ∧ m.Balanced := by
  have hflag := recomputeTotal_flag { zero with gas := assignPairs pairs }
  have htotal := toNat_total_recomputeTotal { zero with gas := assignPairs pairs }
  unfold fromPairs
  dsimp only at hflag htotal ⊢
  by_cases h : (recomputeTotal { zero with gas := assignPairs pairs }).2 = true
  · rw [if_pos h]
    refine ⟨⟨fun _ => hflag.mp h, fun _ => rfl⟩, ?_⟩
    rintro m ⟨⟩
  · rw [if_neg h]
    refine ⟨⟨?_, fun hle => absurd (hflag.mpr hle) h⟩, ?_⟩
    · rintro ⟨⟩
    rintro m ⟨⟩
    refine ⟨rfl, rfl, ?_⟩
    -- without the flag the sum is below the bound of the minimum
    rw [hflag] at h
    rw [Balanced, htotal]
    show _ = sumAmounts (assignPairs pairs)
    omega

/-- The amount of the last pair of the kind, and zero when there is none. -/
def lastAmount (pairs : List Pair) (kind : ResourceKind) : U64 :=
  ((pairs.reverse.find? fun p => p.kind = kind).map Pair.amount).getD 0

/-- The last pair of a kind wins. -/
theorem assignPairs_eq_lastAmount (pairs : List Pair) : assignPairs pairs = lastAmount pairs := by
  funext kind
  induction pairs using List.reverseRecOn with
  | nil => rfl
  | append_singleton pairs p ih =>
      -- The pairs are written in order, so the last one is the outermost update.
      have hstep : assignPairs (pairs ++ [p])
          = Function.update (assignPairs pairs) p.kind p.amount := by
        rw [assignPairs, List.foldl_append]
        rfl
      rw [hstep, lastAmount, List.reverse_append, List.reverse_singleton, List.singleton_append]
      by_cases h : p.kind = kind
      · rw [List.find?_cons_of_pos (by simpa using h), ← h, Function.update_self]
        rfl
      · rw [List.find?_cons_of_neg (by simpa using h), Function.update_of_ne (Ne.symm h), ih]
        rfl

end MultiGas

/-- The operations that turn a value into another one. A sum and a difference have a
second operand. -/
inductive GasOp where
  | with (kind : ResourceKind) (amount : U64)
  | withRefund (amount : U64)
  | safeAdd (x : MultiGas)
  | saturatingAdd (x : MultiGas)
  | saturatingAddInto (x : MultiGas)
  | safeSub (x : MultiGas)
  | saturatingSub (x : MultiGas)
  | safeIncrement (kind : ResourceKind) (gas : U64)
  | saturatingIncrement (kind : ResourceKind) (gas : U64)
  | saturatingIncrementInto (kind : ResourceKind) (gas : U64)
  | saturatingDecrement (kind : ResourceKind) (gas : U64)

namespace GasOp

/-- The second operand. -/
def operand : GasOp → Option MultiGas
  | .safeAdd x | .saturatingAdd x | .saturatingAddInto x | .safeSub x | .saturatingSub x => some x
  | _ => none

/-- The value after the operation. -/
def apply (self : MultiGas) : GasOp → MultiGas
  | .with kind amount => (self.«with» kind amount).1
  | .withRefund amount => self.withRefund amount
  | .safeAdd x => (self.safeAdd x).1
  | .saturatingAdd x => self.saturatingAdd x
  | .saturatingAddInto x => self.saturatingAddInto x
  | .safeSub x => (self.safeSub x).1
  | .saturatingSub x => self.saturatingSub x
  | .safeIncrement kind gas => (self.safeIncrement kind gas).1
  | .saturatingIncrement kind gas => self.saturatingIncrement kind gas
  | .saturatingIncrementInto kind gas => self.saturatingIncrementInto kind gas
  | .saturatingDecrement kind gas => self.saturatingDecrement kind gas

/-- The operation does not saturate. -/
def Exact : GasOp → Prop
  | .with _ _ | .withRefund _ | .safeAdd _ | .safeSub _ | .safeIncrement _ _ => True
  | _ => False

end GasOp

namespace MultiGas

/-- A value that is built from `zero`, `new` and `fromPairs` by operations that are
`Allowed` where they are applied. A second operand is such a value as well. -/
inductive Reachable (Allowed : MultiGas → GasOp → Prop) : MultiGas → Prop
  | zero : Reachable Allowed zero
  | new (kind : ResourceKind) (amount : U64) : Reachable Allowed (new kind amount)
  | fromPairs {pairs : List Pair} {m : MultiGas} (h : fromPairs pairs = .ok m) :
      Reachable Allowed m
  | apply {self : MultiGas} {op : GasOp} (hself : Reachable Allowed self)
      (hoperand : ∀ x, op.operand = some x → Reachable Allowed x) (hop : Allowed self op) :
      Reachable Allowed (op.apply self)

/-- The empty value is balanced. -/
theorem balanced_zero : zero.Balanced := by
  show (0 : U64).toNat = _
  rw [zero, sumAmounts_zero]
  rfl

/-- A value of one kind is balanced. -/
theorem balanced_new (kind : ResourceKind) (amount : U64) : (new kind amount).Balanced := by
  have hsum := sumAmounts_update (fun _ => 0) kind amount
  rw [sumAmounts_zero] at hsum
  show amount.toNat = sumAmounts (Function.update (fun _ => 0) kind amount)
  have hzero : (0 : U64).toNat = 0 := rfl
  omega

/-- The invariant holds of every value that the exact operations build. -/
theorem Reachable.balanced {self : MultiGas}
    (h : Reachable (fun _ op => op.Exact) self) : self.Balanced := by
  induction h with
  | zero => exact balanced_zero
  | new kind amount => exact balanced_new kind amount
  | fromPairs h => exact ((fromPairs_eq _).2 _ h).2.2
  | @apply self op hself hoperand hop ih ihoperand =>
      have hamounts := (balanced_iff self).mp ih
      cases op with
      | «with» kind amount => exact (ih.with_isExact kind amount).balanced ih (hamounts.set _ _)
      | withRefund amount => exact ih
      | safeAdd x =>
          have hx := ihoperand x rfl
          exact (Balanced.safeAdd_isExact self x).balanced ih
            (hamounts.add ((balanced_iff x).mp hx))
      | safeSub x =>
          have hx := ihoperand x rfl
          exact (ih.safeSub_isExact hx).balanced ih (hamounts.sub ((balanced_iff x).mp hx))
      | safeIncrement kind gas =>
          exact (ih.safeIncrement_isExact kind gas).balanced ih (hamounts.set _ _)
      -- the saturating operations are not exact
      | _ => exact hop.elim

/-- Multi-gas arithmetic is exact. Of every value that the exact operations build, the
total is the sum of the amounts, and each operation on it is exact. `fromPairs` panics
exactly when the sum of the amounts does not fit. -/
theorem exact_of_reachable :
    (∀ self, Reachable (fun _ op => op.Exact) self →
      self.total.toNat = sumAmounts self.gas
      ∧ (∀ kind amount,
          IsExact self (self.amounts.set kind amount.toNat) (self.«with» kind amount))
      ∧ (∀ amount, (self.withRefund amount).amounts
          = { self.amounts with refund := amount.toNat })
      ∧ (∀ x, Reachable (fun _ op => op.Exact) x →
          IsExact self (self.amounts.add x.amounts) (self.safeAdd x)
          ∧ IsExact self (self.amounts.sub x.amounts) (self.safeSub x))
      ∧ ∀ kind gas,
          IsExact self (self.amounts.increment kind gas.toNat) (self.safeIncrement kind gas))
    ∧ ∀ pairs,
        (fromPairs pairs = .error "multigas overflow"
          ↔ 2 ^ 64 ≤ sumAmounts (lastAmount pairs))
        ∧ ∀ m, fromPairs pairs = .ok m → m.gas = lastAmount pairs ∧ m.refund = 0 := by
  refine ⟨fun self hself => ?_, fun pairs => ?_⟩
  · have hbalanced := hself.balanced
    refine ⟨hbalanced, hbalanced.with_isExact, fun amount => rfl, fun x hx => ?_,
      hbalanced.safeIncrement_isExact⟩
    exact ⟨Balanced.safeAdd_isExact self x, hbalanced.safeSub_isExact hx.balanced⟩
  · obtain ⟨hpanic, hok⟩ := fromPairs_eq pairs
    rw [assignPairs_eq_lastAmount] at hpanic hok
    exact ⟨hpanic, fun m hm => ⟨(hok m hm).1, (hok m hm).2.1⟩⟩

/-- A total at the largest word: one more unit of any kind is refused. -/
theorem exact_of_reachable_sample :
    ((new .computation (BitVec.allOnes 64)).safeIncrement .l2Calldata 1).2 = true :=
  ((exact_of_reachable.1 _ (.new .computation (BitVec.allOnes 64))).2.2.2.2 .l2Calldata 1).flag.mpr
    fun h => absurd h.total.2 (by decide)

end MultiGas

end ArbReth
