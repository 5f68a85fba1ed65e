import ArbReth.L1Pricing.LegacyReference
import ArbReth.Proofs.L1Pricing.Price
import ArbReth.Proofs.L1Pricing.Units

/-!
# `ArbReth.Proofs.L1Pricing.LegacyReference`: the update before version 2 against its reference

Where the reference has a result, each stage of it but two is the stage of the code: no sum
saturates, and no payment is refused. The two are the units, where the product of the
reference wraps, and the price, where the code truncates the quotient.

The dividend of the price change is written in the state before the update. The surplus at
the end is the surplus at the start, less what became due, and with the payments that the
pool account made to itself (`returned`): each stage moves `exactSurplus` by its own part.
-/

set_option autoImplicit false

namespace ArbReth

open ArbReth.Program ArbReth.Rounding

/-! ### Big integers -/

/-- A signed number that fits is passed on. -/
theorem fits_eq_some {x y : Int} : fits x = some y ↔ I256.InRange x ∧ x = y := by
  unfold fits
  split <;> simp_all

/-- An unsigned number that fits is passed on. -/
theorem fitsUnsigned_eq_some {x y : Int} :
    fitsUnsigned x = some y ↔ (0 ≤ x ∧ x < 2 ^ 256) ∧ x = y := by
  unfold fitsUnsigned
  split <;> simp_all

/-- The Euclidean quotient, when the divisor is not zero. -/
theorem bigDiv_eq_some {x y z : Int} :
    bigDiv x y = some z ↔ y ≠ 0 ∧ I256.InRange (x / y) ∧ x / y = z := by
  unfold bigDiv
  split
  · rename_i h
    simp [h]
  · rename_i h
    simp [h, fits_eq_some]

/-- A word that fits is converted to itself. -/
theorem I256.toInt_ofU256_of_inRange {x : U256} (h : InRange x.toNat) :
    (ofU256 x).toInt = x.toNat := by
  rw [toInt_ofU256]
  exact min_eq_left (Int.le_sub_one_of_lt h.2)

/-- The word of an integer that fits. -/
theorem toNat_ofInt_of_fits {x : Int} (h : 0 ≤ x ∧ x < 2 ^ 256) :
    ((BitVec.ofInt 256 x).toNat : Int) = x := by
  rw [BitVec.toNat_ofInt, Int.emod_eq_of_lt h.1 (by exact_mod_cast h.2)]
  exact Int.toNat_of_nonneg h.1

/-- A payment to the sender itself moves nothing. -/
theorem movedBalance_self (balance : Address → U256) (src : Address) (amount : U256) :
    movedBalance balance src src amount = balance := by
  funext a
  rw [movedBalance, if_pos rfl]

/-- A payment to another account is a subtraction and an addition. -/
theorem movedBalance_of_ne {src dst : Address} (h : src ≠ dst) (balance : Address → U256)
    (amount : U256) :
    movedBalance balance src dst amount
      = Function.update (Function.update balance src (balance src - amount)) dst
        (balance dst + amount) := by
  funext a
  rw [movedBalance, if_neg h]
  -- The destination is written last, and the source was written before it.
  by_cases hdst : a = dst
  · subst hdst
    rw [if_neg (Ne.symm h), if_pos rfl, Function.update_self]
  · rw [Function.update_of_ne hdst, if_neg hdst]
    by_cases hsrc : a = src
    · subst hsrc
      rw [if_pos rfl, Function.update_self]
    · rw [if_neg hsrc, Function.update_of_ne hsrc]

namespace L1Ledger
variable {L L' : L1Ledger}

/-! ### The stages -/

/-- The balance of the pool account less what is due, as an integer. -/
def exactSurplus (L : L1Ledger) : Int :=
  (L.balance l1PricerFundsPoolAddress).toNat
    - (L.totalFundsDue.toInt + L.fundsDueForRewards.toInt)

/-- The reference takes the exact surplus, where it has a result. -/
theorem referenceSurplus_spec {s : Int} (h : L.referenceSurplus = some s) :
    s = L.exactSurplus ∧ (L.surplus .pool).toInt = s := by
  simp only [referenceSurplus, bigAdd, bigSub, Option.bind_eq_bind, Option.bind_eq_some_iff,
    fits_eq_some] at h
  obtain ⟨pool, ⟨hpool, rfl⟩, due, ⟨hdue, rfl⟩, hsurplus, rfl⟩ := h
  -- The code could saturate twice. The numbers of the reference fit, so it does not.
  have hsum : (L.totalFundsDue.saturatingAdd L.fundsDueForRewards).toInt
      = L.totalFundsDue.toInt + L.fundsDueForRewards.toInt := I256.toInt_clamp_of_inRange hdue
  refine ⟨rfl, ?_⟩
  show (I256.clamp _).toInt = _
  rw [hsum, funds, I256.toInt_ofU256_of_inRange hpool]
  exact I256.toInt_clamp_of_inRange hsurplus

/-- Setting the amount due in the reference: the amount, and the total moved by the change. -/
theorem referenceSetFundsDue_spec {p : Address} {val : Int} (hval : I256.InRange val)
    (h : L.referenceSetFundsDue p val = some L') :
    L' = L.setFundsDue p (I256.clamp val)
      ∧ L'.totalFundsDue.toInt = L.totalFundsDue.toInt + val - (L.fundsDue p).toInt := by
  simp only [referenceSetFundsDue, bigAdd, bigSub, Option.bind_eq_bind, Option.bind_eq_some_iff,
    fits_eq_some, Option.pure_def, Option.some.injEq] at h
  obtain ⟨sum, ⟨hsum, rfl⟩, total, ⟨htotal, rfl⟩, rfl⟩ := h
  have hadd : (L.totalFundsDue.saturatingAdd (I256.clamp val)).toInt
      = L.totalFundsDue.toInt + val := by
    rw [I256.saturatingAdd, I256.toInt_clamp_of_inRange hval, I256.toInt_clamp_of_inRange hsum]
  refine ⟨?_, I256.toInt_clamp_of_inRange htotal⟩
  rw [setFundsDue, I256.saturatingSub, hadd]

/-- A payment that the reference makes is not refused. -/
theorem referenceTransfer_spec {dst : Address} {amount : U256}
    (h : L.referenceTransfer dst amount.toNat = some L') :
    L.refusal dst amount = none ∧ L' = L.pay .pool dst amount
      ∧ ((L'.balance l1PricerFundsPoolAddress).toNat : Int)
        = (L.balance l1PricerFundsPoolAddress).toNat
          - (if dst = l1PricerFundsPoolAddress then 0 else amount.toNat) := by
  have hpoolLt := (L.balance l1PricerFundsPoolAddress).isLt
  have hdstLt := (L.balance dst).isLt
  unfold referenceTransfer at h
  dsimp only at h
  by_cases hfunds : ((L.balance l1PricerFundsPoolAddress).toNat : Int) < amount.toNat
  · rw [if_pos hfunds] at h
    exact nomatch h
  rw [if_neg hfunds] at h
  simp only [Option.bind_eq_bind, Option.bind_eq_some_iff, fitsUnsigned_eq_some, Option.pure_def,
    Option.some.injEq] at h
  obtain ⟨sum, ⟨hsum, rfl⟩, rfl⟩ := h
  -- The pool account covers the amount, so the wrapping subtraction is exact.
  have hrest := toNat_ofInt_of_fits
    (x := (L.balance l1PricerFundsPoolAddress).toNat - amount.toNat) (by omega)
  have hout : L.balance l1PricerFundsPoolAddress - amount
      = BitVec.ofInt 256 ((L.balance l1PricerFundsPoolAddress).toNat - amount.toNat) := by
    apply BitVec.eq_of_toNat_eq
    rw [BitVec.toNat_sub_of_le (BitVec.le_def.mpr (by omega))]
    omega
  have henough : ¬L.balance l1PricerFundsPoolAddress < amount := by
    rw [BitVec.lt_def]
    omega
  by_cases hself : dst = l1PricerFundsPoolAddress
  -- what is taken from the pool account comes back
  · subst hself
    rw [Function.update_self] at hsum
    have hback : BitVec.ofInt 256 (((BitVec.ofInt 256
        ((L.balance l1PricerFundsPoolAddress).toNat - amount.toNat)).toNat : Int) + amount.toNat)
          = L.balance l1PricerFundsPoolAddress := by
      have hsame := toNat_ofInt_of_fits hsum
      apply BitVec.eq_of_toNat_eq
      omega
    rw [Function.update_self, Function.update_idem, hback, Function.update_eq_self, if_pos rfl]
    refine ⟨?_, ?_, ?_⟩
    · rw [refusal, transferRefusal, if_neg henough, if_neg fun h => h.1 rfl]
    · rw [pay, movedBalance_self]
    · exact (Int.sub_zero _).symm
  · rw [Function.update_of_ne hself] at hsum ⊢
    have hin := toNat_ofInt_of_fits hsum
    refine ⟨?_, ?_, ?_⟩
    · rw [refusal, transferRefusal, if_neg henough, if_neg]
      omega
    · have hsum' : L.balance dst + amount
          = BitVec.ofInt 256 ((L.balance dst).toNat + amount.toNat) := by
        apply BitVec.eq_of_toNat_eq
        rw [BitVec.toNat_add, Nat.mod_eq_of_lt (by omega)]
        omega
      rw [pay, movedBalance_of_ne (Ne.symm hself), hout, hsum']
    · show ((Function.update (Function.update L.balance l1PricerFundsPoolAddress _) dst _
        l1PricerFundsPoolAddress).toNat : Int) = _
      rw [Function.update_of_ne (Ne.symm hself), Function.update_self, if_neg hself]
      exact hrest

/-- The credit of the wei spent in the reference is that of the code, where it fits. -/
theorem referenceCredit_spec {p : Address} {weiSpent : U256}
    (h : L.referenceCredit p weiSpent = some L') :
    L' = L.credit p weiSpent ∧ (L'.fundsDue p).toInt = (L.fundsDue p).toInt + weiSpent.toNat
      ∧ L'.exactSurplus = L.exactSurplus - weiSpent.toNat := by
  simp only [referenceCredit, bigAdd, Option.bind_eq_bind, Option.bind_eq_some_iff,
    fits_eq_some] at h
  obtain ⟨wei, ⟨hwei, rfl⟩, due, ⟨hdue, rfl⟩, hset⟩ := h
  obtain ⟨hL', htotal⟩ := referenceSetFundsDue_spec hdue hset
  have hcredit : L' = L.credit p weiSpent := by
    rw [hL', credit, I256.saturatingAdd, I256.toInt_ofU256_of_inRange hwei]
  refine ⟨hcredit, ?_, ?_⟩
  · rw [hL']
    simp only [setFundsDue, Function.update_self]
    exact I256.toInt_clamp_of_inRange hdue
  · have hsame : L'.balance = L.balance ∧ L'.fundsDueForRewards = L.fundsDueForRewards := by
      rw [hL']
      exact ⟨rfl, rfl⟩
    rw [exactSurplus, exactSurplus, htotal, hsame.1, hsame.2]
    omega

/-- The credit of the rewards in the reference is that of the code, where it fits. -/
theorem referenceAccrue_spec {units : U64} (h : L.referenceAccrue units = some L') :
    L' = L.accrue units
      ∧ L'.exactSurplus = L.exactSurplus - units.toNat * L.perUnitReward.toNat := by
  simp only [referenceAccrue, bigAdd, bigMul, Option.bind_eq_bind, Option.bind_eq_some_iff,
    fits_eq_some, Option.pure_def, Option.some.injEq] at h
  obtain ⟨reward, ⟨hreward, rfl⟩, due, ⟨hdue, rfl⟩, rfl⟩ := h
  have hproduct : ((I256.ofU256 (U256.ofU64 units)).saturatingMul
      (I256.ofU256 (U256.ofU64 L.perUnitReward))).toInt
        = (units.toNat : Int) * L.perUnitReward.toNat := by
    rw [I256.saturatingMul, I256.toInt_ofU256_ofU64, I256.toInt_ofU256_ofU64]
    exact I256.toInt_clamp_of_inRange hreward
  refine ⟨?_, ?_⟩
  · rw [accrue, I256.saturatingAdd, hproduct]
  · show ((L.balance l1PricerFundsPoolAddress).toNat : Int)
      - (L.totalFundsDue.toInt + (I256.clamp _).toInt) = _
    rw [I256.toInt_clamp_of_inRange hdue, exactSurplus]
    omega

/-- The units are taken, and the wei and the reward become due. -/
theorem referenceAccount_spec {p : Address} {weiSpent : U256} {units : U64} {L₁ L₂ : L1Ledger}
    (hcredit : (L.takeUnits units).referenceCredit p weiSpent = some L₁)
    (haccrue : L₁.referenceAccrue units = some L₂) :
    L₂ = L.legacyAccount units p weiSpent
      ∧ (fun q => (L₂.fundsDue q).toInt)
        = Function.update (fun q => (L.fundsDue q).toInt) p
          ((L.fundsDue p).toInt + weiSpent.toNat)
      ∧ L₂.exactSurplus
        = L.exactSurplus - weiSpent.toNat - units.toNat * L.perUnitReward.toNat := by
  obtain ⟨hL₁, hdue, hcredited⟩ := referenceCredit_spec hcredit
  obtain ⟨hL₂, haccrued⟩ := referenceAccrue_spec haccrue
  have haccount : L₂ = L.legacyAccount units p weiSpent := by
    rw [hL₂, hL₁]
    rfl
  refine ⟨haccount, ?_, ?_⟩
  · funext q
    by_cases hq : q = p
    · rw [hq, Function.update_self, hL₂]
      exact hdue
    · rw [Function.update_of_ne hq, haccount]
      show (Function.update L.fundsDue p _ q).toInt = _
      rw [Function.update_of_ne hq]
  · have hreward : L₁.perUnitReward = L.perUnitReward := by
      rw [hL₁]
      rfl
    have htake : (L.takeUnits units).exactSurplus = L.exactSurplus := rfl
    rw [haccrued, hcredited, hreward, htake]

/-! ### The payments -/

/-- The payment of the rewards as a number: what is available, or what is due. -/
theorem toNat_legacyReward (L : L1Ledger) (availableFunds : U256) (units : U64) :
    (L.legacyReward availableFunds units).toNat
      = min availableFunds.toNat (L.perUnitReward.toNat * units.toNat) := by
  have howed := L.toNat_owedReward units
  unfold legacyReward
  -- The smaller of the two, whichever way the comparison goes.
  split
  · rename_i h
    rw [BitVec.lt_def, howed] at h
    omega
  · rename_i h
    rw [BitVec.lt_def, howed] at h
    omega

/-- The payment to a poster as a number: what is available, or what is due. -/
theorem toNat_legacyPayment (L : L1Ledger) (availableFunds : U256) (p : Address) :
    ((L.legacyPayment availableFunds p).toNat : Int)
      = max 0 (min (availableFunds.toNat : Int) (L.fundsDue p).toInt) := by
  unfold legacyPayment
  split
  · rename_i h
    have hpos := (I256.isPositive_iff _).mp h
    have hdue := I256.toNat_toU256 (x := L.fundsDue p) (by omega)
    rw [toNat_minWord]
    omega
  · rename_i h
    rw [I256.isPositive_iff] at h
    have hzero : ((0 : U256).toNat : Int) = 0 := rfl
    omega

/-- What a list of payments from the pool account gives back to it. -/
def returned (payTo : Address → Address) :
    List Address → (availableFunds : Int) → (due : Address → Int) → Int
  | [], _, _ => 0
  | p :: posters, availableFunds, due =>
      let amount := max 0 (min availableFunds (due p))
      (if payTo p = l1PricerFundsPoolAddress then amount else 0)
        + returned payTo posters (availableFunds - amount) (Function.update due p (due p - amount))

/-- The payment of the rewards in the reference is that of the code, where it has a result. -/
theorem referencePayRewards_spec {units : U64} {availableFunds : U256} {rest : Int}
    (h : L.referencePayRewards units availableFunds.toNat = some (rest, L')) :
    (L.debitRewards (L.legacyReward availableFunds units)).refusal L.payRewardsTo
        (L.legacyReward availableFunds units) = none
      ∧ L' = L.legacyPaidRewards availableFunds units
      ∧ rest = (availableFunds - L.legacyReward availableFunds units).toNat
      ∧ L'.exactSurplus = L.exactSurplus
        + if L.payRewardsTo = l1PricerFundsPoolAddress then
            ((L.legacyReward availableFunds units).toNat : Int) else 0 := by
  have hreward := L.toNat_legacyReward availableFunds units
  have hunits := L.perUnitReward_mul_lt units
  -- The reference and the code take the same minimum.
  have hpayment : (if (availableFunds.toNat : Int) < L.perUnitReward.toNat * units.toNat then
      (availableFunds.toNat : Int) else L.perUnitReward.toNat * units.toNat)
        = (L.legacyReward availableFunds units).toNat := by
    rw [hreward, ← Int.natCast_mul]
    split <;> omega
  simp only [referencePayRewards, bigMul, bigSub, Option.bind_eq_bind, Option.bind_eq_some_iff,
    fits_eq_some, Option.pure_def, Option.some.injEq, Prod.mk.injEq] at h
  obtain ⟨owed, ⟨howed, rfl⟩, due, ⟨hdue, rfl⟩, L₁, htransfer, rfl, rfl⟩ := h
  rw [hpayment] at hdue htransfer ⊢
  have hword : (I256.ofU256 (L.legacyReward availableFunds units)).toInt
      = (L.legacyReward availableFunds units).toNat :=
    I256.toInt_ofU256_of_inRange ⟨by omega, by omega⟩
  have hdebit : L.debitRewards (L.legacyReward availableFunds units)
      = { L with
          fundsDueForRewards :=
            I256.clamp (L.fundsDueForRewards.toInt
              - (L.legacyReward availableFunds units).toNat) } := by
    rw [debitRewards, I256.saturatingSub, hword]
  rw [← hdebit] at htransfer
  obtain ⟨hrefusal, hL', hpool⟩ := referenceTransfer_spec htransfer
  refine ⟨hrefusal, hL', ?_, ?_⟩
  · rw [BitVec.toNat_sub_of_le (BitVec.le_def.mpr (by omega))]
    omega
  · have hsame : L₁.totalFundsDue = L.totalFundsDue
        ∧ L₁.fundsDueForRewards.toInt
          = L.fundsDueForRewards.toInt - (L.legacyReward availableFunds units).toNat := by
      rw [hL', hdebit]
      exact ⟨rfl, I256.toInt_clamp_of_inRange hdue⟩
    have hbalance :
        (L.debitRewards (L.legacyReward availableFunds units)).balance = L.balance := rfl
    rw [exactSurplus, exactSurplus, hpool, hsame.1, hsame.2, hbalance]
    split <;> omega

/-- One payment to a poster. -/
theorem referencePayPoster_spec {L₁ L₂ : L1Ledger} {p : Address} {amount : U256}
    (hle : (amount.toNat : Int) ≤ (L.fundsDue p).toInt)
    (htransfer : L.referenceTransfer (L.payTo p) amount.toNat = some L₁)
    (hset : L₁.referenceSetFundsDue p ((L.fundsDue p).toInt - amount.toNat) = some L₂) :
    L.refusal (L.payTo p) amount = none ∧ L₂ = L.legacySettle p amount
      ∧ (fun q => (L₂.fundsDue q).toInt)
        = Function.update (fun q => (L.fundsDue q).toInt) p
          ((L.fundsDue p).toInt - amount.toNat)
      ∧ L₂.exactSurplus = L.exactSurplus
        + if L.payTo p = l1PricerFundsPoolAddress then (amount.toNat : Int) else 0 := by
  have hlt := (L.fundsDue p).toInt_lt
  have hfits : I256.InRange ((L.fundsDue p).toInt - amount.toNat) := ⟨by omega, by omega⟩
  have hword : (I256.ofU256 amount).toInt = amount.toNat :=
    I256.toInt_ofU256_of_inRange ⟨by omega, by omega⟩
  obtain ⟨hrefusal, hL₁, hpool⟩ := referenceTransfer_spec htransfer
  obtain ⟨hL₂, htotal⟩ := referenceSetFundsDue_spec hfits hset
  have hdue : L₁.fundsDue = L.fundsDue ∧ L₁.totalFundsDue = L.totalFundsDue
      ∧ L₁.fundsDueForRewards = L.fundsDueForRewards := by
    rw [hL₁]
    exact ⟨rfl, rfl, rfl⟩
  have hsame : L₂.balance = L₁.balance ∧ L₂.fundsDueForRewards = L₁.fundsDueForRewards := by
    rw [hL₂]
    exact ⟨rfl, rfl⟩
  refine ⟨hrefusal, ?_, ?_, ?_⟩
  · rw [hL₂, hL₁, legacySettle, I256.saturatingSub, hword]
  · funext q
    rw [hL₂]
    simp only [setFundsDue, hdue.1, Function.update_apply]
    split
    · exact I256.toInt_clamp_of_inRange hfits
    · rfl
  -- The pool and the total fall by the same amount, unless the pool pays itself.
  · rw [exactSurplus, exactSurplus, hsame.1, hsame.2, hpool, htotal, hdue.1, hdue.2.1, hdue.2.2]
    split <;> omega

/-- The payments to the posters are those of the reference. -/
theorem referenceSettle_spec [Keccak] (posters : List Address) (availableFunds : U256)
    (h : referenceSettle posters availableFunds.toNat L = some L') :
    settleAll posters availableFunds L = (.ok (), L')
      ∧ L'.exactSurplus = L.exactSurplus
        + returned L.payTo posters availableFunds.toNat fun p => (L.fundsDue p).toInt := by
  induction posters generalizing availableFunds L with
  | nil =>
      cases h
      exact ⟨rfl, (Int.add_zero _).symm⟩
  | cons p posters ih =>
      have hpayment := L.toNat_legacyPayment availableFunds p
      unfold referenceSettle at h
      unfold settleAll returned
      by_cases hp : L.IsPoster p
      swap
      · rw [if_pos hp] at h
        cases h
      rw [if_neg (not_not.mpr hp)] at h ⊢
      dsimp only at h ⊢
      -- A comparison in the reference, a minimum in the code.
      have hmin : (if (availableFunds.toNat : Int) < (L.fundsDue p).toInt then
          (availableFunds.toNat : Int) else (L.fundsDue p).toInt)
            = min (availableFunds.toNat : Int) (L.fundsDue p).toInt := by
        split <;> omega
      rw [hmin] at h
      rw [← hpayment]
      by_cases hpos : 0 < min (availableFunds.toNat : Int) (L.fundsDue p).toInt
      swap
      -- nothing is due, or nothing is left
      · have hzero : L.legacyPayment availableFunds p = 0 := by
          apply BitVec.eq_of_toNat_eq
          rw [show (0 : U256).toNat = 0 from rfl]
          omega
        rw [if_neg hpos] at h
        rw [if_pos hzero, hzero]
        simpa using ih availableFunds h
      · have hamount : min (availableFunds.toNat : Int) (L.fundsDue p).toInt
            = (L.legacyPayment availableFunds p).toNat := by omega
        have hne : L.legacyPayment availableFunds p ≠ 0 := by
          intro hzero
          rw [hzero] at hamount
          exact absurd hamount (ne_of_gt hpos)
        have hrest : (availableFunds.toNat : Int) - (L.legacyPayment availableFunds p).toNat
            = (availableFunds - L.legacyPayment availableFunds p).toNat := by
          rw [BitVec.toNat_sub_of_le (BitVec.le_def.mpr (by omega))]
          omega
        rw [if_pos hpos, hamount] at h
        simp only [bigSub, Option.bind_eq_bind, Option.bind_eq_some_iff, fits_eq_some] at h
        obtain ⟨L₁, htransfer, due, ⟨hfits, rfl⟩, L₂, hset, htail⟩ := h
        obtain ⟨hrefusal, hL₂, hdue, hsurplus⟩ :=
          referencePayPoster_spec (by omega) htransfer hset
        rw [hrest] at htail ⊢
        obtain ⟨hall, htotal⟩ := ih _ htail
        have hpayTo : L₂.payTo = L.payTo := by
          rw [hL₂]
          rfl
        rw [if_neg hne, hrefusal]
        rw [hL₂] at hall
        refine ⟨hall, ?_⟩
        rw [htotal, hsurplus, hdue, hpayTo]
        omega

end L1Ledger

/-! ### The price -/

/-- The dividend of the price change. -/
def legacyDividend (surplus oldSurplus : Int) (equilUnits : U256) : Int :=
  surplus * (equilUnits.toNat - 1) - oldSurplus * equilUnits.toNat

/-- The divisor of the price change. -/
def legacyDivisor (equilUnits : U256) (inertia unitsAllocated : U64) : Int :=
  equilUnits.toNat * (equilUnits.toNat / inertia.toNat + unitsAllocated.toNat)

/-- When nothing saturates, the change of the code is the truncated quotient. -/
theorem toInt_legacyPriceChangeOf (surplus : I256) {oldSurplus : I256} {equilUnits : U256}
    {inertia units : U64} (hequil : I256.InRange equilUnits.toNat) (hinertia : inertia.toNat ≠ 0)
    (hsum : I256.InRange ((equilUnits.toNat : Int) / inertia.toNat + units.toNat))
    (hweight : I256.InRange ((equilUnits.toNat : Int) - 1))
    (hgained : I256.InRange (surplus.toInt * ((equilUnits.toNat : Int) - 1)))
    (hheld : I256.InRange (oldSurplus.toInt * equilUnits.toNat))
    (hdividend : I256.InRange (legacyDividend surplus.toInt oldSurplus.toInt equilUnits))
    (hdivisor : I256.InRange (legacyDivisor equilUnits inertia units))
    (hpos : 0 < legacyDivisor equilUnits inertia units) :
    (legacyPriceChangeOf surplus oldSurplus equilUnits inertia units).toInt
      = (legacyDividend surplus.toInt oldSurplus.toInt equilUnits).tdiv
        (legacyDivisor equilUnits inertia units) := by
  have hE := I256.toInt_ofU256_of_inRange hequil
  have hne : inertia ≠ 0 := fun h => hinertia (by rw [h]; rfl)
  have hinertiaUnits : ((I256.ofU256 equilUnits).wrappingQuot
      (I256.ofU256 (U256.ofU64 inertia))).toInt
        = (equilUnits.toNat : Int) / inertia.toNat := by
    rw [I256.toInt_wrappingQuot _ (by rw [I256.toInt_ofU256_ofU64]; omega), hE,
      I256.toInt_ofU256_ofU64]
    exact Int.tdiv_eq_ediv_of_nonneg (Int.natCast_nonneg _)
  have hone : I256.one.toInt = 1 := by decide
  have hdenom : ((I256.ofU256 equilUnits).saturatingMul
      (((I256.ofU256 equilUnits).wrappingQuot (I256.ofU256 (U256.ofU64 inertia))).saturatingAdd
        (I256.ofU256 (U256.ofU64 units)))).toInt = legacyDivisor equilUnits inertia units := by
    rw [I256.saturatingMul, I256.saturatingAdd, hinertiaUnits, I256.toInt_ofU256_ofU64,
      I256.toInt_clamp_of_inRange hsum, hE]
    exact I256.toInt_clamp_of_inRange hdivisor
  have hnumer : ((surplus.saturatingMul ((I256.ofU256 equilUnits).saturatingSub
      I256.one)).saturatingSub (oldSurplus.saturatingMul (I256.ofU256 equilUnits))).toInt
        = legacyDividend surplus.toInt oldSurplus.toInt equilUnits := by
    rw [I256.saturatingSub, I256.saturatingMul, I256.saturatingMul, I256.saturatingSub, hE, hone,
      I256.toInt_clamp_of_inRange hweight, I256.toInt_clamp_of_inRange hgained,
      I256.toInt_clamp_of_inRange hheld]
    exact I256.toInt_clamp_of_inRange hdividend
  have hzero : ((I256.ofU256 equilUnits).saturatingMul
      (((I256.ofU256 equilUnits).wrappingQuot (I256.ofU256 (U256.ofU64 inertia))).saturatingAdd
        (I256.ofU256 (U256.ofU64 units)))).isZero = false := by
    rw [I256.isZero, hdenom]
    exact beq_false_of_ne (by omega)
  -- None of the guards of the code for a zero divisor applies.
  unfold legacyPriceChangeOf
  simp only [if_neg hne, hzero, Bool.false_eq_true, if_false]
  rw [I256.toInt_wrappingQuot _ (by rw [hdenom]; exact hpos), hdenom, hnumer]

/-- The truncated change is not the least integer of its type: a divisor of one leaves the
old surplus as the dividend. -/
theorem legacyChange_gt {surplus : Int} {oldSurplus : I256} {equilUnits : U256}
    {inertia units : U64}
    (hdividend : I256.InRange (legacyDividend surplus oldSurplus.toInt equilUnits))
    (hpos : 0 < legacyDivisor equilUnits inertia units) :
    -2 ^ 255 < (legacyDividend surplus oldSurplus.toInt equilUnits).tdiv
      (legacyDivisor equilUnits inertia units) := by
  have hlow := hdividend.1
  -- The least integer would need a divisor of one, and then one equilibration unit.
  by_contra hcon
  have hle := (tdiv_le_neg_iff _ hpos (by decide : (0 : Int) < 2 ^ 255)).mp (not_lt.mp hcon)
  have hone : legacyDivisor equilUnits inertia units = 1 := by omega
  have hequil : (equilUnits.toNat : Int) = 1 :=
    Int.eq_one_of_mul_eq_one_right (Int.natCast_nonneg _) hone
  have hold : legacyDividend surplus oldSurplus.toInt equilUnits = -oldSurplus.toInt := by
    rw [legacyDividend, hequil]
    ring
  have hlt := oldSurplus.toInt_lt
  omega

namespace L1Ledger
variable {L L' : L1Ledger}

/-- The adjustment changes the price only. -/
theorem legacyAdjustPrice_only (L : L1Ledger) (oldSurplus : I256) (units : U64) :
    L.legacyAdjustPrice oldSurplus units
      = { L with pricePerUnit := (L.legacyAdjustPrice oldSurplus units).pricePerUnit } := by
  unfold legacyAdjustPrice
  split <;> rfl

/-- The reference adjusts the price from the surplus `surplus`: every number on the way is in
its range, and the divisor is not zero. -/
structure ReferencePriced (L : L1Ledger) (surplus old : Int) (units : U64) (L' : L1Ledger) :
    Prop where
  equilibration : I256.InRange L.equilibrationUnits.toNat
  inertia : (L.inertia.toNat : Int) ≠ 0
  sum : I256.InRange ((L.equilibrationUnits.toNat : Int) / L.inertia.toNat + units.toNat)
  weight : I256.InRange ((L.equilibrationUnits.toNat : Int) - 1)
  gained : I256.InRange (surplus * ((L.equilibrationUnits.toNat : Int) - 1))
  held : I256.InRange (old * L.equilibrationUnits.toNat)
  dividend : I256.InRange (legacyDividend surplus old L.equilibrationUnits)
  divisor : I256.InRange (legacyDivisor L.equilibrationUnits L.inertia units)
  divisor_ne : legacyDivisor L.equilibrationUnits L.inertia units ≠ 0
  price : (L'.pricePerUnit.toNat : Int) = max 0 (L.pricePerUnit.toNat
    + legacyDividend surplus old L.equilibrationUnits
      / legacyDivisor L.equilibrationUnits L.inertia units)
  only : L' = { L with pricePerUnit := L'.pricePerUnit }

/-- The price of the reference, where it has a result and units were allocated. -/
theorem referenceAdjustPrice_eq_some {old : Int} {units : U64} (hunits : 0 < units)
    (h : L.referenceAdjustPrice old units = some L') :
    ∃ surplus, L.referenceSurplus = some surplus ∧ L.ReferencePriced surplus old units L' := by
  rw [referenceAdjustPrice, if_pos hunits] at h
  -- one step of the do block after another
  obtain ⟨surplus, hsurplus, h⟩ := Option.bind_eq_some_iff.mp h
  obtain ⟨equil, h₁, h⟩ := Option.bind_eq_some_iff.mp h
  obtain ⟨hequil, rfl⟩ := fits_eq_some.mp h₁
  obtain ⟨quot, h₂, h⟩ := Option.bind_eq_some_iff.mp h
  obtain ⟨hinertia, -, rfl⟩ := bigDiv_eq_some.mp h₂
  obtain ⟨sum, h₃, h⟩ := Option.bind_eq_some_iff.mp h
  obtain ⟨hsum, rfl⟩ := fits_eq_some.mp h₃
  obtain ⟨weight, h₄, h⟩ := Option.bind_eq_some_iff.mp h
  obtain ⟨hweight, rfl⟩ := fits_eq_some.mp h₄
  obtain ⟨gained, h₅, h⟩ := Option.bind_eq_some_iff.mp h
  obtain ⟨hgained, rfl⟩ := fits_eq_some.mp h₅
  obtain ⟨held, h₆, h⟩ := Option.bind_eq_some_iff.mp h
  obtain ⟨hheld, rfl⟩ := fits_eq_some.mp h₆
  obtain ⟨numer, h₇, h⟩ := Option.bind_eq_some_iff.mp h
  obtain ⟨hnumer, rfl⟩ := fits_eq_some.mp h₇
  obtain ⟨denom, h₈, h⟩ := Option.bind_eq_some_iff.mp h
  obtain ⟨hdenom, rfl⟩ := fits_eq_some.mp h₈
  obtain ⟨change, h₉, h⟩ := Option.bind_eq_some_iff.mp h
  obtain ⟨hne, -, rfl⟩ := bigDiv_eq_some.mp h₉
  obtain ⟨price, h₁₀, h⟩ := Option.bind_eq_some_iff.mp h
  obtain ⟨hprice, rfl⟩ := fitsUnsigned_eq_some.mp h₁₀
  obtain rfl := Option.some.inj h
  have hmax : ∀ x : Int, (if x < 0 then 0 else x) = max 0 x := by
    intro x
    split <;> omega
  exact ⟨surplus, hsurplus, hequil, hinertia, hsum, hweight, hgained, hheld, hnumer, hdenom, hne,
    (toNat_ofInt_of_fits hprice).trans (hmax _), rfl⟩

/-- The adjustment of the reference changes the price only. -/
theorem referenceAdjustPrice_only {old : Int} {units : U64}
    (h : L.referenceAdjustPrice old units = some L') :
    L' = { L with pricePerUnit := L'.pricePerUnit } := by
  by_cases hunits : 0 < units
  · obtain ⟨surplus, -, hpriced⟩ := referenceAdjustPrice_eq_some hunits h
    exact hpriced.only
  · rw [referenceAdjustPrice, if_neg hunits] at h
    cases h
    rfl

/-- The price of the reference has the Euclidean quotient, and that of the code the truncated
one. -/
theorem referenceAdjustPrice_spec {oldSurplus : I256} {units : U64} (hunits : 0 < units)
    (h : L.referenceAdjustPrice oldSurplus.toInt units = some L') :
    0 < legacyDivisor L.equilibrationUnits L.inertia units
      ∧ (L'.pricePerUnit.toNat : Int)
        = max 0 (L.pricePerUnit.toNat
          + legacyDividend L.exactSurplus oldSurplus.toInt L.equilibrationUnits
            / legacyDivisor L.equilibrationUnits L.inertia units)
      ∧ ((L.legacyAdjustPrice oldSurplus units).pricePerUnit.toNat : Int)
        = max 0 (L.pricePerUnit.toNat
          + (legacyDividend L.exactSurplus oldSurplus.toInt L.equilibrationUnits).tdiv
            (legacyDivisor L.equilibrationUnits L.inertia units)) := by
  obtain ⟨surplus, hsurplus, hpriced⟩ := referenceAdjustPrice_eq_some hunits h
  obtain ⟨rfl, hexact⟩ := referenceSurplus_spec hsurplus
  have hpos : 0 < legacyDivisor L.equilibrationUnits L.inertia units := by
    have hquotNonneg : (0 : Int) ≤ L.equilibrationUnits.toNat / L.inertia.toNat :=
      Int.ediv_nonneg (Int.natCast_nonneg _) (Int.natCast_nonneg _)
    have hnonneg : 0 ≤ legacyDivisor L.equilibrationUnits L.inertia units :=
      Int.mul_nonneg (Int.natCast_nonneg _) (by omega)
    exact lt_of_le_of_ne hnonneg hpriced.divisor_ne.symm
  refine ⟨hpos, ?_, ?_⟩
  · exact hpriced.price
  · have hdividend := hpriced.dividend
    have htruncated := toInt_legacyPriceChangeOf (L.surplus .pool) hpriced.equilibration
      (by have := hpriced.inertia; omega) hpriced.sum hpriced.weight
      (by rw [hexact]; exact hpriced.gained) hpriced.held (by rw [hexact]; exact hdividend)
      hpriced.divisor hpos
    rw [hexact] at htruncated
    have hrange := I256.inRange_tdiv hdividend hpos
    have hgt := legacyChange_gt hdividend hpos
    -- The truncated quotient is the Euclidean one or the next integer.
    have hquotient := tdiv_eq_ediv_add_excess
      (legacyDividend L.exactSurplus oldSurplus.toInt L.equilibrationUnits) hpos
    -- a quotient that is rounded up is not positive
    have hlt : (L.pricePerUnit.toNat : Int)
        + (legacyDividend L.exactSurplus oldSurplus.toInt L.equilibrationUnits).tdiv
          (legacyDivisor L.equilibrationUnits L.inertia units) < 2 ^ 256 := by
      have hpriceLt := L.pricePerUnit.isLt
      have hprice := hpriced.price
      have hpriceLt' := L'.pricePerUnit.isLt
      unfold excess at hquotient
      split at hquotient
      · rename_i hup
        have hnonpos := (tdiv_le_zero_iff _ hpos).mpr (lt_trans hup.1 hpos)
        omega
      · omega
    rw [legacyAdjustPrice, if_pos hunits]
    rw [← htruncated] at hrange hgt hlt ⊢
    exact L1PricingState.toNat_applyPriceChange_of_fits ⟨by have := hrange.2; omega, by omega⟩ hlt

/-- The prices are equal unless the code rounds the change up to a price above zero. -/
theorem legacyPrice_eq_iff {oldSurplus : I256} {units : U64}
    (h : L.referenceAdjustPrice oldSurplus.toInt units = some L') :
    (L.legacyAdjustPrice oldSurplus units).pricePerUnit = L'.pricePerUnit
      ↔ units = 0
        ∨ ¬RoundsUp (legacyDividend L.exactSurplus oldSurplus.toInt L.equilibrationUnits)
          (legacyDivisor L.equilibrationUnits L.inertia units)
        ∨ L.pricePerUnit.toNat
          + (legacyDividend L.exactSurplus oldSurplus.toInt L.equilibrationUnits).tdiv
            (legacyDivisor L.equilibrationUnits L.inertia units) ≤ 0 := by
  by_cases hunits : 0 < units
  swap
  · have hzero : units = 0 := by bv_omega
    rw [referenceAdjustPrice, if_neg hunits] at h
    cases h
    rw [legacyAdjustPrice, if_neg hunits]
    simp [hzero]
  · have hne : units ≠ 0 := by bv_omega
    obtain ⟨hpos, hreference, hcode⟩ := referenceAdjustPrice_spec hunits h
    -- Two prices that are clamped at zero, one from each quotient.
    rw [← BitVec.toNat_inj, ← Int.ofNat_inj, hcode, hreference, max_add_tdiv_eq_iff _ _ hpos]
    exact (or_iff_right hne).symm

/-! ### The update -/

/-- What the payments of an update give back to the pool account. -/
def legacyReturned (L : L1Ledger) (availableFunds : U256) (units : U64) (due : Address → Int) :
    Int :=
  (if L.payRewardsTo = l1PricerFundsPoolAddress then
      ((L.legacyReward availableFunds units).toNat : Int) else 0)
    + returned L.payTo L.posterList (availableFunds - L.legacyReward availableFunds units).toNat due

/-- The payments of the reference are those of the code, where it has a result. -/
theorem referencePayAll_spec [Keccak] {updateTime units : U64} {availableFunds : U256}
    {old : Int} (h : L.referencePayAll updateTime units availableFunds.toNat old = some L') :
    ∃ L₂ : L1Ledger, L₂.referenceAdjustPrice old units = some L'
      ∧ (∀ oldSurplus, L.legacyPayAll updateTime units availableFunds oldSurplus
        = (.ok (), L₂.legacyAdjustPrice oldSurplus units))
      ∧ L₂.unitsSinceUpdate = L.unitsSinceUpdate ∧ L₂.priceScalars = L.priceScalars
      ∧ L₂.exactSurplus = L.exactSurplus
        + L.legacyReturned availableFunds units fun q => (L.fundsDue q).toInt := by
  simp only [referencePayAll, Option.bind_eq_bind, Option.bind_eq_some_iff] at h
  -- The stages of the reference, each with its stage of the code.
  obtain ⟨⟨rest, L₁⟩, hrewards, L₂, hsettle, hprice⟩ := h
  obtain ⟨hrefusal, rfl, rfl, hpaid⟩ := referencePayRewards_spec hrewards
  obtain ⟨hall, htotal⟩ := referenceSettle_spec _ _ hsettle
  have hlist : (L.legacyPaidRewards availableFunds units).posterList = L.posterList := rfl
  rw [hlist] at hall htotal
  have hscalars := settleAll_toL1Scalars L.posterList
    (availableFunds - L.legacyReward availableFunds units)
    (L.legacyPaidRewards availableFunds units)
  rw [hall] at hscalars
  have hunits : L₂.unitsSinceUpdate = L.unitsSinceUpdate :=
    (congrArg L1Scalars.unitsSinceUpdate hscalars).trans rfl
  have hkept : L₂.priceScalars = L.priceScalars :=
    (congrArg (fun S : L1Scalars =>
      (S.pricePerUnit, S.lastSurplus, S.equilibrationUnits, S.inertia)) hscalars).trans rfl
  refine ⟨{ L₂ with lastUpdateTime := updateTime }, hprice, fun oldSurplus => ?_, hunits, hkept, ?_⟩
  · rw [legacyPayAll_of_accepted hrefusal, hall]
  · have hsame : ({ L₂ with lastUpdateTime := updateTime } : L1Ledger).exactSurplus
        = L₂.exactSurplus := rfl
    have hdues : (L.legacyPaidRewards availableFunds units).payTo = L.payTo
        ∧ (L.legacyPaidRewards availableFunds units).fundsDue = L.fundsDue := ⟨rfl, rfl⟩
    rw [hsame, htotal, hpaid, hdues.1, hdues.2, legacyReturned]
    omega

/-- The units that the reference allocates: the product wraps. -/
def wrappedAllocated (L : L1Ledger) (updateTime currentTime : U64) : U64 :=
  L.unitsSinceUpdate * L.legacyNumerator updateTime currentTime
    / L.legacyDenominator updateTime currentTime

/-- The reference allocates the units of the code exactly when the product fits. -/
theorem wrappedAllocated_eq_iff {updateTime currentTime : U64}
    (h : L.LegacyTimeOk updateTime currentTime) :
    L.wrappedAllocated updateTime currentTime = L.legacyAllocated updateTime currentTime
      ↔ L.unitsSinceUpdate.toNat * (L.legacyNumerator updateTime currentTime).toNat < 2 ^ 64 := by
  obtain ⟨-, hpos⟩ := legacy_period h
  have hden := (L.legacyDenominator updateTime currentTime).isLt
  rw [← BitVec.toNat_inj, toNat_legacyAllocated h, wrappedAllocated, BitVec.toNat_udiv,
    BitVec.toNat_mul]
  generalize L.unitsSinceUpdate.toNat * (L.legacyNumerator updateTime currentTime).toNat = product
  generalize (L.legacyDenominator updateTime currentTime).toNat = den at *
  constructor
  · intro heq
    by_contra hover
    -- what wraps is at least one period
    have hstep : product % 2 ^ 64 / den + 1 ≤ product / den := by
      rw [← Nat.add_div_right _ hpos]
      exact Nat.div_le_div_right (by omega)
    omega
  · intro hfit
    rw [Nat.mod_eq_of_lt hfit]

/-- The surplus after the payments, in the state before them: the wei and the reward became
due, and the payments are neutral but for those to the pool account itself. -/
def legacySettledSurplus (L : L1Ledger) (updateTime currentTime : U64) (p : Address)
    (weiSpent : U256) : Int :=
  let units := L.legacyAllocated updateTime currentTime
  let due : Address → Int := fun q => (L.fundsDue q).toInt
  L.exactSurplus - weiSpent.toNat - units.toNat * L.perUnitReward.toNat
    + L.legacyReturned (L.legacyFunds updateTime currentTime) units
      (Function.update due p (due p + weiSpent.toNat))

/-- No units are allocated, or the change of the price is not rounded up, or the price after
the rounded change is zero. -/
def LegacyPriceAgrees (L : L1Ledger) (updateTime currentTime : U64) (p : Address)
    (weiSpent : U256) : Prop :=
  let units := L.legacyAllocated updateTime currentTime
  let dividend := legacyDividend (L.legacySettledSurplus updateTime currentTime p weiSpent)
    L.exactSurplus L.equilibrationUnits
  let divisor := legacyDivisor L.equilibrationUnits L.inertia units
  units = 0 ∨ ¬RoundsUp dividend divisor ∨ L.pricePerUnit.toNat + dividend.tdiv divisor ≤ 0

/-- The times are rejected, or the product of the units fits in 64 bits and the prices
agree. -/
def LegacyAgrees (L : L1Ledger) (updateTime currentTime : U64) (p : Address) (weiSpent : U256) :
    Prop :=
  ¬L.LegacyTimeOk updateTime currentTime
    ∨ (L.unitsSinceUpdate.toNat * (L.legacyNumerator updateTime currentTime).toNat < 2 ^ 64
      ∧ L.LegacyPriceAgrees updateTime currentTime p weiSpent)

instance (L : L1Ledger) (updateTime currentTime : U64) (p : Address) (weiSpent : U256) :
    Decidable (L.LegacyPriceAgrees updateTime currentTime p weiSpent) :=
  inferInstanceAs (Decidable (_ ∨ _ ∨ _))

instance (L : L1Ledger) (updateTime currentTime : U64) (p : Address) (weiSpent : U256) :
    Decidable (L.LegacyAgrees updateTime currentTime p weiSpent) :=
  inferInstanceAs (Decidable (_ ∨ _))

/-- The branch of the reference for accepted times, with the names of the code for the times
and the units. -/
def referenceAccept (L : L1Ledger) (updateTime currentTime : U64) (p : Address) (weiSpent : U256)
    (old : Int) : Option L1Ledger := do
  let units := L.wrappedAllocated updateTime currentTime
  let L₂ ← (L.takeUnits units).referenceCredit p weiSpent
  let L₃ ← L₂.referenceAccrue units
  let product ← fitsUnsigned ((L₃.balance l1PricerFundsPoolAddress).toNat
    * (L.legacyNumerator updateTime currentTime).toNat)
  L₃.referencePayAll updateTime units
    (product / (L.legacyDenominator updateTime currentTime).toNat) old

/-- The reference registers the poster, and goes on when it accepts the times. -/
theorem referenceSpend_eq {updateTime currentTime : U64} {p : Address} {weiSpent : U256}
    (h : L.referenceSpend updateTime currentTime p weiSpent = some L') :
    ¬(¬L.IsPoster p ∧ L.count = BitVec.allOnes 64)
      ∧ ∃ old, (L.register p).referenceSurplus = some old
        ∧ if (L.register p).LegacyTimeOk updateTime currentTime then
            (L.register p).referenceAccept updateTime currentTime p weiSpent old = some L'
          else L' = L.register p := by
  unfold referenceSpend at h
  by_cases hfull : ¬L.IsPoster p ∧ L.count = BitVec.allOnes 64
  · rw [if_pos hfull] at h
    exact nomatch h
  rw [if_neg hfull] at h
  obtain ⟨old, hold, h⟩ := Option.bind_eq_some_iff.mp h
  refine ⟨hfull, old, hold, ?_⟩
  generalize L.register p = L₁ at *
  have hlastTime : (if L₁.lastUpdateTime = 0 ∧ 0 < currentTime then updateTime - 1
      else L₁.lastUpdateTime) = L₁.legacyLastTime updateTime currentTime := rfl
  simp only [hlastTime] at h
  by_cases htime : L₁.LegacyTimeOk updateTime currentTime
  swap
  · rw [if_pos (not_legacyTimeOk_iff.mp htime)] at h
    rw [if_neg htime]
    exact (Option.some.inj h).symm
  obtain ⟨-, hpos⟩ := legacy_period htime
  have hden : ¬currentTime - L₁.legacyLastTime updateTime currentTime = 0 := by
    intro hzero
    have hdenominator : L₁.legacyDenominator updateTime currentTime = 0 := hzero
    rw [hdenominator] at hpos
    exact absurd hpos (by decide)
  rw [if_neg fun hreject => not_legacyTimeOk_iff.mpr hreject htime] at h
  simp only [if_neg hden] at h
  rw [if_pos htime]
  exact h

/-- The funds that are available as a number: the share of the pool balance. -/
theorem toNat_legacyFunds {updateTime currentTime : U64}
    (hfit : (L.balance l1PricerFundsPoolAddress).toNat
      * (L.legacyNumerator updateTime currentTime).toNat < 2 ^ 256) :
    (L.legacyFunds updateTime currentTime).toNat
      = (L.balance l1PricerFundsPoolAddress).toNat
        * (L.legacyNumerator updateTime currentTime).toNat
        / (L.legacyDenominator updateTime currentTime).toNat := by
  rw [legacyFunds, BitVec.toNat_udiv, toNat_saturatingMul, U256.toNat_ofU64, U256.toNat_ofU64,
    Nat.min_eq_left (by omega)]

/-- An accepted update: the reference and the code reach the price adjustment in the same
ledger, when they allocate the same units. -/
theorem referenceAccept_spec [Keccak] {updateTime currentTime : U64} {p : Address}
    {weiSpent : U256} {old : Int}
    (h : L.referenceAccept updateTime currentTime p weiSpent old = some L') :
    ∃ L₂ : L1Ledger,
      L₂.referenceAdjustPrice old (L.wrappedAllocated updateTime currentTime) = some L'
      ∧ L₂.unitsSinceUpdate = L.unitsSinceUpdate - L.wrappedAllocated updateTime currentTime
      ∧ L₂.priceScalars = L.priceScalars
      ∧ (L.wrappedAllocated updateTime currentTime = L.legacyAllocated updateTime currentTime →
        (∀ oldSurplus, (L.legacyAccount (L.legacyAllocated updateTime currentTime) p
            weiSpent).legacyPayAll updateTime (L.legacyAllocated updateTime currentTime)
              (L.legacyFunds updateTime currentTime) oldSurplus
            = (.ok (), L₂.legacyAdjustPrice oldSurplus
              (L.legacyAllocated updateTime currentTime)))
        ∧ L₂.exactSurplus = L.legacySettledSurplus updateTime currentTime p weiSpent) := by
  simp only [referenceAccept, Option.bind_eq_bind, Option.bind_eq_some_iff,
    fitsUnsigned_eq_some] at h
  obtain ⟨L₁, hcredit, L₃, haccrue, product, ⟨⟨-, hfit⟩, rfl⟩, hpay⟩ := h
  -- The units of the reference are any number until they are compared.
  generalize L.wrappedAllocated updateTime currentTime = units at *
  obtain ⟨haccount, hdues, haccounted⟩ := referenceAccount_spec hcredit haccrue
  have hbalance : L₃.balance = L.balance := by
    rw [haccount]
    rfl
  rw [hbalance] at hfit hpay
  have hfunds : ((L.balance l1PricerFundsPoolAddress).toNat : Int)
      * (L.legacyNumerator updateTime currentTime).toNat
      / (L.legacyDenominator updateTime currentTime).toNat
        = (L.legacyFunds updateTime currentTime).toNat := by
    rw [toNat_legacyFunds (by omega), Int.natCast_ediv, Int.natCast_mul]
  rw [hfunds] at hpay
  obtain ⟨L₂, hprice, hall, hunits, hscalars, hsurplus⟩ := referencePayAll_spec hpay
  have hreturned : L₃.legacyReturned = L.legacyReturned := by
    rw [haccount]
    rfl
  rw [hreturned, hdues, haccounted] at hsurplus
  rw [haccount] at hall hunits hscalars
  refine ⟨L₂, hprice, hunits, hscalars, ?_⟩
  intro heq
  subst heq
  exact ⟨hall, hsurplus⟩

/-- An update whose times are rejected returns with the registration of its poster. -/
theorem legacySpend_of_rejected [Keccak] {updateTime currentTime : U64} {p : Address}
    {weiSpent : U256} (hfull : ¬(¬L.IsPoster p ∧ L.count = BitVec.allOnes 64))
    (h : ¬(L.register p).LegacyTimeOk updateTime currentTime) :
    L.legacySpend updateTime currentTime p weiSpent = (.ok (), L.register p) := by
  unfold legacySpend
  rw [if_neg hfull]
  exact if_pos h

/-- An update whose times are accepted comes to the payments. -/
theorem legacySpend_of_accepted [Keccak] {updateTime currentTime : U64} {p : Address}
    {weiSpent : U256} (hfull : ¬(¬L.IsPoster p ∧ L.count = BitVec.allOnes 64))
    (h : (L.register p).LegacyTimeOk updateTime currentTime) :
    L.legacySpend updateTime currentTime p weiSpent
      = ((L.register p).legacyAccount ((L.register p).legacyAllocated updateTime currentTime) p
          weiSpent).legacyPayAll updateTime
            ((L.register p).legacyAllocated updateTime currentTime)
            ((L.register p).legacyFunds updateTime currentTime) ((L.register p).surplus .pool) := by
  unfold legacySpend
  rw [if_neg hfull]
  exact if_neg (not_not.mpr h)

section
variable [Keccak] {updateTime currentTime : U64} {p : Address} {weiSpent : U256}

/-- With a product that wraps, the code leaves other units. -/
theorem legacySpend_units_ne (h : L.referenceSpend updateTime currentTime p weiSpent = some L')
    (htime : (L.register p).LegacyTimeOk updateTime currentTime)
    (hwraps : 2 ^ 64 ≤ (L.register p).unitsSinceUpdate.toNat
      * ((L.register p).legacyNumerator updateTime currentTime).toNat) :
    (L.legacySpend updateTime currentTime p weiSpent).2.unitsSinceUpdate
      ≠ L'.unitsSinceUpdate := by
  obtain ⟨hfull, old, -, hcases⟩ := referenceSpend_eq h
  rw [if_pos htime] at hcases
  obtain ⟨L₂, hprice, hunits, -, -⟩ := referenceAccept_spec hcases
  have hkept : L'.unitsSinceUpdate = L₂.unitsSinceUpdate := by
    rw [referenceAdjustPrice_only hprice]
  rw [legacySpend_of_accepted hfull htime, legacyPayAll_unitsSinceUpdate, hkept, hunits]
  -- Equal rests would mean equal allocations, and these differ when the product wraps.
  intro heq
  have hallocated : (L.register p).wrappedAllocated updateTime currentTime
      = (L.register p).legacyAllocated updateTime currentTime := by
    have hsub : (L.register p).unitsSinceUpdate
          - (L.register p).legacyAllocated updateTime currentTime
        = (L.register p).unitsSinceUpdate
          - (L.register p).wrappedAllocated updateTime currentTime := heq
    bv_omega
  have hfit := (wrappedAllocated_eq_iff htime).mp hallocated
  omega

/-- With a product that fits, the code ends in the ledger of the reference exactly when the
prices agree, and differs in the price otherwise. -/
theorem legacySpend_of_fits (h : L.referenceSpend updateTime currentTime p weiSpent = some L')
    (htime : (L.register p).LegacyTimeOk updateTime currentTime)
    (hfit : (L.register p).unitsSinceUpdate.toNat
      * ((L.register p).legacyNumerator updateTime currentTime).toNat < 2 ^ 64) :
    ∃ price, L.legacySpend updateTime currentTime p weiSpent
        = (.ok (), { L' with pricePerUnit := price })
      ∧ (price = L'.pricePerUnit
        ↔ (L.register p).LegacyPriceAgrees updateTime currentTime p weiSpent) := by
  obtain ⟨hfull, old, hold, hcases⟩ := referenceSpend_eq h
  rw [legacySpend_of_accepted hfull htime]
  generalize L.register p = L₁ at *
  rw [if_pos htime] at hcases
  obtain ⟨L₂, hprice, -, hscalars, hsame⟩ := referenceAccept_spec hcases
  have hallocated := (wrappedAllocated_eq_iff htime).mpr hfit
  obtain ⟨hall, hsettled⟩ := hsame hallocated
  obtain ⟨hexact, hsurplus⟩ := referenceSurplus_spec hold
  rw [hallocated, ← hsurplus] at hprice
  have hiff := legacyPrice_eq_iff hprice
  simp only [priceScalars, Prod.mk.injEq] at hscalars
  obtain ⟨hpricePerUnit, -, hequil, hinertia⟩ := hscalars
  rw [hsettled, hsurplus, hexact, hpricePerUnit, hequil, hinertia] at hiff
  refine ⟨_, ?_, hiff⟩
  rw [hall, legacyAdjustPrice_only L₂, referenceAdjustPrice_only hprice]

end

end L1Ledger

namespace L1Pricing
variable [Keccak] {sto : Storage} {A : Set Address}

/-- A state after the update that is the one of a ledger has the units and the price that
the code computes. -/
theorem legacySpend_of_represents (hslots : (layout sto).Apart (L1Key.Among A)) {w w' : World}
    {L L' : L1Ledger} (hR : Represents sto A w L) {version updateTime currentTime : U64}
    {p : Address} (hp : p ∈ A) {weiSpent : U256}
    (hrun : World.run ((openL1PricingState sto version).preVersion2UpdateForBatchPosterSpending
      updateTime currentTime p weiSpent) w = (.ok (), w')) (hR' : Represents sto A w' L') :
    (L.legacySpend updateTime currentTime p weiSpent).2.unitsSinceUpdate = L'.unitsSinceUpdate
      ∧ (L.legacySpend updateTime currentTime p weiSpent).2.pricePerUnit = L'.pricePerUnit := by
  obtain ⟨w₁, hrun₁, hR₁⟩ := preVersion2_realizes hslots version L updateTime currentTime hp
    weiSpent w hR
  have hworld : w₁ = w' := congrArg Prod.snd (hrun₁.symm.trans hrun)
  subst hworld
  -- The store of the run represents both ledgers, and a word is read in one way.
  constructor
  · exact U256.ofU64_injective
      ((hR₁.scalar .unitsSinceUpdate).symm.trans (hR'.scalar .unitsSinceUpdate))
  · exact (hR₁.scalar .pricePerUnit).symm.trans (hR'.scalar .pricePerUnit)

/-- The update before version 2 ends in the state of its reference exactly under
`LegacyAgrees`, where the reference has a result. -/
theorem legacy_eq_reference_iff (hslots : (layout sto).Apart (L1Key.Among A)) {w : World}
    {L : L1Ledger} (hR : Represents sto A w L) (version updateTime currentTime : U64) {p : Address}
    (hp : p ∈ A) (weiSpent : U256) {L' : L1Ledger}
    (href : L.referenceSpend updateTime currentTime p weiSpent = some L') :
    (∃ w', World.run ((openL1PricingState sto version).preVersion2UpdateForBatchPosterSpending
        updateTime currentTime p weiSpent) w = (.ok (), w') ∧ Represents sto A w' L')
    ↔ (L.register p).LegacyAgrees updateTime currentTime p weiSpent := by
  obtain ⟨w₁, hrun, hR₁⟩ := preVersion2_realizes hslots version L updateTime currentTime hp weiSpent
    w hR
  by_cases htime : (L.register p).LegacyTimeOk updateTime currentTime
  swap
  · obtain ⟨hfull, old, -, hcases⟩ := L1Ledger.referenceSpend_eq href
    rw [if_neg htime] at hcases
    rw [L1Ledger.legacySpend_of_rejected hfull htime, ← hcases] at hrun hR₁
    exact iff_of_true ⟨w₁, hrun, hR₁⟩ (Or.inl htime)
  by_cases hfit : (L.register p).unitsSinceUpdate.toNat
      * ((L.register p).legacyNumerator updateTime currentTime).toNat < 2 ^ 64
  swap
  -- The product wraps: the units of the two ends differ.
  · have hne := L1Ledger.legacySpend_units_ne href htime (not_lt.mp hfit)
    refine iff_of_false ?_ ?_
    · rintro ⟨w', hrun', hR'⟩
      exact hne (legacySpend_of_represents hslots hR hp hrun' hR').1
    · rintro (hreject | ⟨hfit', -⟩)
      · exact hreject htime
      · exact hfit hfit'
  -- The product fits: the two ends differ in the price at most.
  · obtain ⟨price, hspend, hprice⟩ := L1Ledger.legacySpend_of_fits href htime hfit
    constructor
    · rintro ⟨w', hrun', hR'⟩
      have hequal := (legacySpend_of_represents hslots hR hp hrun' hR').2
      rw [hspend] at hequal
      exact Or.inr ⟨hfit, hprice.mp hequal⟩
    · rintro (hreject | ⟨-, hagrees⟩)
      · exact absurd htime hreject
      · rw [hspend, hprice.mpr hagrees] at hrun hR₁
        exact ⟨w₁, hrun, hR₁⟩

end L1Pricing

namespace L1Pricing
attribute [local instance] sampleHash

/-- A spending of `2 * 10 ^ 9` wei takes the price to zero. -/
theorem legacy_eq_reference_sample :
    ∃ L', sampleLedger.referenceSpend 5 6 7 2000000000 = some L'
      ∧ ((∃ w', World.run ((openL1PricingState sampleRoot
            1).preVersion2UpdateForBatchPosterSpending 5 6 7 2000000000) sampleWorld = (.ok (), w')
          ∧ Represents sampleRoot Set.univ w' L')
        ↔ (sampleLedger.register 7).LegacyAgrees 5 6 7 2000000000) :=
  ⟨(sampleLedger.referenceSpend 5 6 7 2000000000).get (by decide +kernel),
    (Option.some_get _).symm,
    legacy_eq_reference_iff sampleRoot_layout_apart sampleWorld_represents 1 5 6
      (Set.mem_univ 7) 2000000000 (Option.some_get _).symm⟩

/-- The sample with more units, and a last update at the time 1. -/
def sampleManyUnits : Exec DbError Unit := do
  (openL1PricingState sampleRoot 1).setLastUpdateTime 1
  (openL1PricingState sampleRoot 1).setUnitsSinceUpdate (BitVec.ofNat 64 (2 ^ 62))

/-- The ledger of that setup. -/
def sampleManyUnitsLedger : L1Ledger :=
  { sampleLedger with
      lastUpdateTime := 1
      unitsSinceUpdate := BitVec.ofNat 64 (2 ^ 62) }

/-- The setup gives the ledger with many units. -/
theorem sampleManyUnits_realizes :
    Realizes World.handle (Represents sampleRoot Set.univ) sampleManyUnits sampleLedger (.ok ())
      sampleManyUnitsLedger :=
  .bind (setLastUpdateTime_realizes sampleRoot_layout_apart 1 sampleLedger 1)
    (setUnitsSinceUpdate_realizes sampleRoot_layout_apart 1 _ _)

/-- Two states that the code ends in another state from than the reference.

In the first, two units are allocated, and the surplus falls from 100 to 80. The reference
lowers the price from 1 to 0, and the code keeps it. In the second, the units times the
allocation numerator are `14 * 2 ^ 62`, which wraps. -/
theorem legacy_ne_reference_sample :
    (∃ L', sampleLedger.referenceSpend 5 6 7 0 = some L' ∧ L'.pricePerUnit = 0
      ∧ (sampleLedger.legacySpend 5 6 7 0).2.pricePerUnit = 1
      ∧ ¬∃ w', World.run ((openL1PricingState sampleRoot
            1).preVersion2UpdateForBatchPosterSpending 5 6 7 0) sampleWorld = (.ok (), w')
          ∧ Represents sampleRoot Set.univ w' L')
    ∧ ∃ w L', Represents sampleRoot Set.univ w sampleManyUnitsLedger
      ∧ sampleManyUnitsLedger.referenceSpend 15 20 7 0 = some L'
      ∧ ¬∃ w', World.run ((openL1PricingState sampleRoot
            1).preVersion2UpdateForBatchPosterSpending 15 20 7 0) w = (.ok (), w')
          ∧ Represents sampleRoot Set.univ w' L' := by
  have hslots := sampleRoot_layout_apart
  constructor
  · have hcode : (sampleLedger.legacySpend 5 6 7 0).2.pricePerUnit = 1 := by decide +kernel
    have hzero : ((sampleLedger.referenceSpend 5 6 7 0).get (by decide +kernel)).pricePerUnit = 0 :=
      by decide +kernel
    refine ⟨_, (Option.some_get _).symm, hzero, hcode, ?_⟩
    rintro ⟨w', hrun, hR'⟩
    have hprice := (legacySpend_of_represents hslots sampleWorld_represents (Set.mem_univ 7) hrun
      hR').2
    rw [hcode, hzero] at hprice
    exact absurd hprice (by decide)
  · obtain ⟨w, -, hR⟩ := sampleManyUnits_realizes sampleWorld sampleWorld_represents
    have hsome : (sampleManyUnitsLedger.referenceSpend 15 20 7 0).isSome := by decide +kernel
    refine ⟨w, (sampleManyUnitsLedger.referenceSpend 15 20 7 0).get hsome, hR,
      (Option.some_get _).symm, ?_⟩
    rintro ⟨w', hrun, hR'⟩
    exact L1Ledger.legacySpend_units_ne (Option.some_get hsome).symm (by decide +kernel)
      (by decide +kernel) (legacySpend_of_represents hslots hR (Set.mem_univ 7) hrun hR').1

end L1Pricing

end ArbReth
