import ArbReth.Proofs.Storage.Words
import ArbReth.Storage.Vector

/-!
# `ArbReth.Proofs.Storage.Vector`: the length of a vector of sub-spaces

A vector whose length is in a slot of a layout. `push` and `pop` move that slot only, and
return the sub-space of the place that becomes or was the last. A vector of the largest
length refuses a push, and an empty one a pop.
-/

set_option autoImplicit false

namespace ArbReth

open ArbReth.Program

namespace SubStorageVector
variable [Keccak] {K : Type} {L : Layout K} {start : World} {f : K → StorageValue}
  {v : SubStorageVector} {k : K} {n : Nat}

omit [Keccak] in
/-- The length is read. -/
theorem length_realizes (hcell : v.lengthCell = ⟨L.slotAt k⟩)
    (hn : f k = U256.ofU64 (BitVec.ofNat 64 n)) :
    Realizes World.handle (L.Holds start) v.length f (.ok (BitVec.ofNat 64 n)) f := by
  rw [length, hcell]
  exact Layout.getUint64_realizes k hn

/-- A push opens the space behind the last one and counts it. -/
theorem push_realizes [DecidableEq K] (hslots : Function.Injective L.slot)
    (hcell : v.lengthCell = ⟨L.slotAt k⟩) (hn : f k = U256.ofU64 (BitVec.ofNat 64 n))
    (hlt : n + 1 < 2 ^ 64) :
    Realizes World.handle (L.Holds start) v.push f (.ok (v.at_ (BitVec.ofNat 64 n)))
      (Function.update f k (U256.ofU64 (BitVec.ofNat 64 (n + 1)))) := by
  have hsucc : BitVec.ofNat 64 n + 1 = BitVec.ofNat 64 (n + 1) := by
    rw [BitVec.ofNat_add]
    rfl
  have hfit : (BitVec.ofNat 64 n).toNat + (1 : U64).toNat < 2 ^ 64 := by
    rw [BitVec.toNat_ofNat, Nat.mod_eq_of_lt (by omega)]
    exact hlt
  have hadd : Realizes World.handle (L.Holds start)
      (checkedAdd (BitVec.ofNat 64 n) 1 : Exec DbError U64) f
      (.ok (BitVec.ofNat 64 (n + 1))) f := by
    rw [checkedAdd, if_pos hfit, hsucc]
    exact .pure _
  have hset : Realizes World.handle (L.Holds start)
      (v.lengthCell.set (BitVec.ofNat 64 (n + 1))) f (.ok ())
      (Function.update f k (U256.ofU64 (BitVec.ofNat 64 (n + 1)))) := by
    rw [hcell]
    exact Layout.set_realizes hslots k _
  exact .bind (length_realizes hcell hn) (.bind hadd (.bind hset (.pure _)))

/-- There is no place after the last one. -/
theorem push_panics (hcell : v.lengthCell = ⟨L.slotAt k⟩)
    (hn : f k = U256.ofU64 (BitVec.ofNat 64 n)) (hfull : n = 2 ^ 64 - 1) :
    Realizes World.handle (L.Holds start) v.push f (.panic "attempt to add with overflow") f := by
  have hadd : Realizes World.handle (L.Holds start)
      (checkedAdd (BitVec.ofNat 64 n) 1 : Exec DbError U64) f
      (.panic "attempt to add with overflow") f := by
    rw [checkedAdd, hfull, if_neg (by decide)]
    exact .panic _
  exact .bind (length_realizes hcell hn) (.bind_panic hadd)

/-- A pop opens the last space and no longer counts it. -/
theorem pop_realizes [DecidableEq K] (hslots : Function.Injective L.slot)
    (hcell : v.lengthCell = ⟨L.slotAt k⟩) (hn : f k = U256.ofU64 (BitVec.ofNat 64 (n + 1)))
    (hlt : n + 1 < 2 ^ 64) :
    Realizes World.handle (L.Holds start) v.pop f (.ok (v.at_ (BitVec.ofNat 64 n)))
      (Function.update f k (U256.ofU64 (BitVec.ofNat 64 n))) := by
  have hpred : BitVec.ofNat 64 (n + 1) - 1 = BitVec.ofNat 64 n := by
    rw [BitVec.ofNat_add]
    exact BitVec.add_sub_cancel _ _
  have hne : BitVec.ofNat 64 (n + 1) ≠ 0 := by
    intro h
    have hnat := congrArg BitVec.toNat h
    rw [BitVec.toNat_ofNat, Nat.mod_eq_of_lt hlt] at hnat
    exact Nat.succ_ne_zero n hnat
  have hset : Realizes World.handle (L.Holds start) (v.lengthCell.set (BitVec.ofNat 64 n)) f
      (.ok ()) (Function.update f k (U256.ofU64 (BitVec.ofNat 64 n))) := by
    rw [hcell]
    exact Layout.set_realizes hslots k _
  refine .bind (length_realizes hcell hn) (.ite_neg hne ?_)
  rw [hpred]
  exact .bind hset (.pure _)

end SubStorageVector

end ArbReth
