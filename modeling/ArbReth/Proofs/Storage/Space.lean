import ArbReth.Program.Realizes
import ArbReth.Storage.Storage

/-!
# `ArbReth.Proofs.Storage.Space`: the numbered slots of one space

`Storage.slotsTo last` is the layout of the slots that a space gives to the offsets from
0 to `last`. Only these are described: a space has a slot for each of the `2 ^ 256` keys,
and no hash keeps all of them apart.

`Storage.Holds` says which word is at each of these offsets, as a function of the number
of the offset. It also says that the world differs from a given one in these slots only.
Under the assumption that the offsets have different slots, a read of a numbered slot
answers from the function (`readSlot_realizes`), and a write updates it
(`writeSlot_realizes`). `Holds.getByKey_eq` is the frame: a slot that is apart from these,
of this space or of any other, reads as before.
-/

set_option autoImplicit false

namespace ArbReth

open ArbReth.Program

namespace Storage
variable [Keccak]

/-- The slots that the space gives to the offsets from 0 to `last`. -/
def slotsTo (self : Storage) (last : U64) : Layout (Fin (last.toNat + 1)) where
  account := self.account
  slot i := self.mapAddress (BitVec.ofNat 64 i)

/-- The space holds the word `f i` at each offset `i` up to `last`, and the rest of the
world is as in `start`. -/
structure Holds (sto : Storage) (last : U64) (start w : World) (f : Nat → StorageValue) :
    Prop where
  word : ∀ i, i ≤ last.toNat → w.store sto.account (sto.mapAddress (BitVec.ofNat 64 i)) = f i
  outside : (sto.slotsTo last).SameOutside start w

section
variable {self : Storage} {last : U64} {start w : World} {f : Nat → StorageValue}

/-- Offsets up to `last` with different slots are different keys of the layout. -/
theorem slotsTo_injective (hslots : Set.InjOn self.mapAddress {i | i ≤ last}) :
    Function.Injective (self.slotsTo last).slot := by
  intro i j h
  have hi : (BitVec.ofNat 64 i).toNat = i := Nat.mod_eq_of_lt (by omega)
  have hj : (BitVec.ofNat 64 j).toNat = j := Nat.mod_eq_of_lt (by omega)
  have heq : BitVec.ofNat 64 i = BitVec.ofNat 64 j :=
    hslots (BitVec.le_def.mpr (by omega)) (BitVec.le_def.mpr (by omega)) h
  rw [Fin.ext_iff, ← hi, ← hj, heq]

/-- A read of an offset answers from the function. -/
theorem readSlot_realizes {i : Nat} (hi : i ≤ last.toNat) :
    Realizes World.handle (self.Holds last start) (self.readSlot (BitVec.ofNat 64 i)) f
      (.ok (f i)) f := by
  intro w hw
  refine ⟨w, ?_, hw⟩
  rw [← hw.word i hi]
  rfl

/-- A write to an offset updates the function. -/
theorem writeSlot_realizes (hslots : Set.InjOn self.mapAddress {i | i ≤ last}) {i : Nat}
    (hi : i ≤ last.toNat) (v : StorageValue) :
    Realizes World.handle (self.Holds last start) (self.writeSlot (BitVec.ofNat 64 i) v) f
      (.ok ()) (Function.update f i v) := by
  intro w hw
  let key : Fin (last.toNat + 1) := ⟨i, by omega⟩
  refine ⟨(self.slotsTo last).write w key v, rfl, ?_, hw.outside.write _ _⟩
  intro j hj
  have hread := Layout.read_write (self.slotsTo last) (slotsTo_injective hslots) w key
    ⟨j, by omega⟩ v
  refine hread.trans ?_
  by_cases h : j = i
  · subst h
    rw [if_pos rfl, Function.update_self]
  · rw [if_neg fun heq => h (congrArg Fin.val heq), Function.update_of_ne h]
    exact hw.word j hj

/-- A slot that is apart from the numbered ones reads as at the start. -/
theorem Holds.getByKey_eq (h : self.Holds last start w f) {other : Storage} {key : StorageKey}
    (hapart : other.account = self.account →
      ∀ i ≤ last, other.mapAddressByKey key ≠ self.mapAddress i) :
    (World.run (other.getByKey key) w).1 = (World.run (other.getByKey key) start).1 := by
  have hstore : w.store other.account (other.mapAddressByKey key)
      = start.store other.account (other.mapAddressByKey key) := by
    refine h.outside.store _ _ fun haccount i => hapart haccount _ ?_
    rw [BitVec.le_def, BitVec.toNat_ofNat, Nat.mod_eq_of_lt (by omega)]
    omega
  exact congrArg Outcome.ok hstore

/-- A slot of the space that was zero is zero again when all numbered slots are. -/
theorem Holds.zero_of_zero (h : self.Holds last start w fun _ => 0) {key : StorageKey}
    (hzero : start.store self.account (self.mapAddressByKey key) = 0) :
    w.store self.account (self.mapAddressByKey key) = 0 := by
  by_cases hshared :
      ∃ i : Fin (last.toNat + 1), self.mapAddressByKey key = (self.slotsTo last).slot i
  · obtain ⟨i, hi⟩ := hshared
    rw [hi]
    exact h.word i (by omega)
  · rw [h.outside.store _ _ fun _ i hi => hshared ⟨i, hi⟩, hzero]

/-- The words of the numbered slots fix the world. -/
theorem Holds.unique {w' : World} (h : self.Holds last start w f)
    (h' : self.Holds last start w' f) : w' = w := by
  apply World.ext
  · funext a k
    by_cases hin : a = self.account ∧ ∃ i, k = (self.slotsTo last).slot i
    · obtain ⟨rfl, i, rfl⟩ := hin
      exact (h'.word i (by omega)).trans (h.word i (by omega)).symm
    · have hout : a = (self.slotsTo last).account → ∀ i, k ≠ (self.slotsTo last).slot i :=
        fun ha i hk => hin ⟨ha, i, hk⟩
      rw [h'.outside.store a k hout, h.outside.store a k hout]
  · rw [h'.outside.balance, h.outside.balance]
  · rw [h'.outside.readOnly, h.outside.readOnly]

/-- A program that leaves the words of the space as they are leaves the world so. -/
theorem run_of_realizes {ε α : Type} {p : Exec ε α} {r : Outcome ε α}
    (h : Realizes World.handle (self.Holds last start) p f r f)
    (hw : self.Holds last start w f) : World.run p w = (r, w) := by
  obtain ⟨w', hrun, hw'⟩ := h w hw
  rw [hw.unique hw'] at hrun
  exact hrun

end

end Storage

end ArbReth
