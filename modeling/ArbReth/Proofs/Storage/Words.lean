import ArbReth.Program.Realizes
import ArbReth.Proofs.Storage.Cells

/-!
# `ArbReth.Proofs.Storage.Words`: the words of a layout

`Layout.Holds` describes the slots of a layout: the word at each key, as a function, and
nothing else in the world differs from a given one. A read of a slot answers from the
function, and a write updates it, when the keys have different slots. The words fix the
world (`Holds.unique`).
-/

set_option autoImplicit false

namespace ArbReth

open ArbReth.Program

namespace Layout
variable {K : Type}

/-- The slots hold the words `f`, the rest of the world is as in `start`, and the burner
lets writes through. -/
structure Holds (L : Layout K) (start w : World) (f : K → StorageValue) : Prop where
  word : ∀ k, L.read w k = f k
  outside : L.SameOutside start w
  writable : w.readOnly = false

/-- The slot of a key. -/
def slotAt (L : Layout K) (k : K) : StorageSlot := ⟨L.account, L.slot k⟩

section
variable {L : Layout K} {start : World} {f : K → StorageValue}

/-- A `u64` that a slot holds is read. -/
theorem getUint64_realizes (k : K) {v : U64} (hv : f k = U256.ofU64 v) :
    Realizes World.handle (L.Holds start) (StorageBackedUint64.mk (L.slotAt k)).get f (.ok v) f :=
  fun w hw => ⟨w, StorageBackedUint64.run_get _ ((hw.word k).trans hv), hw⟩

/-- A signed number that a slot holds is read. -/
theorem getBigInt_realizes (k : K) {v : I256} (hv : f k = v.intoRaw) :
    Realizes World.handle (L.Holds start) (StorageBackedBigInt.mk (L.slotAt k)).get f (.ok v) f :=
  fun w hw => ⟨w, StorageBackedBigInt.run_get _ ((hw.word k).trans hv), hw⟩

/-- A write changes the word at its key only. -/
theorem set_realizes [DecidableEq K] (hslots : Function.Injective L.slot) (k : K)
    (v : StorageValue) :
    Realizes World.handle (L.Holds start) ((L.slotAt k).set v) f (.ok ())
      (Function.update f k v) := by
  intro w hw
  refine ⟨L.write w k v, StorageSlot.run_set _ hw.writable v, ?_, hw.outside.write _ _, hw.writable⟩
  intro k'
  rw [read_write L hslots]
  by_cases h : k' = k
  · rw [if_pos h, h, Function.update_self]
  · rw [if_neg h, Function.update_of_ne h, hw.word]

end

/-- The words fix the world. -/
theorem Holds.unique {L : Layout K} {start w w' : World} {f : K → StorageValue}
    (h : L.Holds start w f) (h' : L.Holds start w' f) : w' = w := by
  apply World.ext
  · funext a s
    by_cases hin : a = L.account ∧ ∃ k, s = L.slot k
    · obtain ⟨rfl, k, rfl⟩ := hin
      exact (h'.word k).trans (h.word k).symm
    · have hout : a = L.account → ∀ k, s ≠ L.slot k := fun ha k hk => hin ⟨ha, k, hk⟩
      rw [h'.outside.store a s hout, h.outside.store a s hout]
  · rw [h'.outside.balance, h.outside.balance]
  · rw [h'.outside.readOnly, h.outside.readOnly]

/-- The slots hold the words, whatever the rest of the world is. -/
def Shows (L : Layout K) (w : World) (f : K → StorageValue) : Prop := L.Holds w w f

/-- What holds the words shows them. -/
theorem Holds.shows {L : Layout K} {start w : World} {f : K → StorageValue}
    (h : L.Holds start w f) : L.Shows w f := ⟨h.word, .refl L w, h.writable⟩

/-- The words of other worlds with the same slots. -/
theorem Shows.of_agree {L : Layout K} {w w' : World} {f : K → StorageValue} (h : L.Shows w f)
    (hstore : ∀ k, w'.store L.account (L.slot k) = w.store L.account (L.slot k))
    (hreadOnly : w'.readOnly = w.readOnly) : L.Shows w' f where
  word k := (hstore k).trans (h.word k)
  outside := .refl L w'
  writable := hreadOnly.trans h.writable

end Layout

end ArbReth
