import ArbReth.Storage.Storage

/-!
# `ArbReth.Proofs.Storage.Cells`: runs of the cells on a coherent store

One run lemma for each accessor of a slot, a cell and a space, on a `World`. A read returns
the stored word and changes nothing. A write under a writable burner is one `World.write`.

## How the lemmas are used

`World.run_bind` splits a sequence, and each accessor then has an equation for its run. So
`simp` runs a straight-line program with these lemmas, and `run_bind_ok` is the step for one
part whose result is known. A cell that holds a number has the hypothesis that its slot
holds the word of a `u64`, since another word makes the read panic. A charged write has the
hypothesis that the burner is writable. The accessors that ask no burner have none.

The charges themselves are not seen here: a `World` counts no gas. The machine of
`ArbReth.Burn` does, and `ArbReth.Proofs.Storage.Machine` has its run lemmas.
-/

set_option autoImplicit false

namespace ArbReth

open ArbReth.Program

namespace World
variable {ε ε' α β : Type}

/-- A sequence runs its second part on the result of the first, or ends with the first. -/
theorem run_bind (p : Exec ε α) (f : α → Exec ε β) (w : World) :
    run (p >>= f) w
      = match run p w with
        | (.ok a, w') => run (f a) w'
        | (.err e, w') => (.err e, w')
        | (.panic m, w') => (.panic m, w') := by
  unfold run
  rw [Prog.exec_bind]
  rcases Prog.exec handle p w with ⟨_ | _ | _, w'⟩ <;> rfl

/-- A first program that returns. -/
theorem run_bind_ok {p : Exec ε α} {w w' : World} {a : α} (hp : run p w = (.ok a, w'))
    (f : α → Exec ε β) : run (p >>= f) w = run (f a) w' :=
  Prog.exec_bind_ok hp f

/-- A first program that panics. -/
theorem run_bind_panic {p : Exec ε α} {w w' : World} {m : String}
    (hp : run p w = (.panic m, w')) (f : α → Exec ε β) : run (p >>= f) w = (.panic m, w') :=
  Prog.exec_bind_panic hp f

/-- A first program that fails. -/
theorem run_bind_err {p : Exec ε α} {w w' : World} {e : ε}
    (hp : run p w = (.err e, w')) (f : α → Exec ε β) : run (p >>= f) w = (.err e, w') :=
  Prog.exec_bind_err hp f

/-- A program that returns is not changed by a conversion of its error. -/
theorem run_mapErr_ok {p : Exec ε α} {w w' : World} {a : α} (hp : run p w = (.ok a, w'))
    (f : ε → ε') : run (p.mapErr f) w = (.ok a, w') := by
  rw [run] at hp
  rw [run, Prog.mapErr, Prog.exec_handleErr, hp]

/-- Nor is one that panics. -/
theorem run_mapErr_panic {p : Exec ε α} {w w' : World} {m : String}
    (hp : run p w = (.panic m, w')) (f : ε → ε') : run (p.mapErr f) w = (.panic m, w') := by
  rw [run] at hp
  rw [run, Prog.mapErr, Prog.exec_handleErr, hp]

/-- A result is returned in the world as it is. -/
@[simp] theorem run_pure (a : α) (w : World) : run (pure a : Exec ε α) w = (.ok a, w) := rfl

/-- A test runs the branch that it takes. -/
theorem run_ite (c : Prop) [Decidable c] (p q : Exec ε α) (w : World) :
    run (if c then p else q) w = if c then run p w else run q w := by
  split <;> rfl

/-- A sum that fits is returned. -/
theorem run_checkedAdd {n : Nat} {x y : BitVec n} (h : x.toNat + y.toNat < 2 ^ n) (w : World) :
    run (checkedAdd x y : Exec ε (BitVec n)) w = (.ok (x + y), w) := by
  rw [checkedAdd, if_pos h]
  rfl

/-- A difference that is not negative is returned. -/
theorem run_checkedSub {n : Nat} {x y : BitVec n} (h : y ≤ x) (w : World) :
    run (checkedSub x y : Exec ε (BitVec n)) w = (.ok (x - y), w) := by
  rw [checkedSub, if_pos h]
  rfl

/-- A quotient by a divisor that is not zero is returned. -/
theorem run_checkedDiv {n : Nat} {x y : BitVec n} (h : y ≠ 0) (w : World) :
    run (checkedDiv x y : Exec ε (BitVec n)) w = (.ok (x / y), w) := by
  rw [checkedDiv, if_neg h]
  rfl

end World

open World

/-! ### Slots -/

namespace StorageSlot
variable (self : StorageSlot)

/-- A read returns the stored word and leaves the world as it is. -/
@[simp] theorem run_get (w : World) : run self.get w = (.ok (w.store self.account self.slot), w) :=
  rfl

/-- A write under a writable burner is one write of the store. -/
theorem run_set {w : World} (hw : w.readOnly = false) (v : StorageValue) :
    run (self.set v) w = (.ok (), w.write self.account self.slot v) := by
  rw [set, run_bind, run_readOnly, hw]
  rfl

/-- A slot that holds a number within the bound is read as that number. -/
theorem run_getWord {w : World} {v : U64} {bound : Nat}
    (hv : w.store self.account self.slot = U256.ofU64 v) (hb : v.toNat ≤ bound) (msg : String) :
    run (self.getWord bound msg) w = (.ok v, w) := by
  simp only [getWord, run_bind, run_get, hv, U64.tryFrom_ofU64]
  rw [if_neg (by omega)]
  rfl

end StorageSlot

/-! ### Cells of a `u64` -/

namespace StorageBackedUint64
variable (self : StorageBackedUint64)

/-- The number of the cell is read. Every `u64` is within the bound. -/
theorem run_get {w : World} {v : U64}
    (hv : w.store self.slot.account self.slot.slot = U256.ofU64 v) :
    run self.get w = (.ok v, w) :=
  self.slot.run_getWord hv (by have := v.isLt; omega) _

/-- A number is written as the word of its value. -/
theorem run_set {w : World} (hw : w.readOnly = false) (v : U64) :
    run (self.set v) w = (.ok (), w.write self.slot.account self.slot.slot (U256.ofU64 v)) :=
  self.slot.run_set hw _

/-- A number below the largest is raised by one. -/
theorem run_increment {w : World} {v : U64} (hw : w.readOnly = false)
    (hv : w.store self.slot.account self.slot.slot = U256.ofU64 v) (hmax : v.toNat + 1 < 2 ^ 64) :
    run self.increment w
      = (.ok (v + 1), w.write self.slot.account self.slot.slot (U256.ofU64 (v + 1))) := by
  have hne : v ≠ BitVec.allOnes 64 := by
    rintro rfl
    simp at hmax
  simp only [increment, run_bind, self.run_get hv, if_neg hne, self.run_set hw, run_pure]

/-- A positive number is lowered by one. -/
theorem run_decrement {w : World} {v : U64} (hw : w.readOnly = false)
    (hv : w.store self.slot.account self.slot.slot = U256.ofU64 v) (hpos : v ≠ 0) :
    run self.decrement w
      = (.ok (v - 1), w.write self.slot.account self.slot.slot (U256.ofU64 (v - 1))) := by
  simp only [decrement, run_bind, self.run_get hv, if_neg hpos, self.run_set hw, run_pure]

end StorageBackedUint64

/-! ### Cells of 256 bits and of an address -/

/-- The low 20 bytes of the word are read. -/
theorem StorageBackedAddress.run_get (self : StorageBackedAddress) {w : World} {a : Address}
    (h : Address.ofWord (w.store self.slot.account self.slot.slot) = a) :
    run self.get w = (.ok a, w) := by
  rw [← h]
  rfl

/-- The number whose two's-complement bits are stored is read. -/
theorem StorageBackedBigInt.run_get (self : StorageBackedBigInt) {w : World} {x : I256}
    (h : w.store self.slot.account self.slot.slot = x.intoRaw) : run self.get w = (.ok x, w) := by
  have hrun : run self.get w = (.ok (I256.fromRaw (w.store self.slot.account self.slot.slot)), w) :=
    rfl
  rw [hrun, h, I256.fromRaw_intoRaw]

/-- The word is read as it is. -/
theorem StorageBackedBigUint.run_get (self : StorageBackedBigUint) {w : World} {x : U256}
    (h : w.store self.slot.account self.slot.slot = x) : run self.get w = (.ok x, w) := by
  rw [← h]
  rfl

/-! ### Spaces -/

namespace Storage
variable [Keccak] (self : Storage)

/-- A write of a numbered slot asks no burner. -/
@[simp] theorem run_writeSlot (offset : U64) (v : StorageValue) (w : World) :
    run (self.writeSlot offset v) w
      = (.ok (), w.write self.account (self.mapAddress offset) v) := rfl

/-- A read under a key returns the word of its slot. -/
@[simp] theorem run_getByKey (key : StorageKey) (w : World) :
    run (self.getByKey key) w = (.ok (w.store self.account (self.mapAddressByKey key)), w) := rfl

/-- A read under a number is one under the key of the number. -/
@[simp] theorem run_getByUint64 (key : U64) (w : World) :
    run (self.getByUint64 key) w = (.ok (w.store self.account (self.mapAddress key)), w) := rfl

/-- A write under a key asks no burner either. -/
@[simp] theorem run_setByKey (key : StorageKey) (v : StorageValue) (w : World) :
    run (self.setByKey key v) w
      = (.ok (), w.write self.account (self.mapAddressByKey key) v) := rfl

/-- A key that holds a number is read as that number. -/
theorem run_getUint64ByKey {w : World} {key : StorageKey} {v : U64}
    (hv : w.store self.account (self.mapAddressByKey key) = U256.ofU64 v) :
    run (self.getUint64ByKey key) w = (.ok v, w) := by
  simp only [getUint64ByKey, run_bind, run_getByKey, hv, U64.tryFrom_ofU64, run_pure]

/-- A charged write under a key, under a writable burner. -/
theorem run_set {w : World} (hw : w.readOnly = false) (key : StorageKey) (v : StorageValue) :
    run (self.set key v) w = (.ok (), w.write self.account (self.mapAddressByKey key) v) := by
  rw [set, run_bind, run_readOnly, hw]
  rfl

/-- A swap returns the old word and writes the new one. -/
theorem run_swap {w : World} (hw : w.readOnly = false) (key : StorageKey) (v : StorageValue) :
    run (self.swap key v) w
      = (.ok (w.store self.account (self.mapAddressByKey key)),
          w.write self.account (self.mapAddressByKey key) v) := by
  simp only [swap, run_bind, run_getByKey, self.run_set hw, run_pure]

end Storage

end ArbReth
