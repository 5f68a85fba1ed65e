import ArbReth.Program.Confined
import ArbReth.Proofs.Storage.Coherence
import ArbReth.Proofs.Storage.Words
import ArbReth.Reply
import ArbReth.Storage.Vector

/-!
# `ArbReth.Proofs.Storage.Transaction`: a program in a transaction of its own

`TwoLayer.transact` runs a program in a transaction, which is then committed. A read gives
the word of the database there, also after the transaction has written another one.

A program that asks at most (`Asks`) runs as it does on the database, and one that reads no
slot (`Tells`) as it does on the store that a commit would leave. So the parts of a program are
taken over from their runs on a coherent store. `InTransaction R D` relates the two layers to
abstract states: what is read is the `D` of the database, and what is written changes the
latest state. `transact_of_realizes` is the whole transaction.
-/

set_option autoImplicit false

namespace ArbReth

open ArbReth.Program

/-- Run a program in a transaction of its own, which is committed whatever its outcome is. -/
def TwoLayer.transact {ε α : Type} (p : Exec ε α) (w : World) : Outcome ε α × World :=
  let run := p.exec TwoLayer.handle (.begin w.store w.balance w.readOnly)
  (run.1, run.2.committed)

/-! ### Commands that read and commands that write -/

/-- The command changes nothing, and reads no balance. -/
def Cmd.Asks : Cmd → Prop
  | .sstore _ _ _ => False
  | .transfer _ _ _ => False
  | .loadBalance _ => False
  | _ => True

/-- The command reads no slot. -/
def Cmd.Tells : Cmd → Prop
  | .storage _ _ => False
  | _ => True

/-- The program only reads slots. -/
abbrev Asks {ε α : Type} (p : Exec ε α) : Prop := p.Issues Cmd.Asks

/-- The program reads no slot. -/
abbrev Tells {ε α : Type} (p : Exec ε α) : Prop := p.Issues Cmd.Tells

section
variable {ε α : Type} {p : Exec ε α}

/-- A program that only reads slots runs as on the database, and leaves the transaction as
it is. -/
theorem Asks.exec (hp : Asks p) (s : TwoLayer) (balance : Address → U256) :
    p.exec TwoLayer.handle s = ((World.run p ⟨s.db, balance, s.readOnly⟩).1, s) := by
  have hrun : p.exec World.handle ⟨s.db, balance, s.readOnly⟩
      = ((p.exec TwoLayer.handle s).1,
        ⟨(p.exec TwoLayer.handle s).2.db, balance, (p.exec TwoLayer.handle s).2.readOnly⟩) := by
    refine hp.exec_eq (fun s : TwoLayer => World.mk s.db balance s.readOnly) (fun c s hc => ?_) s
    cases c with
    | sstore a k v => exact hc.elim
    | transfer src dst amount => exact hc.elim
    | loadBalance a => exact hc.elim
    | _ => rfl
  have hkeep : (p.exec TwoLayer.handle s).2 = s := by
    refine hp.preserves (I := (· = s)) (fun c s' hc hs' => ?_) rfl
    cases c with
    | sstore a k v => exact hc.elim
    | transfer src dst amount => exact hc.elim
    | _ => exact hs'
  rw [World.run, hrun]
  exact Prod.ext rfl hkeep

/-- A program that reads no slot runs as on the store that a commit would leave. -/
theorem Tells.exec (hp : Tells p) (s : TwoLayer) :
    World.run p s.committed
      = ((p.exec TwoLayer.handle s).1, (p.exec TwoLayer.handle s).2.committed) := by
  refine hp.exec_eq TwoLayer.committed (fun c s hc => ?_) s
  cases c with
  | storage a k => exact hc.elim
  | sstore a k v => exact congrArg (Except.ok (), ·) (s.committed_record a k v).symm
  | _ => rfl

/-- No program changes the database, or whether the burner is read-only. -/
theorem TwoLayer.exec_frame (p : Exec ε α) (s : TwoLayer) :
    (p.exec TwoLayer.handle s).2.db = s.db
      ∧ (p.exec TwoLayer.handle s).2.readOnly = s.readOnly := by
  have hissues : p.Issues fun _ => True := by
    induction p with
    | call c k ih => exact ⟨trivial, ih⟩
    | _ => exact trivial
  refine hissues.preserves (I := fun s' : TwoLayer => s'.db = s.db ∧ s'.readOnly = s.readOnly)
    (fun c s' _ hs' => ?_) ⟨rfl, rfl⟩
  cases c <;> exact hs'

end

/-! ### Two layers and two abstract states -/

/-- The database is that of `D`, and the store that a commit would leave is that of `L`. -/
structure InTransaction {τ : Type} (R : World → τ → Prop) (D : τ) (s : TwoLayer) (L : τ) :
    Prop where
  database : ∃ balance, R ⟨s.db, balance, s.readOnly⟩ D
  latest : R s.committed L

section
variable {τ ε α : Type} {R : World → τ → Prop} {D L L' : τ} {p : Exec ε α} {r : Outcome ε α}

/-- What is read is read from the database. -/
theorem Asks.over (hp : Asks p) (h : Realizes World.handle R p D r D) (L : τ) :
    Realizes TwoLayer.handle (InTransaction R D) p L r L := by
  intro s hs
  obtain ⟨balance, hD⟩ := hs.database
  obtain ⟨w, hrun, -⟩ := h _ hD
  refine ⟨s, ?_, hs⟩
  rw [hp.exec s balance]
  exact congrArg (·, s) (congrArg Prod.fst hrun)

/-- What is written is written to the latest state. -/
theorem Tells.over (hp : Tells p) (h : Realizes World.handle R p L r L') (D : τ) :
    Realizes TwoLayer.handle (InTransaction R D) p L r L' := by
  intro s hs
  obtain ⟨w, hrun, hw⟩ := h _ hs.latest
  obtain ⟨hdb, hreadOnly⟩ := TwoLayer.exec_frame p s
  have hcommitted := Tells.exec hp s
  rw [World.run] at hcommitted
  rw [hcommitted] at hrun
  obtain ⟨hr, rfl⟩ := Prod.mk.inj hrun
  refine ⟨_, Prod.ext hr rfl, ?_, hw⟩
  rw [hdb, hreadOnly]
  exact hs.database

/-- A program that ends as `r` and `L` say in a transaction which starts with it. -/
theorem transact_of_realizes {w : World} (hR : R w D)
    (hp : Realizes TwoLayer.handle (InTransaction R D) p D r L) :
    (TwoLayer.transact p w).1 = r ∧ R (TwoLayer.transact p w).2 L := by
  have hbegin : InTransaction R D (.begin w.store w.balance w.readOnly) D := ⟨⟨w.balance, hR⟩, hR⟩
  obtain ⟨s, hrun, hs⟩ := hp _ hbegin
  rw [TwoLayer.transact, hrun]
  exact ⟨rfl, hs.latest⟩

end

/-! ### Accessors -/

section
variable {ε α : Type}

namespace Exec

/-- A storage read asks. -/
theorem storage_asks (a : Address) (k : StorageKey) : Asks (Exec.storage a k) :=
  ⟨trivial, fun r => by cases r <;> trivial⟩

/-- A storage write tells. -/
theorem sstore_tells (a : Address) (k : StorageKey) (v : StorageValue) :
    Tells (Exec.sstore a k v) := ⟨trivial, fun r => by cases r <;> trivial⟩

/-- A transfer tells, since the balances are those of the journal. -/
theorem transfer_tells (src dst : Address) (amount : U256) :
    Tells (Exec.transfer src dst amount) := ⟨trivial, fun r => by cases r <;> trivial⟩

/-- A reply changes what is returned, not what is asked. -/
theorem reply_asks {p : Exec ε α} (hp : Asks p) (err : ε → CallError) (result : α → Reply) :
    Asks (p.reply err result) := (hp.mapErr err).bind fun _ => .pure _

/-- A reply changes what is returned, not what is told. -/
theorem reply_tells {p : Exec ε α} (hp : Tells p) (err : ε → CallError) (result : α → Reply) :
    Tells (p.reply err result) := (hp.mapErr err).bind fun _ => .pure _

end Exec

namespace StorageSlot
variable (self : StorageSlot)

/-- The read of a slot asks. -/
theorem get_asks : Asks self.get :=
  ⟨trivial, fun _ => ⟨trivial, fun _ => Exec.storage_asks _ _⟩⟩

/-- A typed read of a slot asks. -/
theorem getWord_asks (bound : Nat) (msg : String) : Asks (self.getWord bound msg) := by
  refine self.get_asks.bind fun raw => ?_
  cases U64.tryFrom raw with
  | none => trivial
  | some v => exact .ite trivial trivial

/-- The write of a slot tells. -/
theorem set_tells (v : StorageValue) : Tells (self.set v) :=
  ⟨trivial, fun _ => .ite trivial ⟨trivial, fun _ => ⟨trivial, fun _ => Exec.sstore_tells _ _ _⟩⟩⟩

end StorageSlot

/-- The read of a signed cell asks. -/
theorem StorageBackedBigInt.get_asks (self : StorageBackedBigInt) : Asks self.get :=
  self.slot.get_asks.bind fun _ => .pure _

/-- The read of an address cell asks. -/
theorem StorageBackedAddress.get_asks (self : StorageBackedAddress) : Asks self.get :=
  self.slot.get_asks.bind fun _ => .pure _

/-- The read of a 32-bit cell asks. -/
theorem StorageBackedUint32.get_asks (self : StorageBackedUint32) : Asks self.get :=
  (self.slot.getWord_asks _ _).bind fun _ => .pure _

end

/-! ### The words of a layout -/

namespace Layout
variable {K : Type} {L : Layout K} {start : World} {f : K → StorageValue}

/-- A word of 64 bits is read. The latest words `g` do not matter. -/
theorem getUint64_over (g : K → StorageValue) (k : K) {v : U64} (hv : f k = U256.ofU64 v) :
    Realizes TwoLayer.handle (InTransaction (L.Holds start) f)
      (StorageBackedUint64.mk (L.slotAt k)).get g (.ok v) g :=
  Asks.over (StorageSlot.getWord_asks _ _ _) (getUint64_realizes k hv) g

/-- A write in a transaction changes the latest words at its key only. -/
theorem set_over [DecidableEq K] (hslots : Function.Injective L.slot) (g : K → StorageValue)
    (k : K) (v : StorageValue) :
    Realizes TwoLayer.handle (InTransaction (L.Holds start) f) ((L.slotAt k).set v) g (.ok ())
      (Function.update g k v) :=
  Tells.over (StorageSlot.set_tells _ _) (set_realizes hslots k v) f

end Layout

namespace SubStorageVector
variable [Keccak] {K : Type} {L : Layout K} {start : World} {f : K → StorageValue}
  {v : SubStorageVector} {k : K} {n : Nat}

omit [Keccak] in
/-- The length of a vector is that of the database. -/
theorem length_over (hcell : v.lengthCell = ⟨L.slotAt k⟩)
    (hn : f k = U256.ofU64 (BitVec.ofNat 64 n)) (g : K → StorageValue) :
    Realizes TwoLayer.handle (InTransaction (L.Holds start) f) v.length g
      (.ok (BitVec.ofNat 64 n)) g := by
  rw [length, hcell]
  exact Layout.getUint64_over g k hn

/-- A push appends after the length in the database. -/
theorem push_over [DecidableEq K] (hslots : Function.Injective L.slot)
    (hcell : v.lengthCell = ⟨L.slotAt k⟩) (hn : f k = U256.ofU64 (BitVec.ofNat 64 n))
    (hlt : n + 1 < 2 ^ 64) (g : K → StorageValue) :
    Realizes TwoLayer.handle (InTransaction (L.Holds start) f) v.push g
      (.ok (v.at_ (BitVec.ofNat 64 n)))
      (Function.update g k (U256.ofU64 (BitVec.ofNat 64 (n + 1)))) := by
  have hsucc : BitVec.ofNat 64 n + 1 = BitVec.ofNat 64 (n + 1) := by
    rw [BitVec.ofNat_add]
    rfl
  have hfit : (BitVec.ofNat 64 n).toNat + (1 : U64).toNat < 2 ^ 64 := by
    rw [BitVec.toNat_ofNat, Nat.mod_eq_of_lt (by omega)]
    exact hlt
  have hadd : Realizes TwoLayer.handle (InTransaction (L.Holds start) f)
      (checkedAdd (BitVec.ofNat 64 n) 1 : Exec DbError U64) g
      (.ok (BitVec.ofNat 64 (n + 1))) g := by
    rw [checkedAdd, if_pos hfit, hsucc]
    exact .pure _
  have hset : Realizes TwoLayer.handle (InTransaction (L.Holds start) f)
      (v.lengthCell.set (BitVec.ofNat 64 (n + 1))) g (.ok ())
      (Function.update g k (U256.ofU64 (BitVec.ofNat 64 (n + 1)))) := by
    rw [hcell]
    exact Layout.set_over hslots g k _
  exact .bind (length_over hcell hn g) (.bind hadd (.bind hset (.pure _)))

/-- A push onto a vector of the largest length panics before it writes. -/
theorem push_over_panics (hcell : v.lengthCell = ⟨L.slotAt k⟩)
    (hn : f k = U256.ofU64 (BitVec.ofNat 64 n)) (hfull : n = 2 ^ 64 - 1) (g : K → StorageValue) :
    Realizes TwoLayer.handle (InTransaction (L.Holds start) f) v.push g
      (.panic "attempt to add with overflow") g := by
  have hadd : Realizes TwoLayer.handle (InTransaction (L.Holds start) f)
      (checkedAdd (BitVec.ofNat 64 n) 1 : Exec DbError U64) g
      (.panic "attempt to add with overflow") g := by
    rw [checkedAdd, hfull, if_neg (by decide)]
    exact .panic _
  exact .bind (length_over hcell hn g) (.bind_panic hadd)

/-- A pop takes the last place of the length in the database, also when the transaction has
popped it before. -/
theorem pop_over [DecidableEq K] (hslots : Function.Injective L.slot)
    (hcell : v.lengthCell = ⟨L.slotAt k⟩) (hn : f k = U256.ofU64 (BitVec.ofNat 64 (n + 1)))
    (hlt : n + 1 < 2 ^ 64) (g : K → StorageValue) :
    Realizes TwoLayer.handle (InTransaction (L.Holds start) f) v.pop g
      (.ok (v.at_ (BitVec.ofNat 64 n)))
      (Function.update g k (U256.ofU64 (BitVec.ofNat 64 n))) := by
  have hpred : BitVec.ofNat 64 (n + 1) - 1 = BitVec.ofNat 64 n := by
    rw [BitVec.ofNat_add]
    exact BitVec.add_sub_cancel _ _
  have hne : BitVec.ofNat 64 (n + 1) ≠ 0 := by
    intro h
    have hnat := congrArg BitVec.toNat h
    rw [BitVec.toNat_ofNat, Nat.mod_eq_of_lt hlt] at hnat
    exact Nat.succ_ne_zero n hnat
  have hset : Realizes TwoLayer.handle (InTransaction (L.Holds start) f)
      (v.lengthCell.set (BitVec.ofNat 64 n)) g (.ok ())
      (Function.update g k (U256.ofU64 (BitVec.ofNat 64 n))) := by
    rw [hcell]
    exact Layout.set_over hslots g k _
  refine .bind (length_over hcell hn g) (.ite_neg hne ?_)
  rw [hpred]
  exact .bind hset (.pure _)

end SubStorageVector

end ArbReth
