import ArbReth.Burn
import ArbReth.Program.Weigh
import ArbReth.Proofs.Storage.Operation

/-!
# `ArbReth.Proofs.Storage.Machine`: runs on a machine

One run lemma for each accessor, on a context and a burner of any kind. A charged
read moves the burner only: `Machine.charged`. The lemmas hold for each way
`refuses` to answer for the burner, so they serve the machine and its writable
variant alike.
-/

set_option autoImplicit false

namespace ArbReth

open ArbReth.Program

namespace Exec
variable {ε ε' α β σ : Type}

/-- The types of the error and of the result have no part in the commands. -/
theorem trace_reply (h : Handler Resp σ) (p : Exec ε α) (err : ε → ε') (result : α → β) (s : σ) :
    (p.reply err result).trace h s = p.trace h s := by
  rw [reply, Prog.trace_bind, Prog.trace_mapErr]
  rcases (Prog.mapErr err p).exec h s with ⟨_ | _ | _, s'⟩ <;> simp [Prog.trace]

/-- Nor in what is counted of them. -/
theorem weigh_reply (w : Event Resp → Nat) (h : Handler Resp σ) (p : Exec ε α) (err : ε → ε')
    (result : α → β) (s : σ) : (p.reply err result).weigh w h s = p.weigh w h s := by
  rw [Prog.weigh, trace_reply, Prog.weigh]

end Exec

namespace Machine
variable {σ B : Type} [Context σ] [Burner B]

/-- The machine after a charged read. -/
def charged (m : Machine σ B) : Machine σ B := m.charge .storageAccess storageReadCost

variable (refuses : B → Bool)

/-- A read of the database answers with the word it shows. -/
theorem exec_storage (a : Address) (k : StorageKey) (m : Machine σ B) :
    (Exec.storage a k).exec (handleWith refuses) m = (.ok (m.view a k), m) := by
  show Prog.exec (handleWith refuses)
      (Exec.ofResult (Context.handle (.storage a k) m.context).1) (m.step (.storage a k)) = _
  rw [Context.handle_storage, step_storage]
  rfl

/-- A write succeeds. -/
theorem exec_sstore (a : Address) (k : StorageKey) (v : StorageValue) (m : Machine σ B) :
    (Exec.sstore a k v).exec (handleWith refuses) m = (.ok (), m.step (.sstore a k v)) := by
  show Prog.exec (handleWith refuses)
      (Exec.ofResult (Context.handle (.sstore a k v) m.context).1) (m.step (.sstore a k v)) = _
  rw [Context.handle_sstore]
  rfl

/-! ### Slots and cells -/

/-- A read answers what the context shows, and charges. -/
theorem exec_get (slot : StorageSlot) (m : Machine σ B) :
    slot.get.exec (handleWith refuses) m = (.ok (m.view slot.account slot.slot), m.charged) :=
  exec_storage refuses slot.account slot.slot m.charged

/-- A write under a burner that refuses it panics before anything else. -/
theorem exec_set_of_refuses {slot : StorageSlot} {v : StorageValue} {m : Machine σ B}
    (href : refuses m.burner = true) :
    (slot.set v).exec (handleWith refuses) m
      = (.panic "read-only burner attempted to mutate state", m) := by
  show Prog.exec (handleWith refuses) (if refuses m.burner then _ else _) m = _
  rw [if_pos href]
  rfl

/-- A write that is not refused charges and reaches the context. -/
theorem exec_set {slot : StorageSlot} {v : StorageValue} {m : Machine σ B}
    (href : refuses m.burner = false) :
    (slot.set v).exec (handleWith refuses) m
      = (.ok (),
        (m.charge .storageAccess (writeCost v)).step (.sstore slot.account slot.slot v)) := by
  show Prog.exec (handleWith refuses) (if refuses m.burner then _ else _) m = _
  rw [if_neg (by simp [href])]
  exact exec_sstore refuses slot.account slot.slot v _

/-- The number in a cell, when the stored word is one. -/
def uint64 (m : Machine σ B) (cell : StorageBackedUint64) : Option U64 :=
  U64.tryFrom (m.view cell.slot.account cell.slot.slot)

/-- A number that fits in its cell is read. -/
theorem exec_uint64_get {m : Machine σ B} {cell : StorageBackedUint64} {v : U64}
    (hv : m.uint64 cell = some v) :
    cell.get.exec (handleWith refuses) m = (.ok v, m.charged) := by
  rw [StorageBackedUint64.get, StorageSlot.getWord, Prog.exec_bind_ok (exec_get refuses _ m)]
  rw [uint64] at hv
  rw [hv]
  show Prog.exec _ (if _ then _ else _) _ = _
  rw [if_neg (by have := v.isLt; omega)]
  rfl

/-- A number that does not fit in its cell panics, after the charge. -/
theorem exec_uint64_get_panic {m : Machine σ B} {cell : StorageBackedUint64}
    (hv : m.uint64 cell = none) :
    cell.get.exec (handleWith refuses) m
      = (.panic "expected uint64 compatible value in storage", m.charged) := by
  rw [StorageBackedUint64.get, StorageSlot.getWord, Prog.exec_bind_ok (exec_get refuses _ m)]
  rw [uint64] at hv
  rw [hv]
  rfl

/-- What a cell of a `u64` is read as. -/
theorem exec_uint64_get_ok {m m' : Machine σ B} {cell : StorageBackedUint64} {v : U64}
    (hrun : cell.get.exec (handleWith refuses) m = (.ok v, m')) :
    m.uint64 cell = some v ∧ m' = m.charged := by
  cases hv : m.uint64 cell with
  | none => rw [exec_uint64_get_panic refuses hv] at hrun; cases hrun
  | some u => rw [exec_uint64_get refuses hv] at hrun; cases hrun; exact ⟨rfl, rfl⟩

/-- A number below the maximum is incremented, when the burner accepts the write. -/
theorem exec_increment {m : Machine σ B} {cell : StorageBackedUint64} {v : U64}
    (hv : m.uint64 cell = some v) (hmax : v ≠ BitVec.allOnes 64)
    (href : refuses m.charged.burner = false) :
    cell.increment.exec (handleWith refuses) m
      = (.ok (v + 1), (m.charged.charge .storageAccess (writeCost (U256.ofU64 (v + 1)))).step
          (.sstore cell.slot.account cell.slot.slot (U256.ofU64 (v + 1)))) := by
  rw [StorageBackedUint64.increment, Prog.exec_bind_ok (exec_uint64_get refuses hv), if_neg hmax]
  exact Prog.exec_bind_ok (exec_set refuses href) _

/-- When an increment returns, the cell held a number below the maximum and the burner
accepted the write. -/
theorem exec_increment_ok {m m' : Machine σ B} {cell : StorageBackedUint64} {v' : U64}
    (hrun : cell.increment.exec (handleWith refuses) m = (.ok v', m')) :
    ∃ v, m.uint64 cell = some v ∧ v ≠ BitVec.allOnes 64 ∧ refuses m.charged.burner = false := by
  cases hv : m.uint64 cell with
  | none =>
      rw [StorageBackedUint64.increment, Prog.exec_bind_panic (exec_uint64_get_panic refuses hv)]
        at hrun
      cases hrun
  | some v =>
      rw [StorageBackedUint64.increment, Prog.exec_bind_ok (exec_uint64_get refuses hv)] at hrun
      by_cases hmax : v = BitVec.allOnes 64
      · rw [if_pos hmax] at hrun
        cases hrun
      · rw [if_neg hmax] at hrun
        cases href : refuses m.charged.burner with
        | false => exact ⟨v, rfl, hmax, rfl⟩
        | true =>
            rw [StorageBackedUint64.set, Prog.exec_bind_panic (exec_set_of_refuses refuses href)]
              at hrun
            cases hrun

/-! ### Queues -/

section
variable {self : Queue}

/-- A program that first reads both offsets goes on with the two numbers. -/
theorem exec_offsets {α : Type} {m : Machine σ B} {put get : U64}
    (hput : m.uint64 self.nextPutOffset = some put) (hget : m.uint64 self.nextGetOffset = some get)
    (k : U64 → U64 → Exec DbError α) :
    Prog.exec (handleWith refuses)
        (do let put ← self.nextPutOffset.get; let get ← self.nextGetOffset.get; k put get) m
      = (k put get).exec (handleWith refuses) m.charged.charged := by
  rw [Prog.exec_bind_ok (exec_uint64_get refuses hput)]
  exact Prog.exec_bind_ok (exec_uint64_get (m := m.charged) refuses hget) _

/-- When such a program returns, both offsets were numbers. -/
theorem exec_offsets_ok {α : Type} {m m' : Machine σ B} {a : α} {k : U64 → U64 → Exec DbError α}
    (hrun : Prog.exec (handleWith refuses)
      (do let put ← self.nextPutOffset.get; let get ← self.nextGetOffset.get; k put get) m
        = (.ok a, m')) :
    ∃ put get, m.uint64 self.nextPutOffset = some put ∧ m.uint64 self.nextGetOffset = some get
      ∧ (k put get).exec (handleWith refuses) m.charged.charged = (.ok a, m') := by
  cases hput : m.uint64 self.nextPutOffset with
  | none =>
      rw [Prog.exec_bind_panic (exec_uint64_get_panic refuses hput)] at hrun
      cases hrun
  | some put =>
      cases hget : m.uint64 self.nextGetOffset with
      | none =>
          rw [Prog.exec_bind_ok (exec_uint64_get refuses hput),
            Prog.exec_bind_panic (exec_uint64_get_panic (m := m.charged) refuses hget)] at hrun
          cases hrun
      | some get =>
          rw [exec_offsets refuses hput hget] at hrun
          exact ⟨put, get, rfl, rfl, hrun⟩

end

/-! ### Spaces -/

section
variable [Keccak] (self : Storage)

/-- A read by offset answers what the context shows. -/
theorem exec_readSlot (offset : U64) (m : Machine σ B) :
    (self.readSlot offset).exec (handleWith refuses) m
      = (.ok (m.view self.account (self.mapAddress offset)), m) :=
  exec_storage refuses _ _ m

/-- The length of a byte string is read without a charge, and is refused when it is not
a number. -/
theorem exec_getBytesSize (m : Machine σ B) :
    self.getBytesSize.exec (handleWith refuses) m
      = match U64.tryFrom (m.view self.account (self.mapAddress 0)) with
        | some n => (.ok n, m)
        | none => (.panic "invalid byte length in StorageBackedBytes", m) := by
  rw [Storage.getBytesSize, Prog.exec_bind_ok (exec_readSlot refuses self 0 m)]
  cases U64.tryFrom (m.view self.account (self.mapAddress 0)) <;> rfl

/-- A read by key answers what the context shows. -/
theorem exec_getByKey (key : StorageKey) (m : Machine σ B) :
    (self.getByKey key).exec (handleWith refuses) m
      = (.ok (m.view self.account (self.mapAddressByKey key)), m) :=
  exec_storage refuses _ _ m

/-- A key that holds a number is read as that number. -/
theorem exec_getUint64ByKey {m : Machine σ B} {key : StorageKey} {v : U64}
    (hv : U64.tryFrom (m.view self.account (self.mapAddressByKey key)) = some v) :
    (self.getUint64ByKey key).exec (handleWith refuses) m = (.ok v, m) := by
  rw [Storage.getUint64ByKey, Prog.exec_bind_ok (exec_getByKey refuses self key m), hv]
  rfl

end

end Machine

end ArbReth
