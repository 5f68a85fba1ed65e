import ArbReth.L1Pricing.State
import ArbReth.Program.Coherent
import ArbReth.Proofs.Storage.Machine

/-!
# `ArbReth.Proofs.Storage.Coherence`: reads and writes of one transaction

A read asks the database and a write goes to the journal, so a read does not see the
writes that the transaction has made before it. `storageMemory` is the memory that a
transaction should see: the word that was written last, or the committed one. A run is
coherent when each read agrees with it.

`TwoLayer.Clean` says of a slot that the transaction has not changed it: its latest word
is the one in the database. A read agrees with the memory exactly when the slot is clean.
`TxOp.ReadsClean` says that all slots which an operation reads are clean where it
reads them, in terms of the two layers before the operation and of the writes that the
operation makes before the read. `coherent_iff` proves for every sequence of operations
that it is coherent exactly when all its operations read clean slots.
-/

set_option autoImplicit false

namespace ArbReth

open ArbReth.Program

/-! ### The memory of a transaction -/

/-- A read agrees with the memory when it answers with the word there. A write changes
the memory. -/
def storageMemory : Memory Resp (Address → StorageKey → StorageValue) where
  Agrees
    | m, ⟨.storage a k, r⟩ => r = .ok (m a k)
    | _, _ => True
  next
    | m, ⟨.sstore a k v, _⟩ => fun a' k' => if a' = a ∧ k' = k then v else m a' k'
    | m, _ => m

namespace TwoLayer

/-- The state after a write to the journal. -/
def record (s : TwoLayer) (a : Address) (k : StorageKey) (v : StorageValue) : TwoLayer :=
  { s with journal := fun a' k' => if a' = a ∧ k' = k then some v else s.journal a' k' }

/-- The transaction has not changed the slot. -/
def Clean (s : TwoLayer) (a : Address) (k : StorageKey) : Prop := s.latest a k = s.db a k

/-- After a write, the written slot has the new word and the others keep theirs. -/
theorem latest_record (s : TwoLayer) (a : Address) (k : StorageKey) (v : StorageValue) :
    (s.record a k v).latest = fun a' k' => if a' = a ∧ k' = k then v else s.latest a' k' := by
  funext a' k'
  show (if a' = a ∧ k' = k then some v else s.journal a' k').getD (s.db a' k') = _
  split
  · rfl
  · rfl

/-- A write to the journal is a write to the store that a commit would produce. -/
theorem committed_record (s : TwoLayer) (a : Address) (k : StorageKey) (v : StorageValue) :
    (s.record a k v).committed = s.committed.write a k v :=
  World.ext (s.latest_record a k v) rfl rfl

end TwoLayer

variable {B : Type} [Burner B]

namespace Machine

/-- The latest words of the machine change as the memory does. -/
theorem tracks_latest :
    storageMemory.Tracks (Machine.handle : Handler Resp (Machine TwoLayer B))
      fun m => m.context.latest := by
  intro c m
  cases c with
  | sstore a k v => exact m.context.latest_record a k v
  | storage _ _ | loadBalance _ | transfer _ _ _ | burn _ _ | readOnly | captureStorageGet _
  | captureStorageSet _ _ => rfl

end Machine

/-- The run of the program agrees with the latest words, from this machine on. -/
def Coherent {ε α : Type} (p : Exec ε α) (m : Machine TwoLayer B) : Prop :=
  storageMemory.Coherent m.context.latest (p.trace Machine.handle m)

section
variable {ε α β : Type} {m : Machine TwoLayer B}

/-- A program that has ended reads nothing more. -/
theorem coherent_done {a : α} : Coherent (.done a : Exec ε α) m := trivial

/-- A program that has panicked reads nothing more. -/
theorem coherent_panic {msg : String} : Coherent (.panic msg : Exec ε α) m := trivial

/-- Another type for the error and the result changes no read. -/
theorem coherent_reply {ε' : Type} {p : Exec ε α} {err : ε → ε'} {result : α → β} :
    Coherent (Exec.reply p err result) m ↔ Coherent p m := by
  rw [Coherent, Exec.trace_reply, Coherent]

/-- A sequence is coherent when its first program is, and the second from where the first ends. -/
theorem coherent_bind_iff {p : Exec ε α} {q : α → Exec ε β} :
    Coherent (p >>= q) m
      ↔ Coherent p m ∧ ∀ a m', p.exec Machine.handle m = (.ok a, m') → Coherent (q a) m' :=
  Machine.tracks_latest.coherent_bind_iff

/-- A first part that returns. -/
theorem coherent_bind_ok {p : Exec ε α} {q : α → Exec ε β} {a : α} {m' : Machine TwoLayer B}
    (hrun : p.exec Machine.handle m = (.ok a, m')) :
    Coherent (p >>= q) m ↔ Coherent p m ∧ Coherent (q a) m' := by
  rw [coherent_bind_iff]
  refine and_congr_right fun _ => ⟨fun h => h a m' hrun, fun h a' m'' hrun' => ?_⟩
  cases hrun.symm.trans hrun'
  exact h

/-- A read agrees with the memory exactly when the slot is clean. -/
theorem coherent_storage {a : Address} {k : StorageKey} :
    Coherent (Exec.storage a k) m ↔ m.context.Clean a k := by
  show (Except.ok (m.context.db a k) = Except.ok (m.context.latest a k)) ∧ True ↔ _
  rw [and_true, Except.ok.injEq, eq_comm]
  rfl

/-- A write alone is coherent, since it reads nothing. -/
theorem coherent_sstore {a : Address} {k : StorageKey} {v : StorageValue} :
    Coherent (Exec.sstore a k v) m := ⟨trivial, trivial⟩

/-! ### Slots and cells -/

/-- The read of a slot is coherent when the slot is clean. -/
theorem coherent_get {slot : StorageSlot} :
    Coherent slot.get m ↔ m.context.Clean slot.account slot.slot := by
  show True ∧ True ∧ Coherent (Exec.storage slot.account slot.slot) m.charged ↔ _
  rw [true_and, true_and, coherent_storage]
  rfl

/-- A write reads nothing. -/
theorem coherent_set {slot : StorageSlot} {v : StorageValue} : Coherent (slot.set v) m := by
  refine ⟨trivial, ?_⟩
  show Coherent (if Burner.readOnly m.burner then _ else _ : Exec DbError Unit) m
  cases Burner.readOnly m.burner with
  | true => trivial
  | false => exact ⟨trivial, trivial, trivial, trivial⟩

/-- The read of a slot as a number is coherent when the slot is clean. -/
theorem coherent_getWord {slot : StorageSlot} {bound : Nat} {msg : String} :
    Coherent (slot.getWord bound msg) m ↔ m.context.Clean slot.account slot.slot := by
  rw [StorageSlot.getWord, coherent_bind_ok (Machine.exec_get _ slot m), coherent_get]
  refine and_iff_left ?_
  cases U64.tryFrom (m.view slot.account slot.slot) with
  | none => trivial
  | some v =>
      show Coherent (if _ then _ else _ : Exec DbError U64) _
      split
      · trivial
      · trivial

/-- A program that reads a number first. -/
theorem coherent_uint64_bind {cell : StorageBackedUint64} {q : U64 → Exec DbError α} :
    Coherent (cell.get >>= q) m
      ↔ m.context.Clean cell.slot.account cell.slot.slot
        ∧ ∀ n ∈ m.uint64 cell, Coherent (q n) m.charged := by
  rw [coherent_bind_iff]
  refine and_congr coherent_getWord ⟨fun h n hn => h n _ (Machine.exec_uint64_get _ hn), ?_⟩
  rintro h n m' hrun
  obtain ⟨hn, rfl⟩ := Machine.exec_uint64_get_ok _ hrun
  exact h n hn

/-- A change of the result changes no read. -/
theorem coherent_bind_done {p : Exec ε α} {f : α → β} :
    Coherent (p >>= fun a => .done (f a)) m ↔ Coherent p m := by
  rw [coherent_bind_iff]
  exact and_iff_left fun _ _ _ => trivial

/-- The increment is coherent when its cell is clean, since it reads before it writes. -/
theorem coherent_increment {cell : StorageBackedUint64} :
    Coherent cell.increment m ↔ m.context.Clean cell.slot.account cell.slot.slot := by
  refine coherent_uint64_bind.trans (and_iff_left ?_)
  intro n _
  split
  · exact coherent_panic
  · exact coherent_bind_done.mpr coherent_set

/-- The decrement is coherent when its cell is clean, since it reads before it writes. -/
theorem coherent_decrement {cell : StorageBackedUint64} :
    Coherent cell.decrement m ↔ m.context.Clean cell.slot.account cell.slot.slot := by
  refine coherent_uint64_bind.trans (and_iff_left ?_)
  intro n _
  split
  · exact coherent_panic
  · exact coherent_bind_done.mpr coherent_set

/-- A program that increments a number first. The increment returns when the number is
below the maximum and the burner accepts the write. -/
theorem coherent_increment_bind {cell : StorageBackedUint64} {q : U64 → Exec DbError α} :
    Coherent (cell.increment >>= q) m
      ↔ m.context.Clean cell.slot.account cell.slot.slot
        ∧ ∀ n ∈ m.uint64 cell, n ≠ BitVec.allOnes 64 →
          Burner.readOnly m.charged.burner = false →
          Coherent (q (n + 1))
            ((m.charged.charge .storageAccess (writeCost (U256.ofU64 (n + 1)))).step
              (.sstore cell.slot.account cell.slot.slot (U256.ofU64 (n + 1)))) := by
  rw [coherent_bind_iff, coherent_increment]
  refine and_congr_right fun _ => ⟨fun h n hn hmax hro => ?_, fun h n' m' hrun => ?_⟩
  · exact h _ _ (Machine.exec_increment _ hn hmax hro)
  · obtain ⟨n, hn, hmax, hro⟩ := Machine.exec_increment_ok _ hrun
    cases hrun.symm.trans (Machine.exec_increment _ hn hmax hro)
    exact h n hn hmax hro

/-- A checked operation reads nothing. -/
theorem coherent_checkedSub_bind {w : Nat} {x y : BitVec w} {q : BitVec w → Exec ε α}
    (hq : ∀ z, Coherent (q z) m) : Coherent (checkedSub x y >>= q) m := by
  unfold checkedSub
  split
  · exact hq _
  · exact coherent_panic

/-! ### Spaces -/

/-- A program that reads a slot of the database first. -/
theorem coherent_storage_bind {a : Address} {k : StorageKey}
    {q : StorageValue → Exec DbError α} :
    Coherent (Exec.storage a k >>= q) m
      ↔ m.context.Clean a k ∧ Coherent (q (m.context.db a k)) m := by
  rw [coherent_bind_ok (Machine.exec_storage _ a k m), coherent_storage]
  rfl

/-- A program that writes a slot first. -/
theorem coherent_sstore_bind {a : Address} {k : StorageKey} {v : StorageValue}
    {q : Unit → Exec DbError α} :
    Coherent (Exec.sstore a k v >>= q) m ↔ Coherent (q ()) (m.step (.sstore a k v)) := by
  rw [coherent_bind_ok (Machine.exec_sstore _ a k v m)]
  exact and_iff_right coherent_sstore

variable [Keccak]

/-- A guarded write reads nothing. -/
theorem coherent_storage_set {self : Storage} {key : StorageKey} {v : StorageValue} :
    Coherent (self.set key v) m := by
  refine ⟨trivial, ?_⟩
  show Coherent (if Burner.readOnly m.burner then _ else _ : Exec DbError Unit) m
  cases Burner.readOnly m.burner with
  | true => trivial
  | false => exact ⟨trivial, trivial, trivial⟩

/-- The swap is coherent when the slot of its key is clean. -/
theorem coherent_swap {self : Storage} {key : StorageKey} {v : StorageValue} :
    Coherent (self.swap key v) m
      ↔ m.context.Clean self.account (self.mapAddressByKey key) := by
  refine coherent_storage_bind.trans (and_iff_left ?_)
  exact coherent_bind_done.mpr coherent_storage_set

/-- A program that reads a number at a key first. -/
theorem coherent_getUint64ByKey_bind {self : Storage} {key : StorageKey}
    {q : U64 → Exec DbError α} :
    Coherent (self.getUint64ByKey key >>= q) m
      ↔ m.context.Clean self.account (self.mapAddressByKey key)
        ∧ ∀ n ∈ U64.tryFrom (m.context.db self.account (self.mapAddressByKey key)),
            Coherent (q n) m := by
  have hread : Coherent (self.getUint64ByKey key) m
      ↔ m.context.Clean self.account (self.mapAddressByKey key) := by
    refine coherent_storage_bind.trans (and_iff_left ?_)
    cases U64.tryFrom (m.context.db self.account (self.mapAddressByKey key)) with
    | none => exact coherent_panic
    | some n => exact coherent_done
  cases hn : U64.tryFrom (m.context.db self.account (self.mapAddressByKey key)) with
  | none =>
      rw [coherent_bind_iff, hread]
      refine and_congr_right fun _ => iff_of_true (fun n m' hrun => ?_) (by simp)
      rw [Storage.getUint64ByKey, Prog.exec_bind_ok (Machine.exec_getByKey _ self key m)] at hrun
      rw [show m.view self.account (self.mapAddressByKey key)
        = m.context.db self.account (self.mapAddressByKey key) from rfl, hn] at hrun
      cases hrun
  | some n =>
      rw [coherent_bind_ok (Machine.exec_getUint64ByKey _ self hn), hread]
      simp

end

/-! ### The operations of a transaction -/

/-- The slot that an operation on a cell reads, if it reads one. -/
def CellOp.reads : CellOp → Option StorageSlot
  | slotGet slot => some slot
  | int64Get cell => some cell.slot
  | bipsGet cell => some cell.cell.slot
  | ubipsGet cell => some cell.cell.slot
  | uint16Get cell => some cell.slot
  | uint24Get cell => some cell.slot
  | uint32Get cell => some cell.slot
  | uint64Get cell | uint64Increment cell | uint64Decrement cell => some cell.slot
  | bigUintGet cell => some cell.slot
  | bigIntGet cell => some cell.slot
  | addressGet cell => some cell.slot
  | addressOrNilGet cell => some cell.slot
  | slotSet _ _ | int64Set _ _ | bipsSet _ _ | ubipsSet _ _ | uint16Set _ _ | uint24Set _ _
  | uint32Set _ _ | uint32Clear _ | uint64Set _ _ | uint64Clear _ | bigUintSetChecked _ _
  | bigUintSetSaturating _ _ _ | bigIntSetChecked _ _ | bigIntSetSaturating _ _ _
  | bigIntSetPreVersion7 _ _ | bigIntSetByUint _ _ | addressSet _ _ | addressOrNilSet _ _ => none

/-- An operation of a transaction, with the handle it is called on. -/
inductive TxOp where
  | cell (op : CellOp)
  | swap (self : Storage) (key : StorageKey) (newValue : StorageValue)
  | queuePut (sto : Storage) (val : StorageValue)
  | queueGet (sto : Storage)
  | push (sto : Storage)
  | pop (sto : Storage)
  | add (sto : Storage) (addr : Address)
  | remove (sto : Storage) (addr : Address) (arbosVersion : U64)
  | setFundsDue (self : BatchPosterState) (val : I256)
  | transferFromL1FeesAvailable (self : L1PricingState) (recipient : Address) (amount : U256)

/-- The program of the operation. -/
def TxOp.perform [Keccak] : TxOp → Exec OpenPosterResult OpResult
  | cell op => op.perform
  | swap self key newValue => (self.swap key newValue).answer .word
  | queuePut sto val => ((Queue.open sto).put val).answerUnit
  | queueGet sto => (Queue.open sto).get.answer fun val => .queue (.value val)
  | push sto => (SubStorageVector.open sto).push.answer .space
  | pop sto => (SubStorageVector.open sto).pop.answer .space
  | add sto addr => ((AddressSet.new sto).add addr).answerUnit
  | remove sto addr arbosVersion => ((AddressSet.new sto).remove addr arbosVersion).answerUnit
  | setFundsDue self val => (self.setFundsDue val).answerUnit
  | transferFromL1FeesAvailable self recipient amount =>
      (self.transferFromL1FeesAvailable recipient amount).answer .word

namespace TwoLayer

/-- The transaction has not changed the slot of the cell. -/
def CleanCell (s : TwoLayer) (slot : StorageSlot) : Prop := s.Clean slot.account slot.slot

variable [Keccak]

/-- `add` reads the mapping and the size, and then the size again, after it has written
the mapping and the list. -/
def CleanForAdd (s : TwoLayer) (self : AddressSet) (addr : Address) (size : Option U64) : Prop :=
  let index := self.byAddress.mapAddressByKey (addrToKey addr)
  s.Clean self.byAddress.account index
    ∧ (s.db self.byAddress.account index = 0 →
      s.CleanCell self.sizeCell.slot
        ∧ ∀ n ∈ size, n ≠ BitVec.allOnes 64 →
          ((s.record self.byAddress.account index (U256.ofU64 (n + 1))).record
            self.backingStorage.account (self.backingStorage.mapAddress (n + 1))
            (addrToValue addr)).CleanCell self.sizeCell.slot)

/-- `remove` reads the mapping. After it has cleared it, it reads the size and, when the
address is not the last member, the last member. After it has written the list and the
mapping, it reads the size again. -/
def CleanForRemove (s : TwoLayer) (self : AddressSet) (addr : Address) (arbosVersion : U64)
    (size : Option U64) : Prop :=
  let index := self.byAddress.mapAddressByKey (addrToKey addr)
  let list := self.backingStorage.mapAddress
  s.Clean self.byAddress.account index
    ∧ ∀ slot ∈ U64.tryFrom (s.db self.byAddress.account index), slot ≠ 0 →
      let s₁ := s.record self.byAddress.account index 0
      s₁.CleanCell self.sizeCell.slot
        ∧ ∀ n ∈ size,
          if slot < n then
            let atSize := s.db self.backingStorage.account (list n)
            let s₂ := s₁.record self.backingStorage.account (list slot) atSize
            let s₃ := if 11 ≤ arbosVersion then
                s₂.record self.byAddress.account (self.byAddress.mapAddressByKey atSize)
                  (U256.ofU64 slot)
              else s₂
            s₁.Clean self.backingStorage.account (list n)
              ∧ (s₃.record self.backingStorage.account (list n) 0).CleanCell self.sizeCell.slot
          else (s₁.record self.backingStorage.account (list n) 0).CleanCell self.sizeCell.slot

end TwoLayer

/-- The slots that the operation reads are clean where it reads them. -/
def TxOp.ReadsClean [Keccak] (m : Machine TwoLayer B) : TxOp → Prop
  | cell op => ∀ slot ∈ op.reads, m.context.CleanCell slot
  | swap self key _ => m.context.Clean self.account (self.mapAddressByKey key)
  | queuePut sto _ => m.context.CleanCell (Queue.open sto).nextPutOffset.slot
  | queueGet sto =>
      let self := Queue.open sto
      let offset := self.nextGetOffset.slot
      m.context.CleanCell self.nextPutOffset.slot
        ∧ ∀ put ∈ m.uint64 self.nextPutOffset,
          m.context.CleanCell offset
            ∧ ∀ get ∈ m.uint64 self.nextGetOffset, put ≠ get → get ≠ BitVec.allOnes 64 →
              Burner.readOnly m.charged.charged.charged.burner = false →
              (m.context.record offset.account offset.slot (U256.ofU64 (get + 1))).Clean
                self.storage.account (self.storage.mapAddressByKey (U256.ofU64 get))
  | push sto | pop sto => m.context.CleanCell (SubStorageVector.open sto).lengthCell.slot
  | add sto addr =>
      m.context.CleanForAdd (AddressSet.new sto) addr (m.uint64 (AddressSet.new sto).sizeCell)
  | remove sto addr arbosVersion =>
      m.context.CleanForRemove (AddressSet.new sto) addr arbosVersion
        (m.uint64 (AddressSet.new sto).sizeCell)
  | setFundsDue self _ =>
      m.context.CleanCell self.fundsDueCell.slot ∧ m.context.CleanCell self.tableTotalFundsDue.slot
  | transferFromL1FeesAvailable self recipient amount =>
      transferRefusal m.context.balance l1PricerFundsPoolAddress recipient amount = none →
        m.context.CleanCell self.l1FeesAvailableCell.slot

section
variable {m : Machine TwoLayer B}

/-- An operation of a cell is coherent when the cell is clean, or when it is a setter. -/
theorem CellOp.coherent_iff (op : CellOp) :
    Coherent op.perform m ↔ ∀ slot ∈ op.reads, m.context.CleanCell slot := by
  cases op with
  | slotGet _ | bigUintGet _ =>
      exact coherent_reply.trans (coherent_get.trans (by simp [reads, TwoLayer.CleanCell]))
  | int64Get _ | bipsGet _ | ubipsGet _ | uint64Get _ =>
      exact coherent_reply.trans (coherent_getWord.trans (by simp [reads, TwoLayer.CleanCell]))
  | uint16Get _ | uint24Get _ | uint32Get _ =>
      exact coherent_reply.trans (coherent_bind_done.trans
        (coherent_getWord.trans (by simp [reads, TwoLayer.CleanCell])))
  | bigIntGet _ | addressGet _ =>
      exact coherent_reply.trans (coherent_bind_done.trans
        (coherent_get.trans (by simp [reads, TwoLayer.CleanCell])))
  | addressOrNilGet cell =>
      refine coherent_reply.trans ((coherent_bind_ok (Machine.exec_get _ cell.slot m)).trans ?_)
      rw [coherent_get, and_iff_left]
      · simp [reads, TwoLayer.CleanCell]
      · split
        · exact coherent_done
        · exact coherent_done
  | uint64Increment _ =>
      exact coherent_reply.trans (coherent_increment.trans (by simp [reads, TwoLayer.CleanCell]))
  | uint64Decrement _ =>
      exact coherent_reply.trans (coherent_decrement.trans (by simp [reads, TwoLayer.CleanCell]))
  | slotSet _ _ | int64Set _ _ | bipsSet _ _ | ubipsSet _ _ | uint16Set _ _ | uint24Set _ _
  | uint32Set _ _ | uint32Clear _ | uint64Set _ _ | uint64Clear _ | bigUintSetChecked _ _
  | bigUintSetSaturating _ _ _ | bigIntSetChecked _ _ | bigIntSetSaturating _ _ _
  | bigIntSetPreVersion7 _ _ | bigIntSetByUint _ _ | addressSet _ _ =>
      exact iff_of_true (coherent_reply.mpr coherent_set) (by simp [reads])
  | addressOrNilSet cell v =>
      cases v with
      | none => exact iff_of_true (coherent_reply.mpr coherent_set) (by simp [reads])
      | some addr => exact iff_of_true (coherent_reply.mpr coherent_set) (by simp [reads])

variable [Keccak]

/-- `put` reads the put offset to move it. The element is written only. -/
theorem Queue.coherent_put_iff (self : Queue) (val : StorageValue) :
    Coherent (self.put val) m ↔ m.context.CleanCell self.nextPutOffset.slot :=
  coherent_increment_bind.trans <| and_iff_left fun _ _ _ _ =>
    coherent_checkedSub_bind fun _ => coherent_storage_set

/-- After both offsets have been read, `get` moves the offset and reads the element. -/
theorem Queue.coherent_get_iff (self : Queue) :
    Coherent self.get m
      ↔ m.context.CleanCell self.nextPutOffset.slot
        ∧ ∀ put ∈ m.uint64 self.nextPutOffset,
          m.context.CleanCell self.nextGetOffset.slot
            ∧ ∀ get ∈ m.uint64 self.nextGetOffset, put ≠ get → get ≠ BitVec.allOnes 64 →
              Burner.readOnly m.charged.charged.charged.burner = false →
              (m.context.record self.nextGetOffset.slot.account self.nextGetOffset.slot.slot
                  (U256.ofU64 (get + 1))).Clean
                self.storage.account (self.storage.mapAddressByKey (U256.ofU64 get)) := by
  have hempty : Coherent self.isEmpty m
      ↔ m.context.CleanCell self.nextPutOffset.slot
        ∧ ∀ put ∈ m.uint64 self.nextPutOffset, m.context.CleanCell self.nextGetOffset.slot :=
    coherent_uint64_bind.trans <| and_congr_right fun _ => forall₂_congr fun _ _ =>
      coherent_uint64_bind.trans (and_iff_left fun _ _ => coherent_done)
  -- the element, when the queue is not empty
  have htake : ∀ get ∈ m.uint64 self.nextGetOffset,
      Coherent (do
          let newOffset ← self.nextGetOffset.increment
          let at_ ← checkedSub newOffset 1
          let res ← self.storage.swap (U256.ofU64 at_) 0
          pure (some res)) m.charged.charged
        ↔ m.context.CleanCell self.nextGetOffset.slot
          ∧ (get ≠ BitVec.allOnes 64 → Burner.readOnly m.charged.charged.charged.burner = false →
            (m.context.record self.nextGetOffset.slot.account self.nextGetOffset.slot.slot
                (U256.ofU64 (get + 1))).Clean
              self.storage.account (self.storage.mapAddressByKey (U256.ofU64 get))) := by
    intro get hget
    refine coherent_increment_bind.trans (and_congr_right ?_)
    intro _
    constructor
    · intro h hmax hro
      have hswap := h get hget hmax hro
      have hlt : _ + 1 < _ := U64.toNat_add_one_lt hmax
      rw [checkedSub, if_pos (by bv_omega), show get + 1 - 1 = get by bv_omega] at hswap
      exact coherent_swap.mp (coherent_bind_done.mp hswap)
    · intro h n hn hmax hro
      obtain rfl : n = get := Option.some.inj (hn.symm.trans hget)
      have hlt : _ + 1 < _ := U64.toNat_add_one_lt hmax
      rw [checkedSub, if_pos (by bv_omega), show n + 1 - 1 = n by bv_omega]
      exact coherent_bind_done.mpr (coherent_swap.mpr (h hmax hro))
  refine coherent_bind_iff.trans ?_
  rw [hempty]
  constructor
  · rintro ⟨⟨hput, hget⟩, hrest⟩
    refine ⟨hput, fun put hp => ⟨hget put hp, fun get hg hne hmax hro => ?_⟩⟩
    have hbody := hrest _ _ (Machine.exec_offsets _ hp hg _)
    rw [if_neg (by simpa using hne)] at hbody
    exact ((htake get hg).mp hbody).2 hmax hro
  · rintro ⟨hput, hrest⟩
    refine ⟨⟨hput, fun put hp => (hrest put hp).1⟩, ?_⟩
    intro b m' hrun
    obtain ⟨put, get, hp, hg, hrun⟩ := Machine.exec_offsets_ok _ hrun
    cases hrun
    split
    · exact coherent_done
    · rename_i hne
      exact (htake get hg).mpr ⟨(hrest put hp).1, (hrest put hp).2 get hg (by simpa using hne)⟩

/-- `push` reads the length once, before it writes it. -/
theorem SubStorageVector.coherent_push_iff (self : SubStorageVector) :
    Coherent self.push m ↔ m.context.CleanCell self.lengthCell.slot := by
  refine coherent_uint64_bind.trans (and_iff_left ?_)
  intro n _
  unfold checkedAdd
  split
  · exact coherent_bind_done.mpr coherent_set
  · exact coherent_panic

/-- `pop` reads the length once, before it writes it. -/
theorem SubStorageVector.coherent_pop_iff (self : SubStorageVector) :
    Coherent self.pop m ↔ m.context.CleanCell self.lengthCell.slot := by
  refine coherent_uint64_bind.trans (and_iff_left ?_)
  intro n _
  split
  · exact coherent_panic
  · exact coherent_bind_done.mpr coherent_set

/-- `add` reads the mapping, and the size of a set that the address is new to. The size is read
once more after the mapping and the list have been written. -/
theorem AddressSet.coherent_add_iff (self : AddressSet) (addr : Address) :
    Coherent (self.add addr) m ↔ m.context.CleanForAdd self addr (m.uint64 self.sizeCell) := by
  have hmember : Coherent (self.isMember addr) m
      ↔ m.context.Clean self.byAddress.account
          (self.byAddress.mapAddressByKey (addrToKey addr)) :=
    coherent_storage_bind.trans (and_iff_left coherent_done)
  have hrun : (self.isMember addr).exec Machine.handle m
      = (.ok (m.context.db self.byAddress.account
          (self.byAddress.mapAddressByKey (addrToKey addr)) != 0), m) :=
    Prog.exec_bind_ok (Machine.exec_getByKey _ self.byAddress _ m) _
  refine (coherent_bind_ok hrun).trans (and_congr hmember ?_)
  by_cases hindex : m.context.db self.byAddress.account
      (self.byAddress.mapAddressByKey (addrToKey addr)) = 0
  · rw [if_neg (by simpa using hindex)]
    refine Iff.trans ?_ (forall_prop_of_true hindex).symm
    refine coherent_uint64_bind.trans (and_congr_right fun _ => forall₂_congr fun n hn => ?_)
    by_cases hmax : n = BitVec.allOnes 64
    · rw [hmax, checkedAdd, if_neg (by decide)]
      exact iff_of_true coherent_panic fun h => absurd rfl h
    · rw [checkedAdd, if_pos (U64.toNat_add_one_lt hmax)]
      refine Iff.trans ?_ (forall_prop_of_true hmax).symm
      exact coherent_sstore_bind.trans (coherent_sstore_bind.trans
        (coherent_bind_done.trans coherent_increment))
  · rw [if_pos (by simpa using hindex)]
    exact iff_of_true coherent_done fun h => absurd h hindex

/-- `remove` reads the mapping, the size and the last list slot, some of them after a write. -/
theorem AddressSet.coherent_remove_iff (self : AddressSet) (addr : Address) (arbosVersion : U64) :
    Coherent (self.remove addr arbosVersion) m
      ↔ m.context.CleanForRemove self addr arbosVersion (m.uint64 self.sizeCell) := by
  refine coherent_getUint64ByKey_bind.trans
    (and_congr_right fun _ => forall₂_congr fun slot _ => ?_)
  by_cases hslot : slot = 0
  · rw [if_pos hslot]
    exact iff_of_true coherent_done fun h => absurd hslot h
  · rw [if_neg hslot]
    refine Iff.trans ?_ (forall_prop_of_true hslot).symm
    refine coherent_sstore_bind.trans (coherent_uint64_bind.trans
      (and_congr_right fun _ => forall₂_congr fun n _ => ?_))
    -- the end of the removal: the last slot is cleared and the size is read again
    have hrest : ∀ m : Machine TwoLayer B, Coherent (do
          self.backingStorage.writeSlot n 0
          let _ ← self.sizeCell.decrement
          pure ()) m
        ↔ (m.context.record self.backingStorage.account (self.backingStorage.mapAddress n)
            0).CleanCell self.sizeCell.slot := fun m =>
      coherent_sstore_bind.trans (coherent_bind_done.trans coherent_decrement)
    by_cases hlt : slot < n
    · rw [if_pos hlt, if_pos hlt]
      refine coherent_storage_bind.trans (and_congr_right fun _ => coherent_sstore_bind.trans ?_)
      by_cases hversion : 11 ≤ arbosVersion
      · rw [if_pos hversion, if_pos hversion]
        exact coherent_sstore_bind.trans (hrest _)
      · rw [if_neg hversion, if_neg hversion]
        exact hrest _
    · rw [if_neg hlt, if_neg hlt]
      exact hrest _

omit [Keccak] in
/-- `setFundsDue` reads the amount due and the total before it writes them. -/
theorem BatchPosterState.coherent_setFundsDue_iff (self : BatchPosterState) (val : I256) :
    Coherent (self.setFundsDue val) m
      ↔ m.context.CleanCell self.fundsDueCell.slot
        ∧ m.context.CleanCell self.tableTotalFundsDue.slot := by
  have hread : ∀ (cell : StorageBackedBigInt) (m : Machine TwoLayer B)
      (q : I256 → Exec DbError Unit),
      Coherent (cell.get >>= q) m ↔ m.context.CleanCell cell.slot
        ∧ Coherent (q (I256.fromRaw (m.view cell.slot.account cell.slot.slot))) m.charged := by
    intro cell m q
    have hrun : cell.get.exec Machine.handle m
        = (.ok (I256.fromRaw (m.view cell.slot.account cell.slot.slot)), m.charged) :=
      Prog.exec_bind_ok (Machine.exec_get _ cell.slot m) _
    exact (coherent_bind_ok hrun).trans
      (and_congr_left fun _ => coherent_bind_done.trans coherent_get)
  refine (hread _ _ _).trans (and_congr_right fun _ => (hread _ _ _).trans (and_iff_left ?_))
  exact coherent_bind_iff.mpr ⟨coherent_set, fun _ _ _ => coherent_set⟩

omit [Keccak] in
/-- The payment out of the fees reads the counter when the transfer was made. -/
theorem L1PricingState.coherent_transfer_iff (self : L1PricingState) (recipient : Address)
    (amount : U256) :
    Coherent (self.transferFromL1FeesAvailable recipient amount) m
      ↔ (transferRefusal m.context.balance l1PricerFundsPoolAddress recipient amount = none →
        m.context.CleanCell self.l1FeesAvailableCell.slot) := by
  set refusal := transferRefusal m.context.balance l1PricerFundsPoolAddress recipient amount
    with hrefusal
  have hrun : (Exec.transfer l1PricerFundsPoolAddress recipient amount).exec Machine.handle m
      = (.ok refusal, m.step (.transfer l1PricerFundsPoolAddress recipient amount)) := rfl
  refine (coherent_bind_ok hrun).trans ((and_iff_right ⟨trivial, trivial⟩).trans ?_)
  cases hpaid : refusal with
  | some e => exact iff_of_true coherent_panic fun h => by cases h
  | none =>
      -- the payment moves funds and changes no slot
      have hcontext : ∀ slot, (m.step (.transfer l1PricerFundsPoolAddress recipient
          amount)).context.CleanCell slot ↔ m.context.CleanCell slot := fun _ => Iff.rfl
      refine Iff.trans ?_ (forall_prop_of_true rfl).symm
      refine (coherent_bind_ok (Machine.exec_get _ _ _)).trans ?_
      rw [coherent_get, and_iff_left]
      · exact hcontext _
      · split
        · exact coherent_bind_done.mpr coherent_set
        · exact coherent_panic

/-- An operation is coherent exactly when all slots that it reads are clean. -/
theorem TxOp.coherent_iff (op : TxOp) : Coherent op.perform m ↔ op.ReadsClean m := by
  cases op with
  | cell op => exact op.coherent_iff
  | swap self key v => exact coherent_reply.trans coherent_swap
  | queuePut sto val => exact coherent_reply.trans (Queue.coherent_put_iff _ val)
  | queueGet sto => exact coherent_reply.trans (Queue.coherent_get_iff _)
  | push sto => exact coherent_reply.trans (SubStorageVector.coherent_push_iff _)
  | pop sto => exact coherent_reply.trans (SubStorageVector.coherent_pop_iff _)
  | add sto addr => exact coherent_reply.trans (AddressSet.coherent_add_iff _ addr)
  | remove sto addr version =>
      exact coherent_reply.trans (AddressSet.coherent_remove_iff _ addr version)
  | setFundsDue self val => exact coherent_reply.trans (self.coherent_setFundsDue_iff val)
  | transferFromL1FeesAvailable self recipient amount =>
      exact coherent_reply.trans (self.coherent_transfer_iff recipient amount)

/-! ### Whole transactions -/

/-- The start of a transaction on the committed words `db`. -/
def Machine.begin (db : Address → StorageKey → StorageValue) (balance : Address → U256)
    (burner : B) : Machine TwoLayer B where
  context := .begin db balance (Burner.readOnly burner)
  burner := burner

/-- In a transaction every read returns the word that was written last, or the committed
one, exactly when each operation reads only slots that are clean where it reads them. -/
theorem TxOp.coherent_run_iff (db : Address → StorageKey → StorageValue)
    (balance : Address → U256) (burner : B) (ops : List TxOp) :
    storageMemory.Coherent db
        (traceOps Machine.handle TxOp.perform ops (Machine.begin db balance burner))
      ↔ ForallOps Machine.handle TxOp.perform (fun m op => op.ReadsClean m) ops
          (Machine.begin db balance burner) :=
  Machine.tracks_latest.coherent_traceOps_iff (fun _ op => op.coherent_iff) ops
    (Machine.begin db balance burner)

end

section
attribute [local instance] sampleHash

/-- A number is incremented twice in one transaction that starts with the number 0. The
second increment reads 0 again, so both return 1 and the number is 1 in the end. -/
theorem TxOp.not_coherent_sample :
    let cell := sampleRoot.openStorageBackedUint64 0
    let start := Machine.begin (fun _ _ => 0) (fun _ => 0) (SystemBurner.new false)
    let final := runOps Machine.handle (fun _ : Unit => cell.increment) [(), ()] start
    ¬storageMemory.Coherent (fun _ _ => 0)
        (traceOps Machine.handle TxOp.perform
          [.cell (.uint64Increment cell), .cell (.uint64Increment cell)] start)
      ∧ final.1 = [.ok 1, .ok 1]
      ∧ final.2.context.latest cell.slot.account cell.slot.slot = 1 := by
  intro cell start final
  refine ⟨?_, by decide +kernel, by decide +kernel⟩
  intro h
  have hsecond := ((Machine.tracks_latest.coherent_traceOps_iff
    (fun _ op => TxOp.coherent_iff op) _ start).mp h).2.1
  have hclean := hsecond cell.slot rfl
  have hdirty : ((TxOp.perform (.cell (.uint64Increment cell))).exec Machine.handle
      start).2.context.latest cell.slot.account cell.slot.slot = 1 := by
    decide +kernel
  cases hdirty.symm.trans hclean

end

end ArbReth
