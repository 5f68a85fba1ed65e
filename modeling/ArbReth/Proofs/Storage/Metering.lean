import ArbReth.Proofs.Storage.Machine
import ArbReth.Storage.SampleHash

/-!
# `ArbReth.Proofs.Storage.Metering`: what the storage operations charge

`charge` is the `StorageAccess` gas that a command charges to the burner. `due` is
what Go's `Storage.Get` and `Storage.Set` charge for an access: 800 for a read, 20000
for the write of a word that is not zero, and 2900 for the write of zero. A run is
metered when the two sums over its commands agree.

The accessors of `StorageSlot` and the guarded writes of `Storage` charge each access
that they make, and so do all operations on slots (`Slotwise.settles`). `read_slot`,
`get_by_key`, `write_slot`, `set_by_key` and what is built on them charge nothing. So no
operation charges too much, and an operation is metered exactly when its run makes no
uncharged access. `Operation.Metered` says when that is, in terms of the words that are
stored before the operation, and `Operation.metered_iff` proves it for all operations,
machines and burners.
-/

set_option autoImplicit false

namespace ArbReth

open ArbReth.Program ArbReth.Program.Prog

/-- The storage gas that a command charges to the burner. -/
def charge : Event Resp → Nat
  | ⟨.burn .storageAccess amount, _⟩ => amount.toNat
  | _ => 0

/-- The storage gas that is due for a command. -/
def due : Event Resp → Nat
  | ⟨.storage _ _, _⟩ => 800
  | ⟨.sstore _ _ value, _⟩ => if value = 0 then 2900 else 20000
  | _ => 0

/-- The program charges what is due, on each machine. -/
abbrev Settles (σ B : Type) [Context σ] [Burner B] {ε α : Type} (p : Exec ε α) : Prop :=
  WeighsEq charge due (Machine.handle : Handler Resp (Machine σ B)) p

/-- The program charges no more than what is due, on each machine. -/
abbrev WithinDue (σ B : Type) [Context σ] [Burner B] {ε α : Type} (p : Exec ε α) : Prop :=
  WeighsLe charge due (Machine.handle : Handler Resp (Machine σ B)) p

section
variable {σ B : Type} [Context σ] [Burner B] {ε α : Type}

/-- The run charges less than what is due. -/
def Underpays (p : Exec ε α) (m : Machine σ B) : Prop :=
  p.weigh charge Machine.handle m < p.weigh due Machine.handle m

/-- A run that charges too little is not metered. -/
theorem Underpays.ne {p : Exec ε α} {m : Machine σ B} (h : Underpays p m) :
    p.weigh charge Machine.handle m ≠ p.weigh due Machine.handle m := Nat.ne_of_lt h

/-- The due of a write is its cost in the source. -/
theorem due_sstore (a : Address) (k v : U256) (r : Resp (.sstore a k v)) :
    due ⟨.sstore a k v, r⟩ = (writeCost v).toNat := by
  show (if v = 0 then 2900 else 20000) = _
  unfold writeCost
  split <;> rfl

end

/-! ### Accesses -/

section
variable {σ B : Type} [Context σ] [Burner B]

/-- Passing on the answer of the context issues no command. -/
theorem weigh_ofResult {τ α : Type} (w : Event Resp → Nat) (h : Handler Resp τ)
    (r : Except DbError α) (s : τ) : (Exec.ofResult r).weigh w h s = 0 := by
  cases r <;> rfl

/-- A read weighs what its command weighs, with the answer of the context. -/
theorem weigh_storage (w : Event Resp → Nat) (a : Address) (k : StorageKey) (m : Machine σ B) :
    (Exec.storage a k).weigh w Machine.handle m
      = w ⟨.storage a k, (Context.handle (.storage a k) m.context).1⟩ := by
  show _ + (Exec.ofResult _).weigh w _ _ = _
  rw [weigh_ofResult]
  rfl

/-- A write weighs what its command weighs, with the answer of the context. -/
theorem weigh_sstore (w : Event Resp → Nat) (a : Address) (k v : U256) (m : Machine σ B) :
    (Exec.sstore a k v).weigh w Machine.handle m
      = w ⟨.sstore a k v, (Context.handle (.sstore a k v) m.context).1⟩ := by
  show _ + (Exec.ofResult _).weigh w _ _ = _
  rw [weigh_ofResult]
  rfl

/-- A read of the database alone is not charged. -/
theorem storage_underpays (a : Address) (k : StorageKey) (m : Machine σ B) :
    Underpays (Exec.storage a k) m := by
  rw [Underpays, weigh_storage, weigh_storage]
  show 0 < 800
  omega

/-- A write through the journal alone is not charged. -/
theorem sstore_underpays (a : Address) (k v : U256) (m : Machine σ B) :
    Underpays (Exec.sstore a k v) m := by
  rw [Underpays, weigh_sstore, weigh_sstore]
  show 0 < if v = 0 then 2900 else 20000
  split <;> omega

/-- An uncharged read charges no more than what is due. -/
theorem storage_withinDue (a : Address) (k : StorageKey) : WithinDue σ B (Exec.storage a k) :=
  fun m => Nat.le_of_lt (storage_underpays a k m)

/-- An uncharged write charges no more than what is due. -/
theorem sstore_withinDue (a : Address) (k v : U256) : WithinDue σ B (Exec.sstore a k v) :=
  fun m => Nat.le_of_lt (sstore_underpays a k v m)

end

/-! ### Slots and cells -/

section
variable {σ B : Type} [Context σ] [Burner B]

namespace StorageSlot

/-- The read of a slot charges 800 for its one read, also when the database fails. -/
theorem get_settles (self : StorageSlot) : Settles σ B self.get := by
  intro m
  show 800 + (0 + weigh charge _ (Exec.storage self.account self.slot) _)
    = 0 + (0 + weigh due _ (Exec.storage self.account self.slot) _)
  rw [weigh_storage, weigh_storage]
  rfl

/-- The write of a slot charges the cost of the word that it writes. Under a read-only burner it
writes nothing and charges nothing. -/
theorem set_settles (self : StorageSlot) (v : StorageValue) : Settles σ B (self.set v) := by
  intro m
  show 0 + weigh charge _ (if Burner.readOnly m.burner then _ else _) _
    = 0 + weigh due _ (if Burner.readOnly m.burner then _ else _) _
  cases Burner.readOnly m.burner with
  | true => rfl
  | false =>
      -- the charge comes before the write
      show 0 + ((writeCost v).toNat + (0 + weigh charge _ (Exec.sstore self.account self.slot v) _))
        = 0 + (0 + (0 + weigh due _ (Exec.sstore self.account self.slot v) _))
      rw [weigh_sstore, weigh_sstore, due_sstore]
      show 0 + (_ + (0 + 0)) = _
      omega

end StorageSlot

variable [Keccak]

/-- The guarded write is charged. -/
theorem Storage.set_settles (self : Storage) (key : StorageKey) (v : StorageValue) :
    Settles σ B (self.set key v) := by
  intro m
  show 0 + weigh charge _ (if Burner.readOnly m.burner then _ else _) _
    = 0 + weigh due _ (if Burner.readOnly m.burner then _ else _) _
  cases Burner.readOnly m.burner with
  | true => rfl
  | false =>
      show 0 + ((writeCost v).toNat + weigh charge _ (Exec.sstore _ _ v) _)
        = 0 + (0 + weigh due _ (Exec.sstore _ _ v) _)
      rw [weigh_sstore, weigh_sstore, due_sstore]
      show 0 + (_ + 0) = _
      omega

/-- An operation on slots charges each access. -/
theorem Slotwise.settles {ε α : Type} {p : Exec ε α} (hp : Slotwise p) : Settles σ B p := by
  induction hp with
  | get slot => exact slot.get_settles
  | set slot v => exact slot.set_settles v
  | setKey self key v => exact self.set_settles key v
  | done a => exact WeighsEq.done a
  | fail e => exact WeighsEq.fail e
  | panic m => exact WeighsEq.panic m
  | bind _ _ ihp ihq => exact ihp.bind ihq
  | mapErr _ f ih => exact ih.mapErr f

/-- What charges each access charges no more than what is due. -/
theorem Slotwise.withinDue {ε α : Type} {p : Exec ε α} (hp : Slotwise p) : WithinDue σ B p :=
  hp.settles.le

/-! ### Spaces -/

namespace Storage
variable (self : Storage)

/-- The read of a key as a `u64` is not charged, whether or not the word is a `u64`. -/
theorem getUint64ByKey_underpays (key : StorageKey) (m : Machine σ B) :
    Underpays (self.getUint64ByKey key) m :=
  weigh_bind_lt_left (storage_underpays _ _ m) fun val => by
    cases U64.tryFrom val with
    | none => exact (WeighsEq.panic _).le
    | some v => exact (WeighsEq.done v).le

/-- The swap reads without a charge, and its write is charged. -/
theorem swap_underpays (key : StorageKey) (v : StorageValue) (m : Machine σ B) :
    Underpays (self.swap key v) m :=
  weigh_bind_lt_left (storage_underpays _ _ m) fun old =>
    ((Slotwise.setKey self key v).bind fun _ => .done old).withinDue

/-! The byte strings start with an uncharged read of the length. -/

/-- The read of the length is not charged. -/
theorem getBytesSize_underpays (m : Machine σ B) : Underpays self.getBytesSize m :=
  weigh_bind_lt_left (storage_underpays _ _ m) fun raw => by
    cases U64.tryFrom raw with
    | none => exact (WeighsEq.panic _).le
    | some v => exact (WeighsEq.done v).le

/-- The loop over the full chunks charges nothing. It may have no rounds. -/
theorem getFullChunks_withinDue (offset count : Nat) :
    WithinDue σ B (self.getFullChunks offset count) := by
  induction count generalizing offset with
  | zero => exact (WeighsEq.done _).le
  | succ count ih =>
      exact (storage_withinDue _ _).bind fun chunk =>
        (ih (offset + 1)).bind fun rest => (WeighsEq.done _).le

/-- Reading a byte string starts with the uncharged read of its length. -/
theorem getBytes_underpays (m : Machine σ B) : Underpays self.getBytes m := by
  refine weigh_bind_lt_left (self.getBytesSize_underpays m) ?_
  intro size
  refine (self.getFullChunks_withinDue 1 _).bind ?_
  intro chunks
  -- the rest is one more read, or none
  refine WeighsLe.ite ?_ (WeighsEq.done _).le
  exact (storage_withinDue _ _).bind fun _ => (WeighsEq.done _).le

/-- Clearing a byte string starts with the uncharged read of its length. -/
theorem clearBytes_underpays (m : Machine σ B) : Underpays self.clearBytes m := by
  refine weigh_bind_lt_left (self.getBytesSize_underpays m) ?_
  intro size
  have hloop : WithinDue σ B (Prog.forRange (fun offset => self.writeSlot (chunkOffset offset) 0) 1
      ((size.toNat + 31) / 32)) := WeighsLe.forRange (fun _ => sstore_withinDue _ _ _) 1 _
  exact hloop.bind fun _ => sstore_withinDue _ _ _

/-- The writes of the chunks charge nothing. There may be none. -/
theorem setChunks_withinDue (offset count : Nat) (remaining : Bytes) :
    WithinDue σ B (self.setChunks offset count remaining) := by
  induction count generalizing offset remaining with
  | zero => exact WeighsLe.ite (WeighsEq.done _).le (sstore_withinDue _ _ _)
  | succ count ih =>
      exact (sstore_withinDue _ _ _).bind fun _ => ih (offset + 1) (remaining.drop 32)

/-- Writing a byte string starts with the clearing of the old one. -/
theorem setBytes_underpays (b : Bytes) (m : Machine σ B) : Underpays (self.setBytes b) m := by
  refine weigh_bind_lt_left (self.clearBytes_underpays m) ?_
  intro _
  exact (sstore_withinDue _ _ _).bind fun _ => self.setChunks_withinDue 1 _ b

end Storage

/-! ### Sets of addresses -/

namespace AddressSet
variable (self : AddressSet)

/-- The test for a member reads the mapping without a charge. -/
theorem isMember_underpays (addr : Address) (m : Machine σ B) :
    Underpays (self.isMember addr) m :=
  weigh_bind_lt_left (storage_underpays _ _ m) fun _ => (WeighsEq.done _).le

/-- The loop over the members charges nothing. It may have no rounds. -/
theorem membersFrom_withinDue (i count : Nat) : WithinDue σ B (self.membersFrom i count) := by
  induction count generalizing i with
  | zero => exact (WeighsEq.done _).le
  | succ count ih =>
      exact (storage_withinDue _ _).bind fun raw => (ih (i + 1)).bind fun _ => (WeighsEq.done _).le

/-- The addition starts with the test for a member, also when the address is one already. -/
theorem add_underpays (addr : Address) (m : Machine σ B) : Underpays (self.add addr) m := by
  refine weigh_bind_lt_left (self.isMember_underpays addr m) ?_
  intro member
  refine WeighsLe.ite (WeighsEq.done _).le ?_
  -- the size is charged, the mapping and the list slot are not
  refine self.sizeCell.get_slotwise.withinDue.bind fun sz => ?_
  refine (Slotwise.checkedAdd sz 1).withinDue.bind fun place => ?_
  refine (sstore_withinDue _ _ _).bind fun _ => (sstore_withinDue _ _ _).bind fun _ => ?_
  exact self.sizeCell.increment_slotwise.withinDue.bind fun _ => (WeighsEq.done _).le

/-- The repair of a member starts with the test for a member. -/
theorem rectifyMapping_underpays (addr : Address) (m : Machine σ B) :
    Underpays (self.rectifyMapping addr) m :=
  weigh_bind_lt_left (self.isMember_underpays addr m) fun _ => by
    refine WeighsLe.ite (WeighsEq.panic _).le ?_
    have hslot : WithinDue σ B (self.byAddress.getUint64ByKey (addrToKey addr)) := by
      intro m
      exact Nat.le_of_lt (self.byAddress.getUint64ByKey_underpays _ m)
    refine hslot.bind fun _ => (storage_withinDue _ _).bind fun _ => ?_
    refine self.sizeCell.get_slotwise.withinDue.bind fun _ => WeighsLe.ite (WeighsEq.panic _).le ?_
    exact (sstore_withinDue _ _ _).bind fun _ m => Nat.le_of_lt (self.add_underpays addr m)

/-- The removal starts with the uncharged read of the mapping, also when there is no member. -/
theorem remove_underpays (addr : Address) (arbosVersion : U64) (m : Machine σ B) :
    Underpays (self.remove addr arbosVersion) m := by
  refine weigh_bind_lt_left (self.byAddress.getUint64ByKey_underpays _ m) ?_
  intro slot
  refine WeighsLe.ite (WeighsEq.done _).le ?_
  refine (sstore_withinDue _ _ _).bind fun _ =>
    self.sizeCell.get_slotwise.withinDue.bind fun sz => ?_
  -- the end of the removal, which both branches share
  have hrest : ∀ u : Unit, WithinDue σ B (do
      self.backingStorage.writeSlot sz 0
      let _ ← self.sizeCell.decrement
      pure ()) := fun _ =>
    (sstore_withinDue _ _ _).bind fun _ =>
      self.sizeCell.decrement_slotwise.withinDue.bind fun _ => (WeighsEq.done _).le
  refine WeighsLe.ite ?_ (hrest ())
  refine (storage_withinDue _ _).bind fun atSize => (sstore_withinDue _ _ _).bind fun _ => ?_
  exact WeighsLe.ite ((sstore_withinDue _ _ _).bind hrest) (hrest ())

end AddressSet

end

/-! ### Operations whose charges depend on the stored words -/

section
variable {σ B : Type} [Context σ] [Burner B]

/-- The charges of the program equal what is due, on this machine. -/
def SettlesOn {ε α : Type} (p : Exec ε α) (m : Machine σ B) : Prop :=
  p.weigh charge Machine.handle m = p.weigh due Machine.handle m

/-- Another type for the error and the result changes no charge. -/
theorem settlesOn_reply {ε ε' α β : Type} {p : Exec ε α} {err : ε → ε'} {result : α → β}
    {m : Machine σ B} : SettlesOn (Exec.reply p err result) m ↔ SettlesOn p m := by
  rw [SettlesOn, Exec.weigh_reply, Exec.weigh_reply, SettlesOn]

/-- An operation that always underpays is metered in no state. -/
theorem settlesOn_of_underpays {ε ε' α β : Type} {p : Exec ε α} {err : ε → ε'} {result : α → β}
    {m : Machine σ B} (hp : Underpays p m) : SettlesOn (Exec.reply p err result) m ↔ False :=
  iff_of_false (fun h => hp.ne (settlesOn_reply.mp h)) not_false

/-- A loop of at least one round that starts with an uncharged access. -/
theorem forRange_underpays {body : Nat → Exec DbError Unit} {n : U64} (h0 : n ≠ 0)
    (hbody : ∀ i m, Underpays (body i) (m : Machine σ B)) (m : Machine σ B) :
    Underpays (Prog.forRange body 1 n.toNat) m := by
  obtain ⟨count, hcount⟩ : ∃ count, n.toNat = count + 1 :=
    Nat.exists_eq_succ_of_ne_zero fun h => h0 (BitVec.eq_of_toNat_eq h)
  rw [hcount]
  exact weigh_bind_lt_left (hbody 1 m) fun _ =>
    WeighsLe.forRange (fun i m => Nat.le_of_lt (hbody i m)) 2 count

variable [Keccak]

/-- An operation on slots is metered in every state. -/
theorem settlesOn_of_slotwise {ε ε' α β : Type} {p : Exec ε α} {err : ε → ε'} {result : α → β}
    {m : Machine σ B} (hp : Slotwise p) : SettlesOn (Exec.reply p err result) m ↔ True :=
  iff_of_true (settlesOn_reply.mpr (hp.settles m)) trivial

/-- A program that reads a number first is balanced when the rest is. -/
theorem weigh_uint64_bind_iff {α : Type} {cell : StorageBackedUint64} {q : U64 → Exec DbError α}
    {m : Machine σ B} :
    (cell.get >>= q).weigh charge Machine.handle m = (cell.get >>= q).weigh due Machine.handle m
      ↔ ∀ n ∈ m.uint64 cell,
          (q n).weigh charge Machine.handle m.charged
            = (q n).weigh due Machine.handle m.charged := by
  rw [weigh_bind_eq_iff (cell.get_slotwise.settles m)]
  constructor
  · exact fun h n hn => h n _ (Machine.exec_uint64_get _ hn)
  · rintro h n m' hrun
    obtain ⟨hn, rfl⟩ := Machine.exec_uint64_get_ok _ hrun
    exact h n hn

namespace AddressSet
variable {self : AddressSet} {m : Machine σ B}

/-- An operation on the set that ends when the size is zero, and else starts with an
uncharged access. -/
theorem weigh_size_bind_iff {α : Type} {p q : U64 → Exec DbError α}
    (hp : ∀ n, Settles σ B (p n)) (hq : ∀ n m, n ≠ 0 → Underpays (q n) (m : Machine σ B)) :
    (self.sizeCell.get >>= fun n => if n = 0 then p n else q n).weigh charge Machine.handle m
        = (self.sizeCell.get >>= fun n => if n = 0 then p n else q n).weigh due Machine.handle m
      ↔ ∀ n ∈ m.uint64 self.sizeCell, n = 0 := by
  rw [weigh_uint64_bind_iff]
  refine forall₂_congr ?_
  intro n hn
  by_cases h0 : n = 0
  · rw [if_pos h0]
    exact iff_of_true (hp n m.charged) h0
  · rw [if_neg h0]
    exact iff_of_false (hq n m.charged h0).ne h0

/-- The first member is metered when the set is empty, since only its size is read then. -/
theorem getAnyMember_iff :
    self.getAnyMember.weigh charge Machine.handle m = self.getAnyMember.weigh due Machine.handle m
      ↔ ∀ n ∈ m.uint64 self.sizeCell, n = 0 := by
  refine weigh_size_bind_iff (fun _ => WeighsEq.done none) ?_
  intro n m _
  refine weigh_bind_lt_left (storage_underpays _ _ m) ?_
  intro raw
  exact (WeighsEq.ite (WeighsEq.done _) (WeighsEq.done _)).le

/-- The clearing of a set is metered when there is nothing to clear. -/
theorem clear_iff :
    self.clear.weigh charge Machine.handle m = self.clear.weigh due Machine.handle m
      ↔ ∀ n ∈ m.uint64 self.sizeCell, n = 0 := by
  refine weigh_size_bind_iff (fun _ => WeighsEq.done ()) ?_
  intro n m h0
  -- each round starts with an uncharged read, and there is a round
  refine weigh_bind_lt_left (forRange_underpays h0 ?_ m) ?_
  · intro i m
    refine weigh_bind_lt_left (storage_underpays _ _ m) ?_
    intro raw
    exact (sstore_withinDue _ _ _).bind fun _ => sstore_withinDue _ _ _
  · intro _
    exact (self.sizeCell.set_slotwise 0).withinDue

/-- The clearing of the list is metered when there is nothing to clear. -/
theorem clearList_iff :
    self.clearList.weigh charge Machine.handle m = self.clearList.weigh due Machine.handle m
      ↔ ∀ n ∈ m.uint64 self.sizeCell, n = 0 := by
  refine weigh_size_bind_iff (fun _ => WeighsEq.done ()) ?_
  intro n m h0
  -- each round is an uncharged write, and there is a round
  refine weigh_bind_lt_left (forRange_underpays h0 (fun _ m => sstore_underpays _ _ _ m) m) ?_
  intro _
  exact (self.sizeCell.set_slotwise 0).withinDue

/-- Members are read without a charge. -/
theorem membersFrom_underpays {i count : Nat} (hcount : count ≠ 0) (m : Machine σ B) :
    Underpays (self.membersFrom i count) m := by
  obtain ⟨count, rfl⟩ := Nat.exists_eq_succ_of_ne_zero hcount
  exact weigh_bind_lt_left (storage_underpays _ _ m) fun raw =>
    (self.membersFrom_withinDue _ count).bind fun _ => (WeighsEq.done _).le

/-- The list of the members is metered when no member is read. -/
theorem allMembers_iff {max : U64} :
    (self.allMembers max).weigh charge Machine.handle m
        = (self.allMembers max).weigh due Machine.handle m
      ↔ ∀ n ∈ m.uint64 self.sizeCell, minWord n max = 0 := by
  refine Iff.trans weigh_uint64_bind_iff (forall₂_congr ?_)
  intro n hn
  by_cases h0 : minWord n max = 0
  · rw [h0]
    exact iff_of_true rfl rfl
  · have hne : (minWord n max).toNat ≠ 0 := fun h => h0 (BitVec.eq_of_toNat_eq h)
    exact iff_of_false (membersFrom_underpays hne m.charged).ne h0

/-- Reading all members never charges too much. -/
theorem allMembers_withinDue (max : U64) : WithinDue σ B (self.allMembers max) :=
  self.sizeCell.get_slotwise.withinDue.bind fun _ => self.membersFrom_withinDue 0 _

end AddressSet

namespace Queue
variable {self : Queue} {m : Machine σ B}

/-- What follows the emptiness test matters only when the offsets differ. -/
theorem weigh_isEmpty_bind_iff {α : Type} {p q : Exec DbError α} (hp : Settles σ B p) :
    (self.isEmpty >>= fun b => if b then p else q).weigh charge Machine.handle m
        = (self.isEmpty >>= fun b => if b then p else q).weigh due Machine.handle m
      ↔ ∀ put ∈ m.uint64 self.nextPutOffset, ∀ get ∈ m.uint64 self.nextGetOffset,
          put = get ∨ q.weigh charge Machine.handle m.charged.charged
            = q.weigh due Machine.handle m.charged.charged := by
  rw [weigh_bind_eq_iff (self.isEmpty_slotwise.settles m)]
  constructor
  · intro h put hput get hget
    have hq := h (put == get) _ (Machine.exec_offsets _ hput hget _)
    by_cases heq : put = get
    · exact .inl heq
    · rw [if_neg (by simpa using heq)] at hq
      exact .inr hq
  · intro h b m' hrun
    obtain ⟨put, get, hput, hget, hrun⟩ := Machine.exec_offsets_ok _ hrun
    cases hrun
    split
    · exact hp _
    · rename_i hne
      exact (h put hput get hget).resolve_left (by simpa using hne)

/-- `peek` reads the element without a charge. -/
theorem peek_iff :
    self.peek.weigh charge Machine.handle m = self.peek.weigh due Machine.handle m
      ↔ ∀ put ∈ m.uint64 self.nextPutOffset, ∀ get ∈ m.uint64 self.nextGetOffset, put = get := by
  refine (weigh_isEmpty_bind_iff (WeighsEq.done none)).trans
    (forall₂_congr fun put hput => forall₂_congr fun get hget => or_iff_left ?_)
  refine Underpays.ne (weigh_bind_lt_right self.nextGetOffset.get_slotwise.withinDue
    (Machine.exec_uint64_get _ hget) ?_)
  exact weigh_bind_lt_left (storage_underpays _ _ _) fun _ => (WeighsEq.done _).le

/-- `get` takes the element with an uncharged read, after the offset has moved. -/
theorem get_iff :
    self.get.weigh charge Machine.handle m = self.get.weigh due Machine.handle m
      ↔ ∀ put ∈ m.uint64 self.nextPutOffset, ∀ get ∈ m.uint64 self.nextGetOffset,
          put = get ∨ get = BitVec.allOnes 64
            ∨ Burner.readOnly m.charged.charged.charged.burner = true := by
  refine (weigh_isEmpty_bind_iff (WeighsEq.done none)).trans
    (forall₂_congr fun put hput => forall₂_congr fun get hget => or_congr_right ?_)
  constructor
  · intro heq
    by_contra hne
    obtain ⟨hmax, hro⟩ := not_or.mp hne
    -- the offset moves, and the element is read
    refine Underpays.ne (weigh_bind_lt_right self.nextGetOffset.increment_slotwise.withinDue
      (Machine.exec_increment (m := m.charged.charged) _ hget hmax (by simpa using hro)) ?_) heq
    have hle : (1 : U64) ≤ get + 1 := by
      have hlt : get.toNat + 1 < 2 ^ 64 := U64.toNat_add_one_lt hmax
      bv_omega
    rw [checkedSub, if_pos hle]
    refine weigh_bind_lt_right (WeighsEq.done (get + 1 - 1)).le rfl ?_
    exact weigh_bind_lt_left (self.storage.swap_underpays _ _ _) fun _ => (WeighsEq.done _).le
  · intro hstop
    refine weigh_bind_eq (self.nextGetOffset.increment_slotwise.settles _) ?_
    intro v m' hrun
    -- the increment does not return
    obtain ⟨v, hv, hmax, hro⟩ := Machine.exec_increment_ok _ hrun
    cases hv.symm.trans hget
    rcases hstop with h | h
    · exact absurd h hmax
    · exact absurd (hro.symm.trans h) Bool.false_ne_true

/-- The loop over the elements of a queue reads them without a charge. It may have no rounds. -/
theorem forEachFrom_withinDue {γ : Type}
    (closure : γ → U64 → StorageValue → Except DbError Bool × γ) (offset : U64)
    (index count : Nat) (g : γ) :
    WithinDue σ B (self.forEachFrom closure offset index count g) := by
  induction count generalizing index g with
  | zero => exact (WeighsEq.done g).le
  | succ count ih =>
      refine WeighsLe.bind ?_ fun at_ => (storage_withinDue _ _).bind fun entry => ?_
      · exact (WeighsEq.ite (WeighsEq.done _) (WeighsEq.panic _)).le
      · rcases closure g (BitVec.ofNat 64 index) entry with ⟨_ | b, g'⟩
        · exact (WeighsEq.fail _).le
        · cases b with
          | true => exact (WeighsEq.done g').le
          | false => exact ih (index + 1) g'

/-- `forEach` reads the elements without a charge. -/
theorem forEach_iff {γ : Type} {closure : γ → U64 → StorageValue → Except DbError Bool × γ}
    {g : γ} :
    (self.forEach closure g).weigh charge Machine.handle m
        = (self.forEach closure g).weigh due Machine.handle m
      ↔ ∀ put ∈ m.uint64 self.nextPutOffset, ∀ get ∈ m.uint64 self.nextGetOffset, put ≤ get := by
  refine (weigh_bind_eq_iff (self.size_slotwise.settles m)).trans ?_
  constructor
  · intro h put hput get hget
    by_contra hlt
    have hle : get ≤ put := by bv_omega
    have hsize : self.size.exec Machine.handle m = (.ok (put - get), m.charged.charged) := by
      refine (Machine.exec_offsets _ hput hget _).trans ?_
      rw [checkedSub, if_pos hle]
      rfl
    refine Underpays.ne (weigh_bind_lt_right self.nextGetOffset.get_slotwise.withinDue
      (Machine.exec_uint64_get (m := m.charged.charged) _ hget) ?_) (h _ _ hsize)
    -- there is an element, so the loop runs
    obtain ⟨count, hcount⟩ : ∃ count, (put - get).toNat = count + 1 :=
      Nat.exists_eq_succ_of_ne_zero (by bv_omega)
    rw [hcount]
    have hfirst : (checkedAdd get (BitVec.ofNat 64 0) : Exec DbError U64).exec Machine.handle
        m.charged.charged.charged
          = (.ok (get + BitVec.ofNat 64 0), m.charged.charged.charged) := by
      rw [checkedAdd, if_pos (by simpa using get.isLt)]
      rfl
    refine weigh_bind_lt_right (WeighsEq.ite (WeighsEq.done _) (WeighsEq.panic _)).le hfirst ?_
    refine weigh_bind_lt_left (storage_underpays _ _ _) ?_
    intro entry
    rcases closure g (BitVec.ofNat 64 0) entry with ⟨_ | b, g'⟩
    · exact (WeighsEq.fail _).le
    · cases b with
      | true => exact (WeighsEq.done g').le
      | false => exact forEachFrom_withinDue closure get 1 count g'
  · intro h n m' hrun
    obtain ⟨put, get, hput, hget, hrun⟩ := Machine.exec_offsets_ok _ hrun
    have hle := h put hput get hget
    have hzero : n.toNat = 0 := by
      rw [checkedSub] at hrun
      split at hrun
      · cases hrun
        bv_omega
      · cases hrun
    rw [hzero]
    exact (self.nextGetOffset.get_slotwise.bind fun offset => .done g).settles m'

end Queue

/-! ### The table of the batch posters -/

namespace BatchPostersTable
variable {self : BatchPostersTable} {m : Machine σ B}

/-- Adding a poster starts with the test for a member. -/
theorem addPoster_underpays (posterAddress payTo : Address) (m : Machine σ B) :
    Underpays (self.addPoster posterAddress payTo) m := by
  refine weigh_bind_lt_left ?_ ?_
  · rw [weigh_mapErr, weigh_mapErr]
    exact self.posterAddrs.isMember_underpays posterAddress m
  · intro isBatchPoster
    refine WeighsLe.ite (WeighsEq.fail _).le ?_
    refine ((Slotwise.set _ _).mapErr _).withinDue.bind fun _ =>
      ((Slotwise.set _ _).mapErr _).withinDue.bind fun _ => WeighsLe.bind ?_ fun _ =>
        (WeighsEq.done _).le
    exact WeighsLe.mapErr (fun m => Nat.le_of_lt (self.posterAddrs.add_underpays _ m)) _

/-- Opening a poster starts with the test for a member. -/
theorem openPoster_underpays (poster : Address) (create : Bool) (m : Machine σ B) :
    Underpays (self.openPoster poster create) m := by
  refine weigh_bind_lt_left ?_ ?_
  · rw [weigh_mapErr, weigh_mapErr]
    exact self.posterAddrs.isMember_underpays poster m
  · intro isBatchPoster
    refine WeighsLe.ite (WeighsLe.ite (WeighsEq.fail _).le ?_) (WeighsEq.done _).le
    exact fun m => Nat.le_of_lt (addPoster_underpays poster poster m)

/-- The loop over the posters charges the amounts due, and not the tests for members. -/
theorem fundsDueItems_withinDue (posters : List Address) :
    WithinDue σ B (self.fundsDueItems posters) := by
  induction posters with
  | nil => exact (WeighsEq.done []).le
  | cons poster posters ih =>
      refine WeighsLe.bind (fun m => Nat.le_of_lt (openPoster_underpays poster false m))
        fun state => WeighsLe.bind ?_ fun due => ih.bind fun rest =>
          (WeighsEq.ite (WeighsEq.done _) (WeighsEq.done _)).le
      exact (((Slotwise.get _).bind fun _ => .done _).mapErr _).withinDue

/-- The list of the dues is read without a charge for the members. -/
theorem getFundsDueList_iff :
    self.getFundsDueList.weigh charge Machine.handle m
        = self.getFundsDueList.weigh due Machine.handle m
      ↔ ∀ n ∈ m.uint64 self.posterAddrs.sizeCell, minWord n (BitVec.allOnes 64) = 0 := by
  rw [← AddressSet.allMembers_iff]
  constructor
  · intro heq
    by_contra hne
    have hlt : Underpays (self.posterAddrs.allMembers (BitVec.allOnes 64)) m :=
      Nat.lt_of_le_of_ne (AddressSet.allMembers_withinDue _ m) hne
    refine Underpays.ne (weigh_bind_lt_left ?_ fun posters => fundsDueItems_withinDue posters) heq
    rw [weigh_mapErr, weigh_mapErr]
    exact hlt
  · intro heq
    refine weigh_bind_eq (by rw [weigh_mapErr, weigh_mapErr]; exact heq) ?_
    intro posters m' hrun
    -- the list of the posters is empty
    have hnil : posters = [] := by
      rw [mapErr, exec_handleErr] at hrun
      cases hsize : m.uint64 self.posterAddrs.sizeCell with
      | none =>
          rw [allPosters, AddressSet.allMembers,
            exec_bind_panic (Machine.exec_uint64_get_panic _ hsize)] at hrun
          cases hrun
      | some n =>
          rw [allPosters, AddressSet.allMembers,
            exec_bind_ok (Machine.exec_uint64_get _ hsize)] at hrun
          rw [AddressSet.allMembers_iff.mp heq n hsize] at hrun
          cases hrun
          rfl
    rw [hnil]
    rfl

end BatchPostersTable

end

/-! ### All operations -/

/-- The guarded writes of a space are charged, and no other access. -/
def StorageOp.Metered : StorageOp → Prop
  | set _ _ | setUint64 _ _ | setByUint64 _ _ | setUint64ByUint64 _ _ | setUint32 _ _
  | setByUint32 _ _ | clear _ | clearByUint64 _ => True
  | readSlot _ | writeSlot _ _ | getByKey _ | setByKey _ _ | clearByKey _ | getUint64ByKey _
  | getByUint64 _ | getUint64ByUint64 _ | swap _ _
  | getBytesSize | getBytes | clearBytes | setBytes _ => False

/-- When an operation on a set is charged in full, by the number in the size cell, if the
cell holds one. -/
def AddressSetOp.Metered (size : Option U64) : AddressSetOp → Prop
  | initializeSet | AddressSetOp.size => True
  | getAnyMember | clear | clearList => ∀ n ∈ size, n = 0
  | allMembers max => ∀ n ∈ size, minWord n max = 0
  | isMember _ | rectifyMapping _ | add _ | remove _ _ => False

/-- When an operation on a queue is charged in full, by the numbers in the offset cells
and by whether the burner refuses the move of the offset. -/
def QueueOp.Metered (put get : Option U64) (refuses : Bool) : QueueOp → Prop
  | .put _ | shift | size | isEmpty => True
  | peek => ∀ p ∈ put, ∀ g ∈ get, p = g
  | .get => ∀ p ∈ put, ∀ g ∈ get, p = g ∨ g = BitVec.allOnes 64 ∨ refuses = true
  | forEach _ => ∀ p ∈ put, ∀ g ∈ get, p ≤ g

/-- When an operation on the table is charged in full, by the number of its posters. -/
def PosterOp.Metered (size : Option U64) : PosterOp → Prop
  | initializeTable | totalFundsDue | fundsDue _ | setFundsDue _ _ | payTo _ | setPayTo _ _ => True
  | allPosters max => ∀ n ∈ size, minWord n max = 0
  | getFundsDueList => ∀ n ∈ size, minWord n (BitVec.allOnes 64) = 0
  | openPoster _ _ | containsPoster _ | addPoster _ _ => False

/-- When an operation is charged in full, by the machine it starts on. -/
def Operation.Metered [Keccak] {σ B : Type} [Context σ] [Burner B] (m : Machine σ B) :
    Operation → Prop
  | cell _ | queueInitialize _ | vector _ _ => True
  | storage _ op => op.Metered
  | bytes _ _ => False
  | addressSet sto op => op.Metered (m.uint64 (AddressSet.new sto).sizeCell)
  | queue sto op =>
      op.Metered (m.uint64 (Queue.open sto).nextPutOffset) (m.uint64 (Queue.open sto).nextGetOffset)
        (Burner.readOnly m.charged.charged.charged.burner)
  | posters sto op => op.Metered (m.uint64 (BatchPostersTable.open sto).posterAddrs.sizeCell)

section
variable [Keccak] {σ B : Type} [Context σ] [Burner B] {m : Machine σ B}

/-- The operations of a space that are metered. The swap and all unguarded accessors are not. -/
theorem StorageOp.settlesOn_iff (self : Storage) (op : StorageOp) :
    SettlesOn (op.perform self) m ↔ op.Metered := by
  cases op with
  | readSlot _ | getByKey _ | getByUint64 _ =>
      exact settlesOn_of_underpays (storage_underpays _ _ m)
  | writeSlot _ _ | setByKey _ _ | clearByKey _ =>
      exact settlesOn_of_underpays (sstore_underpays _ _ _ m)
  | getUint64ByKey _ | getUint64ByUint64 _ =>
      exact settlesOn_of_underpays (self.getUint64ByKey_underpays _ m)
  | set _ _ | setUint64 _ _ | setByUint64 _ _ | setUint64ByUint64 _ _ | setUint32 _ _
  | setByUint32 _ _ | clear _ | clearByUint64 _ =>
      exact settlesOn_of_slotwise (.setKey self _ _)
  | swap key v =>
      exact settlesOn_of_underpays (self.swap_underpays key v m)
  | getBytesSize =>
      exact settlesOn_of_underpays (self.getBytesSize_underpays m)
  | getBytes =>
      exact settlesOn_of_underpays (self.getBytes_underpays m)
  | clearBytes =>
      exact settlesOn_of_underpays (self.clearBytes_underpays m)
  | setBytes b =>
      exact settlesOn_of_underpays (self.setBytes_underpays b m)

/-- No operation of a byte string is metered, since each reads the length without a charge. -/
theorem BytesOp.settlesOn_iff (self : StorageBackedBytes) (op : BytesOp) :
    SettlesOn (op.perform self) m ↔ False := by
  cases op with
  | size => exact settlesOn_of_underpays (self.storage.getBytesSize_underpays m)
  | get => exact settlesOn_of_underpays (self.storage.getBytes_underpays m)
  | clear => exact settlesOn_of_underpays (self.storage.clearBytes_underpays m)
  | set b => exact settlesOn_of_underpays (self.storage.setBytes_underpays b m)

/-- The operations of a set of addresses that are metered, by the size of the set. -/
theorem AddressSetOp.settlesOn_iff (sto : Storage) (op : AddressSetOp) :
    SettlesOn (op.perform sto) m ↔ op.Metered (m.uint64 (AddressSet.new sto).sizeCell) := by
  cases op with
  | initializeSet => exact settlesOn_of_slotwise (.setKey sto _ _)
  | size => exact settlesOn_of_slotwise (StorageBackedUint64.get_slotwise _)
  | isMember addr =>
      exact settlesOn_of_underpays ((AddressSet.new sto).isMember_underpays addr m)
  | getAnyMember => exact settlesOn_reply.trans AddressSet.getAnyMember_iff
  | clear => exact settlesOn_reply.trans AddressSet.clear_iff
  | allMembers max => exact settlesOn_reply.trans AddressSet.allMembers_iff
  | clearList => exact settlesOn_reply.trans AddressSet.clearList_iff
  | rectifyMapping addr =>
      exact settlesOn_of_underpays ((AddressSet.new sto).rectifyMapping_underpays addr m)
  | add addr =>
      exact settlesOn_of_underpays ((AddressSet.new sto).add_underpays addr m)
  | remove addr version =>
      exact settlesOn_of_underpays ((AddressSet.new sto).remove_underpays addr version m)

/-- The operations of a queue that are metered, by its two offsets. -/
theorem QueueOp.settlesOn_iff (sto : Storage) (op : QueueOp) :
    SettlesOn (((Queue.open sto).program op).answer .queue) m
      ↔ op.Metered (m.uint64 (Queue.open sto).nextPutOffset)
          (m.uint64 (Queue.open sto).nextGetOffset)
          (Burner.readOnly m.charged.charged.charged.burner) := by
  have hwrap : ∀ {α : Type} (p : Exec DbError α) (f : α → QueueAnswer),
      SettlesOn (Exec.answer (p >>= fun a => .done (f a)) .queue) m
        ↔ p.weigh charge Machine.handle m = p.weigh due Machine.handle m := by
    intro α p f
    refine settlesOn_reply.trans ?_
    rw [SettlesOn, weigh_bind_done, weigh_bind_done]
  cases op with
  | put val => exact settlesOn_of_slotwise ((Queue.put_slotwise _ val).bind fun _ => .done _)
  | get => exact (hwrap _ _).trans Queue.get_iff
  | peek => exact (hwrap _ _).trans Queue.peek_iff
  | shift => exact settlesOn_of_slotwise ((Queue.shift_slotwise _).bind fun _ => .done _)
  | size => exact settlesOn_of_slotwise ((Queue.size_slotwise _).bind fun _ => .done _)
  | isEmpty => exact settlesOn_of_slotwise ((Queue.isEmpty_slotwise _).bind fun _ => .done _)
  | forEach answer => exact (hwrap _ _).trans Queue.forEach_iff

/-- The operations of the table that are metered, by the size of its set. -/
theorem PosterOp.settlesOn_iff (sto : Storage) (op : PosterOp) :
    SettlesOn (op.perform sto) m
      ↔ op.Metered (m.uint64 (BatchPostersTable.open sto).posterAddrs.sizeCell) := by
  cases op with
  | initializeTable =>
      exact settlesOn_of_slotwise (BatchPostersTable.initializeTable_slotwise sto)
  | openPoster poster create =>
      exact settlesOn_of_underpays (BatchPostersTable.openPoster_underpays poster create m)
  | containsPoster poster =>
      exact settlesOn_of_underpays (AddressSet.isMember_underpays _ poster m)
  | addPoster poster payee =>
      exact settlesOn_of_underpays (BatchPostersTable.addPoster_underpays poster payee m)
  | allPosters max => exact settlesOn_reply.trans AddressSet.allMembers_iff
  | getFundsDueList => exact settlesOn_reply.trans BatchPostersTable.getFundsDueList_iff
  | totalFundsDue | fundsDue _ | payTo _ =>
      exact settlesOn_of_slotwise ((Slotwise.get _).bind fun _ => .done _)
  | setFundsDue poster val =>
      exact settlesOn_of_slotwise (BatchPosterState.setFundsDue_slotwise _ val)
  | setPayTo poster addr =>
      exact settlesOn_of_slotwise (.set _ _)

/-- An operation charges what is due for its accesses exactly when it is one that makes
no uncharged access on the stored words. -/
theorem Operation.metered_iff (op : Operation) (m : Machine σ B) :
    op.perform.weigh charge Machine.handle m = op.perform.weigh due Machine.handle m
      ↔ op.Metered m := by
  cases op with
  | cell op => exact iff_of_true (op.perform_slotwise.settles m) trivial
  | storage self op => exact op.settlesOn_iff self
  | bytes self op => exact op.settlesOn_iff self
  | addressSet sto op => exact op.settlesOn_iff sto
  | queueInitialize sto =>
      exact settlesOn_of_slotwise (Queue.initializeQueue_slotwise sto)
  | queue sto op => exact op.settlesOn_iff sto
  | vector sto op => exact iff_of_true ((op.perform_slotwise sto).settles m) trivial
  | posters sto op => exact op.settlesOn_iff sto

end

section
attribute [local instance] sampleHash

/-- A member is added to the empty set of the sample space. Of the three reads and three
writes, only the reads of the size and its one write are charged. -/
theorem Operation.not_metered_sample :
    let op := Operation.addressSet sampleRoot (.add 7)
    let m := Machine.blank false
    op.perform.weigh charge Machine.handle m = 2 * 800 + 20000
      ∧ op.perform.weigh due Machine.handle m = 3 * 800 + 3 * 20000
      ∧ op.perform.weigh charge Machine.handle m ≠ op.perform.weigh due Machine.handle m := by
  decide +kernel

end

end ArbReth
