import ArbReth.Proofs.Storage.Machine
import ArbReth.Storage.SampleHash

/-!
# `ArbReth.Proofs.Storage.Protection`: writes under a read-only burner

`Guarded free p` is a property of the text of a program. The program moves no funds,
it only panics when the burner refuses writes, and each write comes after such a
test, unless `free` holds. A program without unguarded writes (`free` is `False`)
writes nothing under a read-only burner. Any guarded program that writes nothing under
a read-only burner leaves the context alone, and panics when it would write under a
writable one.

`StorageSlot::set` and `Storage::set` test the burner, so the operations on slots have
no unguarded write (`Slotwise.guarded`). `write_slot`, `set_by_key` and what is built on
them do not test it. `Operation.WriteProtected` says when an operation reaches no
unguarded write, in terms of the words that are stored before it, and
`Operation.harmless_iff` proves it for all operations, contexts and read-only burners.
-/

set_option autoImplicit false

namespace ArbReth

open ArbReth.Program ArbReth.Program.Prog

/-- The command writes a slot. -/
def IsWrite : Event Resp → Prop
  | ⟨.sstore _ _ _, _⟩ => True
  | _ => False

/-- The program moves no funds, panics when the burner refuses writes, and tests the
burner before each write, unless writes are free. -/
inductive Guarded {ε α : Type} : Prop → Exec ε α → Prop
  | done {free : Prop} (a : α) : Guarded free (.done a)
  | fail {free : Prop} (e : ε) : Guarded free (.fail e)
  | panic {free : Prop} (m : String) : Guarded free (.panic m)
  | storage {free : Prop} (a : Address) (k : StorageKey)
      {rest : Resp (.storage a k) → Exec ε α} (h : ∀ r, Guarded free (rest r)) :
      Guarded free (.call (.storage a k) rest)
  | sstore {free : Prop} (hfree : free) (a : Address) (k : StorageKey) (v : StorageValue)
      {rest : Resp (.sstore a k v) → Exec ε α} (h : ∀ r, Guarded free (rest r)) :
      Guarded free (.call (.sstore a k v) rest)
  | burn {free : Prop} (kind : ResourceKind) (amount : U64)
      {rest : Resp (.burn kind amount) → Exec ε α} (h : Guarded free (rest ())) :
      Guarded free (.call (.burn kind amount) rest)
  | captureStorageGet {free : Prop} (slot : StorageKey)
      {rest : Resp (.captureStorageGet slot) → Exec ε α} (h : Guarded free (rest ())) :
      Guarded free (.call (.captureStorageGet slot) rest)
  | captureStorageSet {free : Prop} (slot : StorageKey) (v : StorageValue)
      {rest : Resp (.captureStorageSet slot v) → Exec ε α} (h : Guarded free (rest ())) :
      Guarded free (.call (.captureStorageSet slot v) rest)
  | readOnly {free : Prop} {m : String} {rest : Resp .readOnly → Exec ε α}
      (hrefused : rest true = .panic m) (h : Guarded True (rest false)) :
      Guarded free (.call .readOnly rest)

namespace Guarded
variable {free : Prop} {ε ε' α β : Type}

/-- A guarded program is guarded when writes are free. -/
theorem weaken {p : Exec ε α} (hp : Guarded free p) : Guarded True p := by
  induction hp with
  | done a => exact .done a
  | fail e => exact .fail e
  | panic m => exact .panic m
  | storage a k _ ih => exact .storage a k ih
  | sstore _ a k v _ ih => exact .sstore trivial a k v ih
  | burn kind amount _ ih => exact .burn kind amount ih
  | captureStorageGet slot _ ih => exact .captureStorageGet slot ih
  | captureStorageSet slot v _ ih => exact .captureStorageSet slot v ih
  | readOnly hrefused h _ => exact .readOnly hrefused h

/-- A guarded program and then a guarded one. When the first has passed a test of the burner, the
second may write freely. -/
theorem bind {p : Exec ε α} {q : α → Exec ε β} (hp : Guarded free p)
    (hq : ∀ a, Guarded free (q a)) : Guarded free (p >>= q) := by
  induction hp with
  | done a => exact hq a
  | fail e => exact .fail e
  | panic m => exact .panic m
  | storage a k _ ih => exact .storage a k fun r => ih r hq
  | sstore hfree a k v _ ih => exact .sstore hfree a k v fun r => ih r hq
  | burn kind amount _ ih => exact .burn kind amount (ih hq)
  | captureStorageGet slot _ ih => exact .captureStorageGet slot (ih hq)
  | captureStorageSet slot v _ ih => exact .captureStorageSet slot v (ih hq)
  | readOnly hrefused _ ih =>
      -- behind the test the second program may write freely
      exact .readOnly (by rw [hrefused]; rfl) (ih fun a => (hq a).weaken)

/-- A program that is one of two guarded ones. -/
theorem ite {c : Prop} [Decidable c] {p q : Exec ε α} (hp : Guarded free p)
    (hq : Guarded free q) : Guarded free (if c then p else q) := by
  split
  · exact hp
  · exact hq

/-- An error handler that is guarded, around a guarded program. -/
theorem handleErr {p : Exec ε α} {f : ε → Exec ε' α} (hp : Guarded free p)
    (hf : ∀ e, Guarded free (f e)) : Guarded free (p.handleErr f) := by
  induction hp with
  | done a => exact .done a
  | fail e => exact hf e
  | panic m => exact .panic m
  | storage a k _ ih => exact .storage a k fun r => ih r hf
  | sstore hfree a k v _ ih => exact .sstore hfree a k v fun r => ih r hf
  | burn kind amount _ ih => exact .burn kind amount (ih hf)
  | captureStorageGet slot _ ih => exact .captureStorageGet slot (ih hf)
  | captureStorageSet slot v _ ih => exact .captureStorageSet slot v (ih hf)
  | readOnly hrefused _ ih => exact .readOnly (by rw [hrefused]; rfl) (ih fun e => (hf e).weaken)

/-- Another error changes nothing. -/
theorem mapErr {p : Exec ε α} (hp : Guarded free p) (f : ε → ε') : Guarded free (p.mapErr f) :=
  hp.handleErr fun e => .fail (f e)

/-- A loop whose rounds are guarded, by induction on their number. -/
theorem forRange {body : Nat → Exec ε Unit} (hbody : ∀ i, Guarded free (body i))
    (first count : Nat) : Guarded free (Prog.forRange body first count) := by
  induction count generalizing first with
  | zero => exact .done ()
  | succ count ih => exact (hbody first).bind fun _ => ih (first + 1)

/-- Another type for the error and the result. -/
theorem reply {p : Exec ε α} (hp : Guarded free p) {err : ε → ε'} {result : α → β} :
    Guarded free (Exec.reply p err result) :=
  (hp.mapErr err).bind fun a => .done (result a)

/-- Passing on the answer of the context issues no command. -/
theorem ofResult (r : Except DbError α) : Guarded free (Exec.ofResult r) := by
  cases r with
  | ok a => exact .done a
  | error e => exact .fail e

end Guarded

/-! ### Runs of guarded programs -/

section
variable {σ B : Type} [Context σ] [Burner B] {ε α : Type} {m : Machine σ B}

/-- A program without unguarded writes writes nothing under a read-only burner. -/
theorem Guarded.avoids_write {p : Exec ε α} (hp : Guarded False p)
    (hro : Burner.IsReadOnly m.burner) : Avoids IsWrite Machine.handle p m := by
  generalize hfree : False = free at hp
  induction hp generalizing m with
  | done a => exact fun e he => absurd he List.not_mem_nil
  | fail e => exact fun e he => absurd he List.not_mem_nil
  | panic msg => exact fun e he => absurd he List.not_mem_nil
  | storage a k _ ih =>
      rw [avoids_call]
      exact ⟨id, ih _ hro hfree⟩
  | sstore hfree' => exact absurd hfree' (hfree ▸ id)
  | burn kind amount _ ih =>
      rw [avoids_call]
      exact ⟨id, ih (hro.burn kind amount) hfree⟩
  | captureStorageGet slot _ ih =>
      rw [avoids_call]
      exact ⟨id, ih hro hfree⟩
  | captureStorageSet slot v _ ih =>
      rw [avoids_call]
      exact ⟨id, ih hro hfree⟩
  | readOnly hrefused _ _ =>
      rw [avoids_call]
      refine ⟨id, ?_⟩
      -- the test finds a read-only burner, and the program panics
      show Avoids IsWrite _ (_ : Exec ε α) m
      rw [show (Machine.handle Cmd.readOnly m).1 = true from hro.readOnly, hrefused]
      exact fun e he => absurd he List.not_mem_nil

/-- A guarded program that writes nothing under a read-only burner leaves the context
alone. -/
theorem Guarded.context_eq {free : Prop} {p : Exec ε α} (hp : Guarded free p)
    (hro : Burner.IsReadOnly m.burner) (havoid : Avoids IsWrite Machine.handle p m) :
    (p.exec Machine.handle m).2.context = m.context := by
  induction hp generalizing m with
  | done a => rfl
  | fail e => rfl
  | panic msg => rfl
  | storage a k _ ih =>
      rw [avoids_call] at havoid
      have hstep : (Machine.handle (Cmd.storage a k) m).2 = m := Machine.step_storage m a k
      rw [hstep] at havoid
      rw [exec_call, hstep]
      exact ih _ hro havoid.2
  | sstore _ a k v _ _ =>
      rw [avoids_call] at havoid
      exact absurd trivial havoid.1
  | burn kind amount _ ih =>
      rw [avoids_call] at havoid
      exact ih (hro.burn kind amount) havoid.2
  | captureStorageGet slot _ ih =>
      rw [avoids_call] at havoid
      exact ih hro havoid.2
  | captureStorageSet slot v _ ih =>
      rw [avoids_call] at havoid
      exact ih hro havoid.2
  | readOnly hrefused _ _ =>
      rw [exec_call, show (Machine.handle Cmd.readOnly m).1 = true from hro.readOnly, hrefused]
      rfl

/-- A guarded program that writes nothing under a read-only burner, and would write under
a writable one, panics. -/
theorem Guarded.isPanic {free : Prop} {p : Exec ε α} (hp : Guarded free p)
    (hro : Burner.IsReadOnly m.burner) (havoid : Avoids IsWrite Machine.handle p m)
    (hwrites : ¬Avoids IsWrite Machine.handleWritable p m) :
    (p.exec Machine.handle m).1.IsPanic := by
  induction hp generalizing m with
  | done a => exact absurd (fun e he => absurd he List.not_mem_nil) hwrites
  | fail e => exact absurd (fun e he => absurd he List.not_mem_nil) hwrites
  | panic msg => trivial
  | storage a k _ ih =>
      rw [avoids_call] at havoid hwrites
      exact ih _ hro havoid.2 fun h => hwrites ⟨id, h⟩
  | sstore _ a k v _ _ =>
      rw [avoids_call] at havoid
      exact absurd trivial havoid.1
  | burn kind amount _ ih =>
      rw [avoids_call] at havoid hwrites
      exact ih (hro.burn kind amount) havoid.2 fun h => hwrites ⟨id, h⟩
  | captureStorageGet slot _ ih =>
      rw [avoids_call] at havoid hwrites
      exact ih hro havoid.2 fun h => hwrites ⟨id, h⟩
  | captureStorageSet slot v _ ih =>
      rw [avoids_call] at havoid hwrites
      exact ih hro havoid.2 fun h => hwrites ⟨id, h⟩
  | readOnly hrefused _ _ =>
      rw [exec_call, show (Machine.handle Cmd.readOnly m).1 = true from hro.readOnly, hrefused]
      trivial

end

/-! ### The text of the operations -/

section
variable {free : Prop}

/-- A read is guarded. It tests nothing and writes nothing. -/
theorem guarded_storage (a : Address) (k : StorageKey) : Guarded free (Exec.storage a k) :=
  .storage a k .ofResult

/-- A write alone is guarded where writes are free. -/
theorem guarded_sstore (a : Address) (k v : U256) : Guarded True (Exec.sstore a k v) :=
  .sstore trivial a k v .ofResult

/-- The write of a slot tests the burner first. -/
theorem StorageSlot.set_guarded (self : StorageSlot) (v : StorageValue) :
    Guarded free (self.set v) :=
  .readOnly rfl (.burn _ _ (.captureStorageSet _ _ (guarded_sstore _ _ _)))

/-- What follows a guarded write of a cell may write freely. -/
theorem StorageSlot.set_bind_guarded (self : StorageSlot) {ε α : Type} (v : StorageValue)
    (f : DbError → ε) {q : Unit → Exec ε α} (hq : ∀ u, Guarded True (q u)) :
    Guarded free ((self.set v).mapErr f >>= q) := by
  refine .readOnly rfl ?_
  have htail : Guarded True (do
      Exec.burn .storageAccess (writeCost v)
      Exec.captureStorageSet self.slot v
      Exec.sstore self.account self.slot v) :=
    .burn _ _ (.captureStorageSet _ _ (guarded_sstore _ _ _))
  exact (htail.mapErr f).bind hq

variable [Keccak]

/-- The checked write of a key tests the burner first. -/
theorem Storage.set_guarded (self : Storage) (key : StorageKey) (v : StorageValue) :
    Guarded free (self.set key v) :=
  .readOnly rfl (.burn _ _ (guarded_sstore _ _ _))

/-- An operation on slots has no unguarded write. -/
theorem Slotwise.guarded {ε α : Type} {p : Exec ε α} (hp : Slotwise p) : Guarded free p := by
  induction hp with
  | get slot => exact .burn _ _ (.captureStorageGet _ (guarded_storage _ _))
  | set slot v => exact slot.set_guarded v
  | setKey self key v => exact self.set_guarded key v
  | done a => exact .done a
  | fail e => exact .fail e
  | panic m => exact .panic m
  | bind _ _ ihp ihq => exact ihp.bind ihq
  | mapErr _ f ih => exact ih.mapErr f

namespace Storage
variable (self : Storage)

/-- The read of a key as a `u64` writes nothing. -/
theorem getUint64ByKey_guarded (key : StorageKey) : Guarded free (self.getUint64ByKey key) :=
  (guarded_storage _ _).bind fun val => by
    cases U64.tryFrom val with
    | none => exact .panic _
    | some v => exact .done v

/-- The swap reads, and then writes through the checked write. -/
theorem swap_guarded (key : StorageKey) (v : StorageValue) : Guarded free (self.swap key v) :=
  (guarded_storage _ _).bind fun old => (self.set_guarded key v).bind fun _ => .done old

/-- The read of the length writes nothing. -/
theorem getBytesSize_guarded : Guarded free self.getBytesSize :=
  (guarded_storage _ _).bind fun raw => by
    cases U64.tryFrom raw with
    | none => exact .panic _
    | some v => exact .done v

/-- The loop over the full chunks writes nothing. -/
theorem getFullChunks_guarded (offset count : Nat) :
    Guarded free (self.getFullChunks offset count) := by
  induction count generalizing offset with
  | zero => exact .done []
  | succ count ih =>
      exact (guarded_storage _ _).bind fun _ => (ih (offset + 1)).bind fun _ => .done _

/-- The read of the string writes nothing. -/
theorem getBytes_guarded : Guarded free self.getBytes :=
  self.getBytesSize_guarded.bind fun _ => (self.getFullChunks_guarded 1 _).bind fun _ =>
    .ite ((guarded_storage _ _).bind fun _ => .done _) (.done _)

/-! The writes of a byte string do not test the burner. -/

/-- The clearing writes with no test, in each round of its loop. -/
theorem clearBytes_guarded : Guarded True self.clearBytes :=
  self.getBytesSize_guarded.bind fun _ =>
    (Guarded.forRange (fun _ => guarded_sstore _ _ _) 1 _).bind fun _ => guarded_sstore _ _ _

/-- The writes of the chunks test nothing. -/
theorem setChunks_guarded (offset count : Nat) (remaining : Bytes) :
    Guarded True (self.setChunks offset count remaining) := by
  induction count generalizing offset remaining with
  | zero => exact .ite (.done _) (guarded_sstore _ _ _)
  | succ count ih => exact (guarded_sstore _ _ _).bind fun _ => ih (offset + 1) (remaining.drop 32)

/-- The write of the string clears, and then writes with no test. -/
theorem setBytes_guarded (b : Bytes) : Guarded True (self.setBytes b) :=
  self.clearBytes_guarded.bind fun _ => (guarded_sstore _ _ _).bind fun _ =>
    self.setChunks_guarded 1 _ b

end Storage

namespace AddressSet
variable (self : AddressSet)

/-- The test for a member writes nothing. -/
theorem isMember_guarded (addr : Address) : Guarded free (self.isMember addr) :=
  (guarded_storage _ _).bind fun _ => .done _

/-- The first member is read only. -/
theorem getAnyMember_guarded : Guarded free self.getAnyMember :=
  self.sizeCell.get_slotwise.guarded.bind fun _ =>
    .ite (.done _) ((guarded_storage _ _).bind fun _ => .ite (.done _) (.done _))

/-- The loop over the members writes nothing. -/
theorem membersFrom_guarded (i count : Nat) : Guarded free (self.membersFrom i count) := by
  induction count generalizing i with
  | zero => exact .done []
  | succ count ih => exact (guarded_storage _ _).bind fun _ => (ih (i + 1)).bind fun _ => .done _

/-- The list of the members is read only. -/
theorem allMembers_guarded (max : U64) : Guarded free (self.allMembers max) :=
  self.sizeCell.get_slotwise.guarded.bind fun _ => self.membersFrom_guarded 0 _

/-! The writes to the list and to the mapping do not test the burner. -/

/-- The clearing of a set writes the list and the mapping with no test. -/
theorem clear_guarded : Guarded True self.clear := by
  refine self.sizeCell.get_slotwise.guarded.bind fun n => .ite (.done _) ?_
  refine (Guarded.forRange ?_ 1 _).bind fun _ => (self.sizeCell.set_slotwise 0).guarded
  -- a round reads a member, and clears its mapping and its place
  intro i
  exact (guarded_storage _ _).bind fun member =>
    (guarded_sstore _ _ _).bind fun _ => guarded_sstore _ _ _

/-- The clearing of the list writes with no test. -/
theorem clearList_guarded : Guarded True self.clearList := by
  refine self.sizeCell.get_slotwise.guarded.bind fun n => .ite (.done _) ?_
  refine (Guarded.forRange ?_ 1 _).bind fun _ => (self.sizeCell.set_slotwise 0).guarded
  intro i
  exact guarded_sstore _ _ _

/-- The addition writes the mapping and the list with no test, and the size with one. -/
theorem add_guarded (addr : Address) : Guarded True (self.add addr) := by
  refine (self.isMember_guarded addr).bind fun member => .ite (.done _) ?_
  refine self.sizeCell.get_slotwise.guarded.bind fun sz => ?_
  refine (Slotwise.checkedAdd _ _).guarded.bind fun place => ?_
  -- the mapping and the list slot
  refine (guarded_sstore _ _ _).bind fun _ => (guarded_sstore _ _ _).bind fun _ => ?_
  exact self.sizeCell.increment_slotwise.guarded.bind fun _ => .done _

/-- The repair of a member writes the mapping with no test, before the addition. -/
theorem rectifyMapping_guarded (addr : Address) : Guarded True (self.rectifyMapping addr) := by
  refine (self.isMember_guarded addr).bind fun member => .ite (.panic _) ?_
  refine (self.byAddress.getUint64ByKey_guarded _).bind fun slot => ?_
  refine (guarded_storage _ _).bind fun entry => ?_
  refine self.sizeCell.get_slotwise.guarded.bind fun n => .ite (.panic _) ?_
  exact (guarded_sstore _ _ _).bind fun _ => self.add_guarded addr

/-- The removal writes the mapping and the list with no test, and the size with one. -/
theorem remove_guarded (addr : Address) (arbosVersion : U64) :
    Guarded True (self.remove addr arbosVersion) := by
  refine (self.byAddress.getUint64ByKey_guarded _).bind fun slot => .ite (.done _) ?_
  refine (guarded_sstore _ _ _).bind fun _ => self.sizeCell.get_slotwise.guarded.bind fun sz => ?_
  -- the end of the removal, which both branches share
  have hrest : ∀ u : Unit, Guarded True (do
      self.backingStorage.writeSlot sz 0
      let _ ← self.sizeCell.decrement
      pure ()) := fun _ =>
    (guarded_sstore _ _ _).bind fun _ =>
      self.sizeCell.decrement_slotwise.guarded.bind fun _ => .done _
  refine .ite ?_ (hrest ())
  refine (guarded_storage _ _).bind fun atSize => (guarded_sstore _ _ _).bind fun _ => ?_
  exact .ite ((guarded_sstore _ _ _).bind hrest) (hrest ())

end AddressSet

namespace Queue
variable (self : Queue)

/-- The loop over the elements of a queue writes nothing. -/
theorem forEachFrom_guarded {γ : Type}
    (closure : γ → U64 → StorageValue → Except DbError Bool × γ) (offset : U64)
    (index count : Nat) (g : γ) :
    Guarded free (self.forEachFrom closure offset index count g) := by
  induction count generalizing index g with
  | zero => exact .done g
  | succ count ih =>
      refine (Slotwise.checkedAdd _ _).guarded.bind fun _ =>
        (guarded_storage _ _).bind fun entry => ?_
      rcases closure g (BitVec.ofNat 64 index) entry with ⟨_ | b, g'⟩
      · exact .fail _
      · cases b with
        | true => exact .done g'
        | false => exact ih (index + 1) g'

/-- Every operation of a queue writes through slots, which test the burner. -/
theorem program_guarded (op : QueueOp) : Guarded free (self.program op) := by
  cases op with
  | put val => exact ((self.put_slotwise val).bind fun _ => .done _).guarded
  | get =>
      refine Guarded.bind (self.isEmpty_slotwise.guarded.bind fun _ => .ite (.done _) ?_)
        fun _ => .done _
      exact self.nextGetOffset.increment_slotwise.guarded.bind fun _ =>
        (Slotwise.checkedSub _ _).guarded.bind fun _ => (self.storage.swap_guarded _ _).bind
          fun _ => .done _
  | peek =>
      refine Guarded.bind (self.isEmpty_slotwise.guarded.bind fun _ => .ite (.done _) ?_)
        fun _ => .done _
      exact self.nextGetOffset.get_slotwise.guarded.bind fun _ => (guarded_storage _ _).bind
        fun _ => .done _
  | shift => exact (self.shift_slotwise.bind fun _ => .done _).guarded
  | size => exact (self.size_slotwise.bind fun _ => .done _).guarded
  | isEmpty => exact (self.isEmpty_slotwise.bind fun _ => .done _).guarded
  | forEach answer =>
      refine Guarded.bind (self.size_slotwise.guarded.bind ?_) fun _ => .done _
      intro _
      exact self.nextGetOffset.get_slotwise.guarded.bind fun _ => self.forEachFrom_guarded _ _ 0 _ _

end Queue

namespace BatchPostersTable
variable (self : BatchPostersTable)

/-- The table tests the burner before it writes to the set of the posters. -/
theorem addPoster_guarded (posterAddress payTo : Address) :
    Guarded free (self.addPoster posterAddress payTo) :=
  ((self.posterAddrs.isMember_guarded _).mapErr _).bind fun _ => .ite (.fail _) <|
    StorageSlot.set_bind_guarded _ _ _ fun _ => ((StorageSlot.set_guarded _ _).mapErr _).bind
      fun _ => ((self.posterAddrs.add_guarded _).mapErr _).bind fun _ => .done _

/-- Opening a poster may add it, and the addition tests the burner first. -/
theorem openPoster_guarded (poster : Address) (create : Bool) :
    Guarded free (self.openPoster poster create) :=
  ((self.posterAddrs.isMember_guarded _).mapErr _).bind fun _ =>
    .ite (.ite (.fail _) (self.addPoster_guarded poster poster)) (.done _)

/-- The loop over the posters adds none of them. -/
theorem fundsDueItems_guarded (posters : List Address) :
    Guarded free (self.fundsDueItems posters) := by
  induction posters with
  | nil => exact .done []
  | cons poster posters ih =>
      exact (self.openPoster_guarded poster false).bind fun state =>
        (((Slotwise.get _).bind fun _ => .done _).mapErr _).guarded.bind fun due =>
          ih.bind fun rest => .ite (.done _) (.done _)

end BatchPostersTable

/-- Every operation of the table is guarded. The set of the posters is written after a slot of
the record, which tests the burner. -/
theorem PosterOp.perform_guarded (sto : Storage) (op : PosterOp) :
    Guarded free (op.perform sto) := by
  cases op with
  | initializeTable => exact (BatchPostersTable.initializeTable_slotwise sto).guarded.reply
  | openPoster poster create => exact (BatchPostersTable.openPoster_guarded _ _ _).reply
  | containsPoster poster => exact (AddressSet.isMember_guarded _ _).reply
  | addPoster poster payee => exact (BatchPostersTable.addPoster_guarded _ _ _).reply
  | allPosters max => exact (AddressSet.allMembers_guarded _ _).reply
  | getFundsDueList =>
      exact (((AddressSet.allMembers_guarded _ _).mapErr _).bind
        (BatchPostersTable.fundsDueItems_guarded _)).reply
  | totalFundsDue | fundsDue _ | payTo _ =>
      exact ((Slotwise.get _).bind fun _ => .done _).guarded.reply
  | setFundsDue poster val => exact (BatchPosterState.setFundsDue_slotwise _ val).guarded.reply
  | setPayTo poster addr => exact (StorageSlot.set_guarded _ _).reply

/-- All operations only panic when the burner refuses writes. -/
theorem Operation.perform_guarded (op : Operation) : Guarded True op.perform := by
  cases op with
  | cell op => exact op.perform_slotwise.guarded
  | storage self op =>
      cases op with
      | readSlot _ | getByKey _ | getByUint64 _ => exact (guarded_storage _ _).reply
      | writeSlot _ _ | setByKey _ _ | clearByKey _ => exact (guarded_sstore _ _ _).reply
      | getUint64ByKey _ | getUint64ByUint64 _ => exact (self.getUint64ByKey_guarded _).reply
      | set _ _ | setUint64 _ _ | setByUint64 _ _ | setUint64ByUint64 _ _ | setUint32 _ _
      | setByUint32 _ _ | clear _ | clearByUint64 _ => exact (self.set_guarded _ _).reply
      | swap key v => exact (self.swap_guarded key v).reply
      | getBytesSize => exact self.getBytesSize_guarded.reply
      | getBytes => exact self.getBytes_guarded.reply
      | clearBytes => exact self.clearBytes_guarded.reply
      | setBytes b => exact (self.setBytes_guarded b).reply
  | bytes self op =>
      cases op with
      | size => exact self.storage.getBytesSize_guarded.reply
      | get => exact self.storage.getBytes_guarded.reply
      | clear => exact self.storage.clearBytes_guarded.reply
      | set b => exact (self.storage.setBytes_guarded b).reply
  | addressSet sto op =>
      cases op with
      | initializeSet => exact (sto.set_guarded _ _).reply
      | size => exact (StorageBackedUint64.get_slotwise _).guarded.reply
      | isMember addr => exact (AddressSet.isMember_guarded _ addr).reply
      | getAnyMember => exact (AddressSet.getAnyMember_guarded _).reply
      | clear => exact (AddressSet.clear_guarded _).reply
      | allMembers max => exact (AddressSet.allMembers_guarded _ max).reply
      | clearList => exact (AddressSet.clearList_guarded _).reply
      | rectifyMapping addr => exact (AddressSet.rectifyMapping_guarded _ addr).reply
      | add addr => exact (AddressSet.add_guarded _ addr).reply
      | remove addr version => exact (AddressSet.remove_guarded _ addr version).reply
  | queueInitialize sto => exact (Queue.initializeQueue_slotwise sto).guarded.reply
  | queue sto op => exact (Queue.program_guarded _ op).reply
  | vector sto op => exact (op.perform_slotwise sto).guarded
  | posters sto op => exact op.perform_guarded sto

end

/-! ### Unguarded writes -/

section
variable {σ B : Type} [Context σ] [Burner B] {m : Machine σ B}

/-- What a program is made to reply has no part in its writes. -/
theorem avoids_reply {ε ε' α β : Type} {p : Exec ε α} {err : ε → ε'} {result : α → β} :
    Avoids IsWrite Machine.handle (Exec.reply p err result) m
      ↔ Avoids IsWrite Machine.handle p m := by
  rw [Avoids, Exec.trace_reply, Avoids]

/-- Under a read-only burner a guarded program writes nothing, whatever it is made to reply. -/
theorem avoids_of_guarded (hro : Burner.IsReadOnly m.burner) {ε ε' α β : Type} {p : Exec ε α}
    {err : ε → ε'} {result : α → β} (hp : Guarded False p) :
    Avoids IsWrite Machine.handle (p.reply err result) m ↔ True :=
  iff_of_true (hp.reply.avoids_write hro) trivial

/-- A write of the journal is a write. -/
theorem not_avoids_sstore_bind {α : Type} {a : Address} {k v : U256} {q : Unit → Exec DbError α} :
    ¬Avoids IsWrite Machine.handle (Exec.sstore a k v >>= q) m := fun h =>
  (avoids_call.mp h.bind_left).1 trivial

/-- An empty list of writes avoids them, and a program that starts with one does not. -/
theorem avoids_ite_iff {c : Prop} [Decidable c] {α : Type} {p q : Exec DbError α}
    (hp : Avoids IsWrite Machine.handle p m) (hq : ¬Avoids IsWrite Machine.handle q m) :
    Avoids IsWrite Machine.handle (if c then p else q) m ↔ c := by
  split
  · exact iff_of_true hp ‹_›
  · exact iff_of_false hq ‹_›

/-- A program that has ended reaches no write. -/
theorem avoids_done {ε α : Type} {a : α} :
    Avoids IsWrite Machine.handle (.done a : Exec ε α) m := fun _ he => absurd he List.not_mem_nil

/-- A program that has panicked reaches no write. -/
theorem avoids_panic {ε α : Type} {msg : String} :
    Avoids IsWrite Machine.handle (.panic msg : Exec ε α) m :=
  fun _ he => absurd he List.not_mem_nil

/-- A program that reads a slot first avoids writes when the rest does. -/
theorem avoids_storage_bind {α : Type} {a : Address} {k : StorageKey}
    {q : StorageValue → Exec DbError α} :
    Avoids IsWrite Machine.handle (Exec.storage a k >>= q) m
      ↔ Avoids IsWrite Machine.handle (q (m.view a k)) m := by
  refine avoids_bind_iff ?_ (Machine.exec_storage _ a k m)
  refine avoids_call.mpr ⟨id, ?_⟩
  cases (Machine.handle (.storage a k) m).1 with
  | ok v => exact avoids_done
  | error e => exact fun _ he => absurd he List.not_mem_nil

variable [Keccak] (hro : Burner.IsReadOnly m.burner)
include hro

/-- A program that reads a number first avoids writes when the rest does. -/
theorem avoids_uint64_bind {α : Type} {cell : StorageBackedUint64} {q : U64 → Exec DbError α} :
    Avoids IsWrite Machine.handle (cell.get >>= q) m
      ↔ ∀ n ∈ m.uint64 cell, Avoids IsWrite Machine.handle (q n) m.charged := by
  have hget : Avoids IsWrite Machine.handle cell.get m := cell.get_slotwise.guarded.avoids_write hro
  cases hn : m.uint64 cell with
  | none =>
      refine iff_of_true (avoids_bind hget ?_) (by simp)
      intro n m' hrun
      rw [Machine.exec_uint64_get_panic _ hn] at hrun
      cases hrun
  | some n =>
      rw [avoids_bind_iff hget (Machine.exec_uint64_get _ hn)]
      simp

/-- After the read of a key as a `u64`, the rest decides, and only when the word is a `u64`. -/
theorem avoids_getUint64ByKey_bind {α : Type} {self : Storage} {key : StorageKey}
    {q : U64 → Exec DbError α} :
    Avoids IsWrite Machine.handle (self.getUint64ByKey key >>= q) m
      ↔ ∀ n ∈ U64.tryFrom (m.view self.account (self.mapAddressByKey key)),
          Avoids IsWrite Machine.handle (q n) m := by
  have hget : Avoids IsWrite Machine.handle (self.getUint64ByKey key) m :=
    (self.getUint64ByKey_guarded key).avoids_write hro
  cases hn : U64.tryFrom (m.view self.account (self.mapAddressByKey key)) with
  | none =>
      refine iff_of_true (avoids_bind hget ?_) (by simp)
      intro n m' hrun
      rw [Storage.getUint64ByKey, exec_bind_ok (Machine.exec_getByKey _ self key m), hn] at hrun
      cases hrun
  | some n =>
      rw [avoids_bind_iff hget (Machine.exec_getUint64ByKey _ self hn)]
      simp

/-- After the test for a member, the rest decides. -/
theorem avoids_isMember_bind {α : Type} {self : AddressSet} {addr : Address}
    {q : Bool → Exec DbError α} :
    Avoids IsWrite Machine.handle (self.isMember addr >>= q) m
      ↔ Avoids IsWrite Machine.handle
          (q (m.view self.byAddress.account
            (self.byAddress.mapAddressByKey (addrToKey addr)) != 0)) m :=
  avoids_bind_iff ((self.isMember_guarded addr).avoids_write hro)
    (exec_bind_ok (Machine.exec_getByKey _ self.byAddress _ m) _)

/-- A byte string is cleared without a test, unless its length is not a number. -/
theorem Storage.clearBytes_avoids_iff (self : Storage) :
    Avoids IsWrite Machine.handle self.clearBytes m
      ↔ U64.tryFrom (m.view self.account (self.mapAddress 0)) = none := by
  have hsize : Avoids IsWrite Machine.handle self.getBytesSize m :=
    self.getBytesSize_guarded.avoids_write hro
  have hrun := Machine.exec_getBytesSize Burner.readOnly self m
  cases hn : U64.tryFrom (m.view self.account (self.mapAddress 0)) with
  | none =>
      refine iff_of_true (avoids_bind hsize ?_) rfl
      intro n m' h
      rw [hrun, hn] at h
      cases h
  | some n =>
      rw [hn] at hrun
      refine iff_of_false ?_ (by simp)
      intro h
      have hbody := (avoids_bind_iff hsize hrun).mp h
      -- either a chunk is cleared or the length itself
      cases hcount : (n.toNat + 31) / 32 with
      | zero =>
          rw [hcount] at hbody
          exact (avoids_call.mp hbody).1 trivial
      | succ count =>
          rw [hcount] at hbody
          exact not_avoids_sstore_bind hbody.bind_left

/-- A byte string is replaced without a test, unless its old length is not a number. -/
theorem Storage.setBytes_avoids_iff (self : Storage) (b : Bytes) :
    Avoids IsWrite Machine.handle (self.setBytes b) m
      ↔ U64.tryFrom (m.view self.account (self.mapAddress 0)) = none := by
  constructor
  · intro h
    exact (self.clearBytes_avoids_iff hro).mp h.bind_left
  · intro hn
    refine avoids_bind ((self.clearBytes_avoids_iff hro).mpr hn) ?_
    intro _ m' h
    have hrun := Machine.exec_getBytesSize Burner.readOnly self m
    rw [hn] at hrun
    rw [clearBytes, exec_bind_panic hrun] at h
    cases h

namespace AddressSet
variable (self : AddressSet)

/-- An operation that reads the size, ends when it is zero, and else runs a loop whose
rounds write without a test. -/
theorem loop_avoids_iff {body : Nat → Exec DbError Unit} {last : Exec DbError Unit}
    (hbody : ∀ i m, ¬Avoids IsWrite Machine.handle (body i) (m : Machine σ B)) :
    Avoids IsWrite Machine.handle (self.sizeCell.get >>= fun n =>
        if n = 0 then pure () else Prog.forRange body 1 n.toNat >>= fun _ => last) m
      ↔ ∀ n ∈ m.uint64 self.sizeCell, n = 0 := by
  refine (avoids_uint64_bind hro).trans (forall₂_congr ?_)
  intro n _
  by_cases h0 : n = 0
  · rw [if_pos h0]
    exact iff_of_true avoids_done h0
  · rw [if_neg h0]
    -- the loop has a first round
    obtain ⟨count, hcount⟩ : ∃ count, n.toNat = count + 1 :=
      Nat.exists_eq_succ_of_ne_zero fun h => h0 (BitVec.eq_of_toNat_eq h)
    rw [hcount]
    exact iff_of_false (fun h => hbody 1 _ h.bind_left.bind_left) h0

/-- The clearing of a set writes nothing exactly when the set is empty or its size is no `u64`. -/
theorem clear_avoids_iff :
    Avoids IsWrite Machine.handle self.clear m ↔ ∀ n ∈ m.uint64 self.sizeCell, n = 0 :=
  loop_avoids_iff hro self fun _ _ h => not_avoids_sstore_bind (avoids_storage_bind.mp h)

/-- The clearing of the list writes nothing in the same states as that of the set. -/
theorem clearList_avoids_iff :
    Avoids IsWrite Machine.handle self.clearList m ↔ ∀ n ∈ m.uint64 self.sizeCell, n = 0 :=
  loop_avoids_iff hro self fun _ _ h => (avoids_call.mp h).1 trivial

/-- The word in the mapping of an address. -/
def indexWord (m : Machine σ B) (self : AddressSet) (addr : Address) : StorageValue :=
  m.view self.byAddress.account (self.byAddress.mapAddressByKey (addrToKey addr))

/-- `add` writes the mapping and the list without a test, unless the address is a member
or there is no next slot. -/
theorem add_avoids_iff (addr : Address) :
    Avoids IsWrite Machine.handle (self.add addr) m
      ↔ indexWord m self addr ≠ 0 ∨ ∀ n ∈ m.uint64 self.sizeCell, n = BitVec.allOnes 64 := by
  refine (avoids_isMember_bind hro).trans ?_
  by_cases hindex : indexWord m self addr = 0
  · rw [if_neg (by simpa [indexWord] using hindex), or_iff_right (by simpa using hindex),
      avoids_uint64_bind hro]
    refine forall₂_congr ?_
    intro n _
    by_cases hmax : n = BitVec.allOnes 64
    · rw [hmax, checkedAdd, if_neg (by decide)]
      exact iff_of_true avoids_panic rfl
    · rw [checkedAdd, if_pos (U64.toNat_add_one_lt hmax)]
      exact iff_of_false not_avoids_sstore_bind hmax
  · rw [if_pos (by simpa [indexWord] using hindex)]
    exact iff_of_true avoids_done (.inl hindex)

/-- `remove` clears the mapping without a test, when it holds a slot. -/
theorem remove_avoids_iff (addr : Address) (arbosVersion : U64) :
    Avoids IsWrite Machine.handle (self.remove addr arbosVersion) m
      ↔ ∀ slot ∈ U64.tryFrom (indexWord m self addr), slot = 0 := by
  refine (avoids_getUint64ByKey_bind hro).trans (forall₂_congr ?_)
  intro slot _
  exact avoids_ite_iff avoids_done not_avoids_sstore_bind

/-- `rectifyMapping` clears the mapping without a test, when it reaches the repair. -/
theorem rectifyMapping_avoids_iff (addr : Address) :
    Avoids IsWrite Machine.handle (self.rectifyMapping addr) m
      ↔ indexWord m self addr = 0
        ∨ ∀ slot ∈ U64.tryFrom (indexWord m self addr), ∀ n ∈ m.uint64 self.sizeCell,
          m.view self.backingStorage.account (self.backingStorage.mapAddress slot)
              = addrToValue addr ∧ slot ≤ n := by
  refine (avoids_isMember_bind hro).trans ?_
  by_cases hindex : indexWord m self addr = 0
  · rw [if_pos (by simpa [indexWord] using hindex)]
    exact iff_of_true avoids_panic (.inl hindex)
  · rw [if_neg (by simpa [indexWord] using hindex), or_iff_right hindex,
      avoids_getUint64ByKey_bind hro]
    refine forall₂_congr fun slot _ => avoids_storage_bind.trans ?_
    refine (avoids_uint64_bind hro).trans (forall₂_congr ?_)
    intro n _
    exact avoids_ite_iff avoids_panic not_avoids_sstore_bind

end AddressSet

end

/-! ### All operations -/

section
variable [Keccak] {σ B : Type} [Context σ] [Burner B]

/-- The operations on a space that reach no unguarded write. -/
def StorageOp.WriteProtected (m : Machine σ B) (self : Storage) : StorageOp → Prop
  | writeSlot _ _ | setByKey _ _ | clearByKey _ => False
  | clearBytes | setBytes _ => U64.tryFrom (m.view self.account (self.mapAddress 0)) = none
  | _ => True

/-- The operations on a byte string that reach no unguarded write. -/
def BytesOp.WriteProtected (m : Machine σ B) (self : StorageBackedBytes) : BytesOp → Prop
  | clear | set _ =>
      U64.tryFrom (m.view self.storage.account (self.storage.mapAddress 0)) = none
  | size | get => True

/-- The operations on a set that reach no unguarded write. -/
def AddressSetOp.WriteProtected (m : Machine σ B) (self : AddressSet) : AddressSetOp → Prop
  | clear | clearList => ∀ n ∈ m.uint64 self.sizeCell, n = 0
  | add addr =>
      self.indexWord m addr ≠ 0 ∨ ∀ n ∈ m.uint64 self.sizeCell, n = BitVec.allOnes 64
  | remove addr _ => ∀ slot ∈ U64.tryFrom (self.indexWord m addr), slot = 0
  | rectifyMapping addr =>
      self.indexWord m addr = 0
        ∨ ∀ slot ∈ U64.tryFrom (self.indexWord m addr), ∀ n ∈ m.uint64 self.sizeCell,
          m.view self.backingStorage.account (self.backingStorage.mapAddress slot)
              = addrToValue addr ∧ slot ≤ n
  | initializeSet | size | isMember _ | getAnyMember | allMembers _ => True

/-- The operations that reach no unguarded write from the machine. -/
def Operation.WriteProtected (m : Machine σ B) : Operation → Prop
  | cell _ | queueInitialize _ | queue _ _ | vector _ _ | posters _ _ => True
  | storage self op => op.WriteProtected m self
  | bytes self op => op.WriteProtected m self
  | addressSet sto op => op.WriteProtected m (AddressSet.new sto)

/-- The operation writes no slot and leaves the context alone, and it panics when it
would write a slot under a burner that accepts writes. -/
structure Operation.Harmless (op : Operation) (m : Machine σ B) : Prop where
  avoids_write : Avoids IsWrite Machine.handle op.perform m
  context_eq : (op.perform.exec Machine.handle m).2.context = m.context
  isPanic : ¬Avoids IsWrite Machine.handleWritable op.perform m →
    (op.perform.exec Machine.handle m).1.IsPanic

variable {m : Machine σ B} (hro : Burner.IsReadOnly m.burner)
include hro

/-- The operations of a space that reach no unguarded write. -/
theorem StorageOp.avoids_iff (self : Storage) (op : StorageOp) :
    Avoids IsWrite Machine.handle (op.perform self) m ↔ op.WriteProtected m self := by
  cases op with
  | readSlot _ | getByKey _ | getByUint64 _ => exact avoids_of_guarded hro (guarded_storage _ _)
  | writeSlot _ _ | setByKey _ _ | clearByKey _ =>
      refine iff_of_false ?_ not_false
      intro h
      exact (avoids_call.mp (avoids_reply.mp h)).1 trivial
  | getUint64ByKey _ | getUint64ByUint64 _ =>
      exact avoids_of_guarded hro (self.getUint64ByKey_guarded _)
  | set _ _ | setUint64 _ _ | setByUint64 _ _ | setUint64ByUint64 _ _ | setUint32 _ _
  | setByUint32 _ _ | clear _ | clearByUint64 _ =>
      exact avoids_of_guarded hro (self.set_guarded _ _)
  | swap key v => exact avoids_of_guarded hro (self.swap_guarded key v)
  | getBytesSize => exact avoids_of_guarded hro self.getBytesSize_guarded
  | getBytes => exact avoids_of_guarded hro self.getBytes_guarded
  | clearBytes => exact avoids_reply.trans (self.clearBytes_avoids_iff hro)
  | setBytes b => exact avoids_reply.trans (self.setBytes_avoids_iff hro b)

/-- The operations of a byte string that reach no unguarded write. -/
theorem BytesOp.avoids_iff (self : StorageBackedBytes) (op : BytesOp) :
    Avoids IsWrite Machine.handle (op.perform self) m ↔ op.WriteProtected m self := by
  cases op with
  | size => exact avoids_of_guarded hro self.storage.getBytesSize_guarded
  | get => exact avoids_of_guarded hro self.storage.getBytes_guarded
  | clear => exact avoids_reply.trans (self.storage.clearBytes_avoids_iff hro)
  | set b => exact avoids_reply.trans (self.storage.setBytes_avoids_iff hro b)

/-- The operations of a set of addresses that reach no unguarded write. -/
theorem AddressSetOp.avoids_iff (sto : Storage) (op : AddressSetOp) :
    Avoids IsWrite Machine.handle (op.perform sto) m
      ↔ op.WriteProtected m (AddressSet.new sto) := by
  cases op with
  | initializeSet => exact avoids_of_guarded hro (sto.set_guarded _ _)
  | size => exact avoids_of_guarded hro (StorageBackedUint64.get_slotwise _).guarded
  | isMember addr => exact avoids_of_guarded hro (AddressSet.isMember_guarded _ addr)
  | getAnyMember => exact avoids_of_guarded hro (AddressSet.getAnyMember_guarded _)
  | allMembers max => exact avoids_of_guarded hro (AddressSet.allMembers_guarded _ max)
  | clear => exact avoids_reply.trans (AddressSet.clear_avoids_iff hro _)
  | clearList => exact avoids_reply.trans (AddressSet.clearList_avoids_iff hro _)
  | rectifyMapping addr =>
      exact avoids_reply.trans (AddressSet.rectifyMapping_avoids_iff hro _ addr)
  | add addr => exact avoids_reply.trans (AddressSet.add_avoids_iff hro _ addr)
  | remove addr version =>
      exact avoids_reply.trans (AddressSet.remove_avoids_iff hro _ addr version)

/-- The operations that reach no unguarded write, for all kinds of them. -/
theorem Operation.avoids_iff (op : Operation) :
    Avoids IsWrite Machine.handle op.perform m ↔ op.WriteProtected m := by
  cases op with
  | cell op => exact iff_of_true (op.perform_slotwise.guarded.avoids_write hro) trivial
  | storage self op => exact op.avoids_iff hro self
  | bytes self op => exact op.avoids_iff hro self
  | addressSet sto op => exact op.avoids_iff hro sto
  | queueInitialize sto => exact avoids_of_guarded hro (Queue.initializeQueue_slotwise sto).guarded
  | queue sto op => exact avoids_of_guarded hro (Queue.program_guarded _ op)
  | vector sto op => exact iff_of_true ((op.perform_slotwise sto).guarded.avoids_write hro) trivial
  | posters sto op => exact iff_of_true ((op.perform_guarded sto).avoids_write hro) trivial

omit hro in
/-- Under a read-only burner an operation lets no state change exactly when it is one
that reaches no unguarded write on the stored words. -/
theorem Operation.harmless_iff (op : Operation) (m : Machine σ B)
    (hro : Burner.IsReadOnly m.burner) : op.Harmless m ↔ op.WriteProtected m := by
  constructor
  · intro h
    exact (op.avoids_iff hro).mp h.avoids_write
  · intro h
    have havoid := (op.avoids_iff hro).mpr h
    exact ⟨havoid, op.perform_guarded.context_eq hro havoid,
      op.perform_guarded.isPanic hro havoid⟩

end

section
attribute [local instance] sampleHash

/-- Under a read-only system burner an increment writes nothing and panics. -/
theorem Operation.harmless_iff_sample :
    (Operation.cell (.uint64Increment (sampleRoot.openStorageBackedUint64 0))).Harmless
      (Machine.blank true) :=
  (Operation.harmless_iff _ _ SystemBurner.isReadOnly_new).mpr trivial

/-- A member is added to the empty set of the sample space under a read-only system
burner. The mapping and the list are written, and then the run panics. -/
theorem Operation.not_harmless_sample :
    let op := Operation.addressSet sampleRoot (.add 7)
    let m := Machine.blank true
    Burner.IsReadOnly m.burner ∧ ¬op.Harmless m
      ∧ (op.perform.exec Machine.handle m).1
          = .panic "read-only burner attempted to mutate state"
      ∧ (op.perform.exec Machine.handle m).2.context.journal 0xA4 (sampleRoot.mapAddress 1)
          = some (addrToValue 7) := by
  intro op m
  have hjournal : (op.perform.exec Machine.handle m).2.context.journal 0xA4
      (sampleRoot.mapAddress 1) = some (addrToValue 7) := by
    decide +kernel
  refine ⟨SystemBurner.isReadOnly_new, ?_, by decide +kernel, hjournal⟩
  intro h
  rw [h.context_eq] at hjournal
  cases hjournal

end

end ArbReth
