import ArbReth.Program.Confined
import ArbReth.Proofs.Storage.Isolation
import ArbReth.Proofs.Storage.Operation
import ArbReth.Reply

/-!
# `ArbReth.Proofs.Storage.Footprint`: the slots that an operation reaches

A `Footprint` is a set of slots, and whether balances are read and moved. `KeepsTo F p`
says that the program `p` reaches the slots of `F` only, whatever the answers of the
context are, and that it ends with the first error of the database. `DbErrors` tells how
the errors of the database are among those of the program.

Each accessor, and each operation of the data structures, keeps to the slots of its own
space. `Operation.region` is the footprint of a public operation: the slot of a cell, the
slots of a space, or those of a space and of all spaces below it.
`Operation.perform_reaches` proves it of all public operations, and
`Operation.stays_in_region` is what follows of their runs with any handler, also one whose
database fails.

## Two footprints of a space

`Footprint.Has F sto` asks for the slots of all 256-bit keys of the space, and
`Footprint.HasSlots F sto` for those of the 64-bit offsets only. Most operations work on
offsets. The mapping of a set is the exception: `clear` and `remove` clear the entry of
whatever word the list holds, and any word is a key.

## Errors

`Confined` counts an error as one of the database or as the program's own. The operations
of the storage have no errors of their own, and the table has the semantic ones. The loop
over a queue calls a closure, whose errors have the type of the errors of the database, so
there they count as the program's own (`Queue.forEachFrom_confined`). `Reaches` is the
common form, in which any error of the program's own is allowed.
-/

set_option autoImplicit false

namespace ArbReth

open ArbReth.Program

/-- The error of the database in an answer. -/
def failure : (c : Cmd) → Resp c → Option DbError
  | .storage _ _, .error e => some e
  | .sstore _ _ _, .error e => some e
  | .loadBalance _, .error e => some e
  | .transfer _ _ _, .error e => some e
  | _, _ => none

/-- The slots that are reached, and whether balances are. -/
structure Footprint where
  slots : Address → StorageKey → Prop
  balances : Prop

/-- The slots of a layout. -/
def Layout.footprint {K : Type} (L : Layout K) (balances : Prop) : Footprint where
  slots account slot := account = L.account ∧ ∃ k, slot = L.slot k
  balances := balances

/-- The command reaches a slot of the footprint, or a balance if it may, or neither. A charge
is one of storage gas. -/
def Footprint.Allows (F : Footprint) : Cmd → Prop
  | .storage account key => F.slots account key
  | .sstore account key _ => F.slots account key
  | .loadBalance _ => F.balances
  | .transfer _ _ _ => F.balances
  | .burn kind _ => kind = .storageAccess
  | _ => True

/-- The world `w'` differs from `w` in the slots of the footprint only, and in the balances
if it has them. -/
structure World.UnchangedOutside (F : Footprint) (w w' : World) : Prop where
  store : ∀ a k, ¬F.slots a k → w'.store a k = w.store a k
  balance : ¬F.balances → w'.balance = w.balance
  readOnly : w'.readOnly = w.readOnly

/-- No step changes nothing. -/
theorem World.UnchangedOutside.refl (F : Footprint) (w : World) : World.UnchangedOutside F w w :=
  ⟨fun _ _ _ => rfl, fun _ => rfl, rfl⟩

/-- No slot is in both footprints, and one of them at most has the balances. -/
structure Footprint.Disjoint (F G : Footprint) : Prop where
  slots : ∀ a k, F.slots a k → ¬G.slots a k
  balances : F.balances → ¬G.balances

/-- The worlds agree on the slots of the footprint, and on the balances if it has them. -/
structure World.AgreeOn (F : Footprint) (w w' : World) : Prop where
  store : ∀ a k, F.slots a k → w'.store a k = w.store a k
  balance : F.balances → w'.balance = w.balance
  readOnly : w'.readOnly = w.readOnly

/-- A change inside a footprint is not seen in a disjoint one. -/
theorem World.UnchangedOutside.agreeOn {F G : Footprint} {w w' : World}
    (h : World.UnchangedOutside F w w') (hdisjoint : F.Disjoint G) : World.AgreeOn G w w' where
  store a k hG := h.store a k fun hF => hdisjoint.slots a k hF hG
  balance hG := h.balance fun hF => hdisjoint.balances hF hG
  readOnly := h.readOnly

/-- The errors of a program: those of the database, and its own. -/
class DbErrors (ε : Type) where
  db : DbError → ε
  Own : ε → Prop

/-- A function of the storage has no errors but those of the database. -/
instance : DbErrors DbError where
  db e := e
  Own _ := False

/-- The errors of the table that are its own are the semantic ones. -/
instance : DbErrors OpenPosterResult where
  db := .db
  Own e := ∃ semantic, e = .semantic semantic

/-- The errors of a call that are its own are all but those of the database. -/
instance : DbErrors CallError where
  db := .db
  Own e := ∀ e', e ≠ .db e'

/-- The program reaches the slots of the footprint only, and ends with the first error of
the database. -/
abbrev KeepsTo {ε α : Type} [DbErrors ε] (F : Footprint) (p : Exec ε α) : Prop :=
  Confined F.Allows failure DbErrors.db DbErrors.Own p

/-- The same of the program of a public operation. It may fail with any error of its own: the
closure that goes over a queue has errors of the type of the database. -/
abbrev Reaches (F : Footprint) (p : Exec OpenPosterResult OpResult) : Prop :=
  Confined F.Allows failure OpenPosterResult.db (fun _ => True) p

/-! ### Commands -/

section
variable {F : Footprint} {ε ε' α : Type} [DbErrors ε] [DbErrors ε']

namespace Exec

/-- A command whose answer is passed on with `?`. -/
theorem call_keepsTo (c : Cmd) (answer : Resp c → Except DbError α) (hc : F.Allows c)
    (hanswer : ∀ r, failure c r = match answer r with | .error e => some e | .ok _ => none) :
    KeepsTo F (.call c fun r => ofResult (answer r)) := by
  refine .call c _ hc ?_ ?_
  · intro r e he
    rw [hanswer r] at he
    cases hr : answer r with
    | error e' =>
        rw [hr] at he
        cases he
        rfl
    | ok v =>
        rw [hr] at he
        cases he
  · intro r he
    rw [hanswer r] at he
    cases hr : answer r with
    | error e' =>
        rw [hr] at he
        cases he
    | ok v => exact .done v

/-- A read of a slot of the footprint. -/
theorem storage_keepsTo {a : Address} {k : StorageKey} (h : F.slots a k) :
    KeepsTo F (Exec.storage a k) :=
  call_keepsTo (.storage a k) (fun r => r) h fun r => by cases r <;> rfl

/-- A write of a slot of the footprint. -/
theorem sstore_keepsTo {a : Address} {k : StorageKey} (h : F.slots a k) (v : StorageValue) :
    KeepsTo F (Exec.sstore a k v) :=
  call_keepsTo (.sstore a k v) (fun r => r) h fun r => by cases r <;> rfl

/-- A balance is read, when the footprint has the balances. -/
theorem loadBalance_keepsTo (h : F.balances) (a : Address) : KeepsTo F (Exec.loadBalance a) :=
  call_keepsTo (.loadBalance a) (fun r => r) h fun r => by cases r <;> rfl

/-- A payment moves balances, when the footprint has them. A refusal is not an error of the
database. -/
theorem transfer_keepsTo (h : F.balances) (src dst : Address) (amount : U256) :
    KeepsTo F (Exec.transfer src dst amount) :=
  call_keepsTo (.transfer src dst amount) (fun r => r) h fun r => by cases r <;> rfl

/-- A charge of storage gas is allowed in every footprint. -/
theorem burn_keepsTo (amount : U64) : KeepsTo F (Exec.burn .storageAccess amount) :=
  .call (Cmd.burn .storageAccess amount) _ rfl (fun _ _ he => nomatch he) fun _ _ => .done _

/-- The burner may be asked whether it refuses writes. -/
theorem readOnly_keepsTo : KeepsTo F Exec.readOnly :=
  .call Cmd.readOnly _ trivial (fun _ _ he => nomatch he) fun _ _ => .done _

/-- The tracer may be told of a read. -/
theorem captureStorageGet_keepsTo (k : StorageKey) : KeepsTo F (Exec.captureStorageGet k) :=
  .call (Cmd.captureStorageGet k) _ trivial (fun _ _ he => nomatch he) fun _ _ => .done _

/-- And of a write. -/
theorem captureStorageSet_keepsTo (k : StorageKey) (v : StorageValue) :
    KeepsTo F (Exec.captureStorageSet k v) :=
  .call (Cmd.captureStorageSet k v) _ trivial (fun _ _ he => nomatch he) fun _ _ => .done _

end Exec

namespace KeepsTo

/-- The error of the database, put into the errors of another program. -/
theorem lift {p : Exec DbError α} (hp : KeepsTo F p) :
    KeepsTo F (p.mapErr (DbErrors.db : DbError → ε)) :=
  hp.mapErr _ fun _ he => he.elim

/-- A larger footprint. -/
theorem mono_footprint {G : Footprint} {p : Exec ε α} (hp : KeepsTo F p)
    (hslots : ∀ a k, F.slots a k → G.slots a k) (hbalances : F.balances → G.balances) :
    KeepsTo G p := by
  refine hp.mono ?_ fun _ he => he
  intro c hc
  cases c with
  | storage account key => exact hslots account key hc
  | sstore account key value => exact hslots account key hc
  | loadBalance account => exact hbalances hc
  | transfer src dst amount => exact hbalances hc
  | burn kind amount => exact hc
  | _ => trivial

/-- A handler that passes the errors of the database on. -/
theorem handleErr {p : Exec ε α} {f : ε → Exec ε' α} (hp : KeepsTo F p)
    (hdb : ∀ e, f (DbErrors.db e) = .fail (DbErrors.db e))
    (hown : ∀ e, DbErrors.Own e → KeepsTo F (f e)) : KeepsTo F (p.handleErr f) :=
  Confined.handleErr hp hdb hown

/-- The program of a call. Its errors of the database are those of the function. -/
theorem reply {p : Exec ε α} (hp : KeepsTo F p) (err : ε → CallError) (result : α → Reply)
    (hdb : ∀ e, err (DbErrors.db e) = .db e) (hown : ∀ e, DbErrors.Own e → ∀ e', err e ≠ .db e') :
    KeepsTo F (Exec.reply p err result) :=
  Confined.bind (hp.handleErr (fun e => congrArg Prog.fail (hdb e))
    fun e he => .fail (err e) (hown e he)) fun _ => .done _

/-- A function whose errors are those of the database, as a call. -/
theorem dbReply {p : Exec DbError α} (hp : KeepsTo F p) (result : α → Reply) :
    KeepsTo F (p.reply CallError.db result) :=
  hp.reply .db result (fun _ => rfl) fun _ he => he.elim

/-- An operation on the table, as a call. -/
theorem openReply {p : Exec OpenPosterResult α} (hp : KeepsTo F p) (result : α → Reply) :
    KeepsTo F (p.reply CallError.ofOpen result) :=
  hp.reply .ofOpen result (fun _ => rfl) fun _ he _ h => by
    obtain ⟨e, rfl⟩ := he
    cases h

/-- On a coherent store, a run changes the slots of the footprint only, and no balance when
it reaches none. -/
theorem unchanged {p : Exec ε α} (hp : KeepsTo F p) {w w' : World}
    (hw : World.UnchangedOutside F w w') : World.UnchangedOutside F w (World.run p w').2 := by
  refine Confined.preserves hp (I := World.UnchangedOutside F w) ?_ hw
  intro c w₁ hc hw₁
  cases c with
  | sstore account key value =>
      refine ⟨fun a k hout => ?_, hw₁.balance, hw₁.readOnly⟩
      have hne : ¬(a = account ∧ k = key) := by
        rintro ⟨rfl, rfl⟩
        exact hout hc
      show (w₁.write account key value).store a k = _
      rw [World.store_write, if_neg hne]
      exact hw₁.store a k hout
  | transfer src dst amount =>
      exact ⟨hw₁.store, fun hno => absurd hc hno, hw₁.readOnly⟩
  | _ => exact hw₁

/-- The bound on the errors that are the program's own may be dropped. -/
theorem anyOwn {p : Exec ε α} (hp : KeepsTo F p) :
    Confined F.Allows failure DbErrors.db (fun _ => True) p :=
  hp.mono (fun _ hc => hc) fun _ _ => trivial

/-- A checked sum issues no command: it returns or panics. -/
theorem checkedAdd {w : Nat} (x y : BitVec w) :
    KeepsTo F (checkedAdd x y : Exec ε (BitVec w)) := .ite (.done _) (.panic _)

/-- Nor does a checked difference. -/
theorem checkedSub {w : Nat} (x y : BitVec w) :
    KeepsTo F (checkedSub x y : Exec ε (BitVec w)) := .ite (.done _) (.panic _)

/-- Nor does a checked quotient. -/
theorem checkedDiv {w : Nat} (x y : BitVec w) :
    KeepsTo F (checkedDiv x y : Exec ε (BitVec w)) := .ite (.panic _) (.done _)

end KeepsTo

namespace Reaches

/-- An operation whose errors are those of the database. -/
theorem answer {Own : DbError → Prop} {p : Exec DbError α}
    (hp : Confined F.Allows failure DbErrors.db Own p) {result : α → OpResult} :
    Reaches F (p.answer result) :=
  (hp.mapErr OpenPosterResult.db fun _ _ => trivial).bind fun a => .done (result a)

/-- An operation on the table of the batch posters. -/
theorem table {p : Exec OpenPosterResult α} (hp : KeepsTo F p) {result : α → OpResult} :
    Reaches F (p.reply id result) :=
  (hp.mapErr id fun _ _ => trivial).bind fun a => .done (result a)

end Reaches

end

/-! ### Slots and cells -/

section
variable {F : Footprint}

namespace StorageSlot
variable {self : StorageSlot} (h : F.slots self.account self.slot)
include h

/-- A read charges the burner, tells the tracer, and reads the slot. -/
theorem get_keepsTo : KeepsTo F self.get := by
  refine (Exec.burn_keepsTo _).bind ?_
  intro _
  refine (Exec.captureStorageGet_keepsTo _).bind ?_
  intro _
  exact Exec.storage_keepsTo h

/-- A write asks the burner first, and panics when the burner refuses writes. -/
theorem set_keepsTo (v : StorageValue) : KeepsTo F (self.set v) := by
  refine Exec.readOnly_keepsTo.bind ?_
  intro refuses
  refine .ite (.panic _) ?_
  refine (Exec.burn_keepsTo _).bind ?_
  intro _
  refine (Exec.captureStorageSet_keepsTo _ _).bind ?_
  intro _
  exact Exec.sstore_keepsTo h v

/-- A number within a bound is read, or the read ends with a panic. -/
theorem getWord_keepsTo (bound : Nat) (msg : String) : KeepsTo F (self.getWord bound msg) := by
  refine (get_keepsTo h).bind ?_
  intro raw
  cases U64.tryFrom raw with
  | none => exact .panic msg
  | some v => exact .ite (.panic msg) (.done v)

end StorageSlot

namespace StorageBackedUint64
variable {self : StorageBackedUint64} (h : F.slots self.slot.account self.slot.slot)
include h

/-- The number of the cell is read from its slot. -/
theorem get_keepsTo : KeepsTo F self.get := StorageSlot.getWord_keepsTo h _ _

/-- And written to it. -/
theorem set_keepsTo (v : U64) : KeepsTo F (self.set v) := StorageSlot.set_keepsTo h _

/-- An increment reads the slot and writes it, or panics in between. -/
theorem increment_keepsTo : KeepsTo F self.increment := by
  refine (get_keepsTo h).bind ?_
  intro v
  refine .ite (.panic _) ?_
  refine (set_keepsTo h _).bind ?_
  intro _
  exact .done _

/-- So does a decrement. -/
theorem decrement_keepsTo : KeepsTo F self.decrement := by
  refine (get_keepsTo h).bind ?_
  intro v
  refine .ite (.panic _) ?_
  refine (set_keepsTo h _).bind ?_
  intro _
  exact .done _

end StorageBackedUint64

/-- A signed number is read from its slot. Every word is one. -/
theorem StorageBackedBigInt.get_keepsTo {self : StorageBackedBigInt}
    (h : F.slots self.slot.account self.slot.slot) : KeepsTo F self.get :=
  (StorageSlot.get_keepsTo h).bind fun _ => .done _

/-- An address is read from its slot. The high bytes of the word are dropped. -/
theorem StorageBackedAddress.get_keepsTo {self : StorageBackedAddress}
    (h : F.slots self.slot.account self.slot.slot) : KeepsTo F self.get :=
  (StorageSlot.get_keepsTo h).bind fun _ => .done _

/-- The slot of the cell that the operation is called on. -/
def CellOp.slot : CellOp → StorageSlot
  | slotGet slot | slotSet slot _ => slot
  | int64Get cell | int64Set cell _ => cell.slot
  | bipsGet cell | bipsSet cell _ => cell.cell.slot
  | ubipsGet cell | ubipsSet cell _ => cell.cell.slot
  | uint16Get cell | uint16Set cell _ => cell.slot
  | uint24Get cell | uint24Set cell _ => cell.slot
  | uint32Get cell | uint32Set cell _ | uint32Clear cell => cell.slot
  | uint64Get cell | uint64Set cell _ | uint64Clear cell | uint64Increment cell
  | uint64Decrement cell => cell.slot
  | bigUintGet cell | bigUintSetChecked cell _ | bigUintSetSaturating cell _ _ => cell.slot
  | bigIntGet cell | bigIntSetChecked cell _ | bigIntSetSaturating cell _ _
  | bigIntSetPreVersion7 cell _ | bigIntSetByUint cell _ => cell.slot
  | addressGet cell | addressSet cell _ => cell.slot
  | addressOrNilGet cell | addressOrNilSet cell _ => cell.slot

/-- An operation on a cell reaches the slot of the cell only. -/
theorem CellOp.perform_reaches {op : CellOp} (h : F.slots op.slot.account op.slot.slot) :
    Reaches F op.perform := by
  cases op with
  | slotGet _ | bigUintGet _ => exact .answer (StorageSlot.get_keepsTo h)
  | int64Get _ | bipsGet _ | ubipsGet _ | uint64Get _ =>
      exact .answer (StorageSlot.getWord_keepsTo h _ _)
  | uint16Get _ | uint24Get _ | uint32Get _ =>
      exact .answer ((StorageSlot.getWord_keepsTo h _ _).bind fun _ => .done _)
  | bigIntGet _ | addressGet _ => exact .answer ((StorageSlot.get_keepsTo h).bind fun _ => .done _)
  | addressOrNilGet _ =>
      exact .answer ((StorageSlot.get_keepsTo h).bind fun _ => .ite (.done _) (.done _))
  | uint64Increment _ => exact .answer (StorageBackedUint64.increment_keepsTo h)
  | uint64Decrement _ => exact .answer (StorageBackedUint64.decrement_keepsTo h)
  | slotSet _ _ | int64Set _ _ | bipsSet _ _ | ubipsSet _ _ | uint16Set _ _ | uint24Set _ _
  | uint32Set _ _ | uint32Clear _ | uint64Set _ _ | uint64Clear _ | bigUintSetChecked _ _
  | bigUintSetSaturating _ _ _ | bigIntSetChecked _ _ | bigIntSetSaturating _ _ _
  | bigIntSetPreVersion7 _ _ | bigIntSetByUint _ _ | addressSet _ _ =>
      exact .answer (StorageSlot.set_keepsTo h _)
  | addressOrNilSet cell v =>
      cases v with
      | none => exact .answer (StorageSlot.set_keepsTo h _)
      | some addr => exact .answer (StorageSlot.set_keepsTo h _)

end

/-! ### Spaces -/

section
variable [Keccak] {F : Footprint}

/-- The footprint has the slots of all keys of the space. -/
def Footprint.Has (F : Footprint) (sto : Storage) : Prop :=
  ∀ key, F.slots sto.account (sto.mapAddressByKey key)

/-- The footprint has the numbered slots of the space. -/
def Footprint.HasSlots (F : Footprint) (sto : Storage) : Prop :=
  ∀ offset, F.slots sto.account (sto.mapAddress offset)

/-- A slot with a number is the slot of a key. -/
theorem Footprint.Has.slots {sto : Storage} (h : F.Has sto) : F.HasSlots sto :=
  fun offset => h (U256.ofU64 offset)

namespace Storage
variable {self : Storage}

/-- A number is read under a key, or the read ends with a panic. -/
theorem getUint64ByKey_keepsTo {key : StorageKey}
    (h : F.slots self.account (self.mapAddressByKey key)) :
    KeepsTo F (self.getUint64ByKey key) := by
  refine (Exec.storage_keepsTo h).bind ?_
  intro val
  cases U64.tryFrom val with
  | none => exact .panic _
  | some v => exact .done v

/-- A write under a key asks the burner first, as that of a slot does. -/
theorem set_keepsTo {key : StorageKey} (h : F.slots self.account (self.mapAddressByKey key))
    (v : StorageValue) : KeepsTo F (self.set key v) := by
  refine Exec.readOnly_keepsTo.bind ?_
  intro refuses
  refine .ite (.panic _) ?_
  refine (Exec.burn_keepsTo _).bind ?_
  intro _
  exact Exec.sstore_keepsTo h v

/-- A swap reads the slot of the key, and then writes it. -/
theorem swap_keepsTo {key : StorageKey} (h : F.slots self.account (self.mapAddressByKey key))
    (v : StorageValue) : KeepsTo F (self.swap key v) := by
  refine (Exec.storage_keepsTo h).bind ?_
  intro old
  refine (set_keepsTo h v).bind ?_
  intro _
  exact .done _

section
variable (h : F.HasSlots self)
include h

/-- The length of a byte string is in the slot 0. -/
theorem getBytesSize_keepsTo : KeepsTo F self.getBytesSize := by
  refine (Exec.storage_keepsTo (h 0)).bind ?_
  intro raw
  cases U64.tryFrom raw with
  | none => exact .panic _
  | some v => exact .done v

/-- The full chunks are read in turn. Induction on their number, from any slot on. -/
theorem getFullChunks_keepsTo (offset count : Nat) :
    KeepsTo F (self.getFullChunks offset count) := by
  induction count generalizing offset with
  | zero => exact .done _
  | succ count ih =>
      refine (Exec.storage_keepsTo (h _)).bind ?_
      intro chunk
      refine (ih (offset + 1)).bind ?_
      intro rest
      exact .done _

/-- A byte string is read from the slot 0 on, the last chunk apart from the full ones. -/
theorem getBytes_keepsTo : KeepsTo F self.getBytes := by
  refine (getBytesSize_keepsTo h).bind ?_
  intro size
  refine (getFullChunks_keepsTo h 1 _).bind ?_
  intro chunks
  refine .ite ?_ (.done _)
  refine (Exec.storage_keepsTo (h _)).bind ?_
  intro last
  exact .done _

/-- The chunks of a byte string are cleared, and then its length. -/
theorem clearBytes_keepsTo : KeepsTo F self.clearBytes := by
  refine (getBytesSize_keepsTo h).bind ?_
  intro size
  refine (Confined.forRange (fun _ => Exec.sstore_keepsTo (h _) 0) 1 _).bind ?_
  intro _
  exact Exec.sstore_keepsTo (h _) 0

/-- The chunks are written in turn. Induction on the number of the full ones, from any slot on
and for any bytes that are left. -/
theorem setChunks_keepsTo (offset count : Nat) (remaining : Bytes) :
    KeepsTo F (self.setChunks offset count remaining) := by
  induction count generalizing offset remaining with
  | zero => exact .ite (.done _) (Exec.sstore_keepsTo (h _) _)
  | succ count ih =>
      refine (Exec.sstore_keepsTo (h _) _).bind ?_
      intro _
      exact ih (offset + 1) _

/-- The old byte string is cleared before the new one is written. -/
theorem setBytes_keepsTo (b : Bytes) : KeepsTo F (self.setBytes b) := by
  refine (clearBytes_keepsTo h).bind ?_
  intro _
  refine (Exec.sstore_keepsTo (h _) _).bind ?_
  intro _
  exact setChunks_keepsTo h 1 _ b

end

end Storage

/-- An operation on a space reaches the slots of its keys only. -/
theorem StorageOp.perform_reaches {self : Storage} (h : F.Has self) (op : StorageOp) :
    Reaches F (op.perform self) := by
  cases op with
  | readSlot offset => exact .answer (Exec.storage_keepsTo (h _))
  | writeSlot offset value => exact .answer (Exec.sstore_keepsTo (h _) value)
  | getByKey _ | getByUint64 _ => exact .answer (Exec.storage_keepsTo (h _))
  | setByKey _ _ | clearByKey _ => exact .answer (Exec.sstore_keepsTo (h _) _)
  | getUint64ByKey _ | getUint64ByUint64 _ =>
      exact .answer (Storage.getUint64ByKey_keepsTo (h _))
  | set _ _ | setUint64 _ _ | setByUint64 _ _ | setUint64ByUint64 _ _ | setUint32 _ _
  | setByUint32 _ _ | clear _ | clearByUint64 _ => exact .answer (Storage.set_keepsTo (h _) _)
  | swap key newValue => exact .answer (Storage.swap_keepsTo (h _) newValue)
  | getBytesSize => exact .answer (Storage.getBytesSize_keepsTo h.slots)
  | getBytes => exact .answer (Storage.getBytes_keepsTo h.slots)
  | clearBytes => exact .answer (Storage.clearBytes_keepsTo h.slots)
  | setBytes b => exact .answer (Storage.setBytes_keepsTo h.slots b)

/-- An operation on a byte string reaches the slots of the space that have a number. -/
theorem BytesOp.perform_reaches {self : StorageBackedBytes} (h : F.HasSlots self.storage)
    (op : BytesOp) : Reaches F (op.perform self) := by
  cases op with
  | size => exact .answer (Storage.getBytesSize_keepsTo h)
  | get => exact .answer (Storage.getBytes_keepsTo h)
  | clear => exact .answer (Storage.clearBytes_keepsTo h)
  | set b => exact .answer (Storage.setBytes_keepsTo h b)

/-! ### Sets of addresses -/

namespace AddressSet
variable {sto : Storage}

/-- The index of the members that are addresses. -/
def indexSpace (sto : Storage) : Storage := sto.openSubStorage [0]

section
variable (hlist : F.HasSlots sto)
include hlist

/-- The size of a fresh set is written. -/
theorem initializeSet_keepsTo : KeepsTo F (initializeSet sto) := Storage.set_keepsTo (hlist 0) _

/-- The size is in the slot 0 of the list. -/
theorem size_keepsTo : KeepsTo F (new sto).size := StorageBackedUint64.get_keepsTo (hlist 0)

/-- Some member is the first of the list. -/
theorem getAnyMember_keepsTo : KeepsTo F (new sto).getAnyMember := by
  refine (size_keepsTo hlist).bind ?_
  intro size
  refine .ite (.done _) ?_
  refine (Exec.storage_keepsTo (hlist 1)).bind ?_
  intro word
  exact .ite (.done _) (.done _)

/-- The members are read in turn. Induction on their number, from any place on. -/
theorem membersFrom_keepsTo (i count : Nat) : KeepsTo F ((new sto).membersFrom i count) := by
  induction count generalizing i with
  | zero => exact .done _
  | succ count ih =>
      refine (Exec.storage_keepsTo (hlist _)).bind ?_
      intro word
      refine (ih (i + 1)).bind ?_
      intro rest
      exact .done _

/-- All members are read from the list, and the mapping is not. -/
theorem allMembers_keepsTo (max : U64) : KeepsTo F ((new sto).allMembers max) := by
  refine (size_keepsTo hlist).bind ?_
  intro size
  exact membersFrom_keepsTo hlist 0 _

/-- The slots of the list are cleared, and then its size. The mapping is left as it is. -/
theorem clearList_keepsTo : KeepsTo F (new sto).clearList := by
  refine (size_keepsTo hlist).bind ?_
  intro size
  refine .ite (.done _) ?_
  refine (Confined.forRange (fun _ => Exec.sstore_keepsTo (hlist _) 0) 1 _).bind ?_
  intro _
  exact StorageBackedUint64.set_keepsTo (hlist 0) 0

end

/-- Whether an address is a member is in its entry of the mapping. -/
theorem isMember_keepsTo {addr : Address}
    (hindex : F.slots sto.account ((indexSpace sto).mapAddressByKey (addrToKey addr))) :
    KeepsTo F ((new sto).isMember addr) := by
  refine (Exec.storage_keepsTo hindex).bind ?_
  intro word
  exact .done _

/-- A new member gets an entry of the mapping and the slot behind the list, and then the size
is raised. -/
theorem add_keepsTo (hlist : F.HasSlots sto) {addr : Address}
    (hindex : F.slots sto.account ((indexSpace sto).mapAddressByKey (addrToKey addr))) :
    KeepsTo F ((new sto).add addr) := by
  refine (isMember_keepsTo hindex).bind ?_
  intro present
  refine .ite (.done _) ?_
  refine (size_keepsTo hlist).bind ?_
  intro size
  refine (KeepsTo.checkedAdd _ _).bind ?_
  intro slot
  refine (Exec.sstore_keepsTo hindex _).bind ?_
  intro _
  refine (Exec.sstore_keepsTo (hlist _) _).bind ?_
  intro _
  refine (StorageBackedUint64.increment_keepsTo (hlist 0)).bind ?_
  intro _
  exact .done _

/-- The entry of a member is cleared, and the member is added again. -/
theorem rectifyMapping_keepsTo (hlist : F.HasSlots sto) {addr : Address}
    (hindex : F.slots sto.account ((indexSpace sto).mapAddressByKey (addrToKey addr))) :
    KeepsTo F ((new sto).rectifyMapping addr) := by
  refine (isMember_keepsTo hindex).bind ?_
  intro present
  refine .ite (.panic _) ?_
  refine (Storage.getUint64ByKey_keepsTo hindex).bind ?_
  intro slot
  refine (Exec.storage_keepsTo (hlist _)).bind ?_
  intro word
  refine (size_keepsTo hlist).bind ?_
  intro size
  refine .ite (.panic _) ?_
  refine (Exec.sstore_keepsTo hindex 0).bind ?_
  intro _
  exact add_keepsTo hlist hindex

section
-- the list can hold any words, and they are keys of the index
variable (hlist : F.HasSlots sto) (hindex : F.Has (indexSpace sto))
include hlist hindex

/-- Each round clears a slot of the list, and the entry of the word that was in it. -/
theorem clear_keepsTo : KeepsTo F (new sto).clear := by
  have hround (i : Nat) : KeepsTo F (do
      let contents ← (new sto).backingStorage.readSlot (BitVec.ofNat 64 i)
      (new sto).backingStorage.writeSlot (BitVec.ofNat 64 i) 0
      (new sto).byAddress.clearByKey contents) := by
    refine (Exec.storage_keepsTo (hlist _)).bind ?_
    intro contents
    refine (Exec.sstore_keepsTo (hlist _) 0).bind ?_
    intro _
    exact Exec.sstore_keepsTo (hindex _) 0
  refine (size_keepsTo hlist).bind ?_
  intro size
  refine .ite (.done _) ?_
  refine (Confined.forRange hround 1 _).bind ?_
  intro _
  exact StorageBackedUint64.set_keepsTo (hlist 0) 0

/-- A removal moves the last member into the slot that is free, unless it is the one that is
removed. From version 11 on, its entry of the mapping follows. -/
theorem remove_keepsTo (addr : Address) (arbosVersion : U64) :
    KeepsTo F ((new sto).remove addr arbosVersion) := by
  refine (Storage.getUint64ByKey_keepsTo (hindex _)).bind ?_
  intro slot
  refine .ite (.done _) ?_
  refine (Exec.sstore_keepsTo (hindex _) 0).bind ?_
  intro _
  refine (size_keepsTo hlist).bind ?_
  intro size
  -- the end of the removal, which both branches share
  have hrest : ∀ u : Unit, KeepsTo F (do
      (new sto).backingStorage.writeSlot size 0
      let _ ← (new sto).sizeCell.decrement
      pure ()) := by
    intro _
    refine (Exec.sstore_keepsTo (hlist _) 0).bind ?_
    intro _
    refine (StorageBackedUint64.decrement_keepsTo (hlist 0)).bind ?_
    intro _
    exact .done _
  refine .ite ?_ (hrest ())
  refine (Exec.storage_keepsTo (hlist _)).bind ?_
  intro lastWord
  refine (Exec.sstore_keepsTo (hlist _) _).bind ?_
  intro _
  exact .ite ((Exec.sstore_keepsTo (hindex _) _).bind hrest) (hrest ())

end

end AddressSet

/-- An operation on a set reaches the list in the space of the set, and the mapping in the
space below it. -/
theorem AddressSetOp.perform_reaches {sto : Storage} (hlist : F.HasSlots sto)
    (hindex : F.Has (AddressSet.indexSpace sto)) (op : AddressSetOp) :
    Reaches F (op.perform sto) := by
  cases op with
  | initializeSet => exact .answer (AddressSet.initializeSet_keepsTo hlist)
  | size => exact .answer (AddressSet.size_keepsTo hlist)
  | isMember addr => exact .answer (AddressSet.isMember_keepsTo (hindex _))
  | getAnyMember => exact .answer (AddressSet.getAnyMember_keepsTo hlist)
  | clear => exact .answer (AddressSet.clear_keepsTo hlist hindex)
  | allMembers max => exact .answer (AddressSet.allMembers_keepsTo hlist max)
  | clearList => exact .answer (AddressSet.clearList_keepsTo hlist)
  | rectifyMapping addr => exact .answer (AddressSet.rectifyMapping_keepsTo hlist (hindex _))
  | add addr => exact .answer (AddressSet.add_keepsTo hlist (hindex _))
  | remove addr arbosVersion =>
      exact .answer (AddressSet.remove_keepsTo hlist hindex addr arbosVersion)

/-! ### Queues and vectors -/

namespace Queue
variable {sto : Storage} (h : F.HasSlots sto)
include h

/-- A fresh queue has its two offsets written. -/
theorem initializeQueue_keepsTo : KeepsTo F (initializeQueue sto) := by
  refine (Storage.set_keepsTo (h 0) _).bind ?_
  intro _
  exact Storage.set_keepsTo (h 1) _

/-- Whether a queue is empty is told from its two offsets. -/
theorem isEmpty_keepsTo : KeepsTo F (Queue.open sto).isEmpty := by
  refine (StorageBackedUint64.get_keepsTo (h 0)).bind ?_
  intro put
  refine (StorageBackedUint64.get_keepsTo (h 1)).bind ?_
  intro get
  exact .done _

/-- So is its size. -/
theorem size_keepsTo : KeepsTo F (Queue.open sto).size := by
  refine (StorageBackedUint64.get_keepsTo (h 0)).bind ?_
  intro put
  refine (StorageBackedUint64.get_keepsTo (h 1)).bind ?_
  intro get
  exact KeepsTo.checkedSub _ _

/-- A new element is written to the slot behind the last one. -/
theorem put_keepsTo (val : StorageValue) : KeepsTo F ((Queue.open sto).put val) := by
  refine (StorageBackedUint64.increment_keepsTo (h 0)).bind ?_
  intro newOffset
  refine (KeepsTo.checkedSub _ _).bind ?_
  intro slot
  exact Storage.set_keepsTo (h _) val

/-- The first element is taken out of its slot. -/
theorem get_keepsTo : KeepsTo F (Queue.open sto).get := by
  refine (isEmpty_keepsTo h).bind ?_
  intro empty
  refine .ite (.done _) ?_
  refine (StorageBackedUint64.increment_keepsTo (h 1)).bind ?_
  intro newOffset
  refine (KeepsTo.checkedSub _ _).bind ?_
  intro slot
  refine (Storage.swap_keepsTo (h _) 0).bind ?_
  intro element
  exact .done _

/-- The first element is read and stays. -/
theorem peek_keepsTo : KeepsTo F (Queue.open sto).peek := by
  refine (isEmpty_keepsTo h).bind ?_
  intro empty
  refine .ite (.done _) ?_
  refine (StorageBackedUint64.get_keepsTo (h 1)).bind ?_
  intro get
  refine (Exec.storage_keepsTo (h _)).bind ?_
  intro element
  exact .done _

/-- The offsets of an empty queue are reset. -/
theorem shift_keepsTo : KeepsTo F (Queue.open sto).shift := by
  refine (StorageBackedUint64.get_keepsTo (h 0)).bind ?_
  intro put
  refine (StorageBackedUint64.get_keepsTo (h 1)).bind ?_
  intro get
  refine .ite (.done _) ?_
  refine (StorageBackedUint64.set_keepsTo (h 1) 2).bind ?_
  intro _
  refine (StorageBackedUint64.set_keepsTo (h 0) 2).bind ?_
  intro _
  exact .done _

/-- The errors of the closure are the program's own. -/
theorem forEachFrom_confined {γ : Type}
    (closure : γ → U64 → StorageValue → Except DbError Bool × γ) (offset : U64) (index count : Nat)
    (g : γ) :
    Confined F.Allows failure DbErrors.db (fun _ => True)
      ((Queue.open sto).forEachFrom closure offset index count g) := by
  induction count generalizing index g with
  | zero => exact .done g
  | succ count ih =>
      refine (KeepsTo.anyOwn (KeepsTo.checkedAdd _ _)).bind fun at_ => ?_
      refine (KeepsTo.anyOwn (Exec.storage_keepsTo (h at_))).bind fun entry => ?_
      rcases closure g (BitVec.ofNat 64 index) entry with ⟨e | _ | _, g'⟩
      · exact .fail e trivial
      · exact ih (index + 1) g'
      · exact .done g'

/-- The loop over a queue, with the size and the first offset that it reads before. -/
theorem forEach_confined {γ : Type}
    (closure : γ → U64 → StorageValue → Except DbError Bool × γ) (g : γ) :
    Confined F.Allows failure DbErrors.db (fun _ => True) ((Queue.open sto).forEach closure g) := by
  refine (KeepsTo.anyOwn (size_keepsTo h)).bind ?_
  intro size
  refine (KeepsTo.anyOwn (StorageBackedUint64.get_keepsTo (h 1))).bind ?_
  intro get
  exact forEachFrom_confined h closure _ 0 _ g

/-- An operation on a queue reaches the slots of its space that have a number. -/
theorem program_reaches (op : QueueOp) :
    Reaches F (((Queue.open sto).program op).answer .queue) := by
  cases op with
  | put val => exact .answer ((put_keepsTo h val).bind fun _ => .done _)
  | get => exact .answer ((get_keepsTo h).bind fun _ => .done _)
  | peek => exact .answer ((peek_keepsTo h).bind fun _ => .done _)
  | shift => exact .answer ((shift_keepsTo h).bind fun _ => .done _)
  | size => exact .answer ((size_keepsTo h).bind fun _ => .done _)
  | isEmpty => exact .answer ((isEmpty_keepsTo h).bind fun _ => .done _)
  | forEach answer => exact .answer ((forEach_confined h _ _).bind fun _ => .done _)

end Queue

/-- An operation on a vector reaches the slot of its length. The spaces of the elements are
handed out and not entered. -/
theorem VectorOp.perform_reaches {sto : Storage} (h : F.HasSlots sto) (op : VectorOp) :
    Reaches F (op.perform sto) := by
  cases op with
  | length => exact .answer (StorageBackedUint64.get_keepsTo (h 0))
  | push =>
      refine Reaches.answer (Confined.bind (StorageBackedUint64.get_keepsTo (h 0)) ?_)
      intro length
      refine (KeepsTo.checkedAdd _ _).bind ?_
      intro next
      exact (StorageBackedUint64.set_keepsTo (h 0) next).bind fun _ => .done _
  | pop =>
      refine Reaches.answer (Confined.bind (StorageBackedUint64.get_keepsTo (h 0)) ?_)
      intro length
      refine .ite (.panic _) ?_
      exact (StorageBackedUint64.set_keepsTo (h 0) _).bind fun _ => .done _

/-! ### The table of the batch posters -/

/-- The footprint has the slots of the table in the space. -/
structure Footprint.HasTable (F : Footprint) (sto : Storage) : Prop where
  total : F.slots sto.account (sto.mapAddress totalFundsDueOffset)
  list : F.HasSlots (sto.openCachedSubStorage posterAddrsKey)
  index : ∀ p, F.slots sto.account ((AddressSet.indexSpace
    (sto.openCachedSubStorage posterAddrsKey)).mapAddressByKey (addrToKey p))
  fundsDue : ∀ p : Address, F.slots sto.account
    (((sto.openSubStorage posterInfoKey).openSubStorage p.asSlice).mapAddress 0)
  payTo : ∀ p : Address, F.slots sto.account
    (((sto.openSubStorage posterInfoKey).openSubStorage p.asSlice).mapAddress 1)

namespace BatchPostersTable
variable {sto : Storage} (h : F.HasTable sto)
include h

/-- A fresh table has its total and the size of its set written. -/
theorem initializeTable_keepsTo : KeepsTo F (initializeTable sto) := by
  refine (StorageSlot.set_keepsTo h.total _).bind ?_
  intro _
  exact AddressSet.initializeSet_keepsTo h.list

/-- Whether an account is a poster is in its entry of the set. -/
theorem containsPoster_keepsTo (p : Address) :
    KeepsTo F ((BatchPostersTable.open sto).containsPoster p) :=
  AddressSet.isMember_keepsTo (h.index p)

/-- The posters are the members of the set. -/
theorem allPosters_keepsTo (max : U64) :
    KeepsTo F ((BatchPostersTable.open sto).allPosters max) :=
  AddressSet.allMembers_keepsTo h.list max

/-- The total has a slot of its own. -/
theorem totalFundsDue_keepsTo : KeepsTo F (BatchPostersTable.open sto).totalFundsDue :=
  StorageBackedBigInt.get_keepsTo h.total

/-- The record of a new poster is written before the poster is added to the set. A poster
that is there already is an error of the table's own. -/
theorem addPoster_keepsTo (p q : Address) :
    KeepsTo F ((BatchPostersTable.open sto).addPoster p q) := by
  refine (KeepsTo.lift (AddressSet.isMember_keepsTo (h.index p))).bind ?_
  intro present
  refine .ite (.fail _ ⟨_, rfl⟩) ?_
  refine (KeepsTo.lift (StorageSlot.set_keepsTo (h.fundsDue p) _)).bind ?_
  intro _
  refine (KeepsTo.lift (StorageSlot.set_keepsTo (h.payTo p) _)).bind ?_
  intro _
  refine (KeepsTo.lift (AddressSet.add_keepsTo h.list (h.index p))).bind ?_
  intro _
  exact .done _

/-- A poster is opened, or added when it is to be created. -/
theorem openPoster_keepsTo (p : Address) (create : Bool) :
    KeepsTo F ((BatchPostersTable.open sto).openPoster p create) := by
  refine (KeepsTo.lift (AddressSet.isMember_keepsTo (h.index p))).bind ?_
  intro present
  refine .ite ?_ (.done _)
  exact .ite (.fail _ ⟨_, rfl⟩) (addPoster_keepsTo h p p)

omit h in
/-- The record that is opened is that of the poster. -/
theorem openPoster_returns (p : Address) (create : Bool) :
    ((BatchPostersTable.open sto).openPoster p create).Returns
      (· = (BatchPostersTable.open sto).internalOpen p) := by
  have hadd (q : Address) : ((BatchPostersTable.open sto).addPoster p q).Returns
      (· = (BatchPostersTable.open sto).internalOpen p) :=
    .bind fun _ => .ite trivial <| .bind fun _ => .bind fun _ => .bind fun _ => rfl
  exact .bind fun _ => .ite (.ite trivial (hadd p)) rfl

section
variable (p : Address)

/-- The amount that is due is in the record of the poster. -/
theorem fundsDue_keepsTo : KeepsTo F ((BatchPostersTable.open sto).internalOpen p).fundsDue :=
  StorageBackedBigInt.get_keepsTo (h.fundsDue p)

/-- The total is brought up to date before the amount of the poster is written. -/
theorem setFundsDue_keepsTo (val : I256) :
    KeepsTo F (((BatchPostersTable.open sto).internalOpen p).setFundsDue val) := by
  refine (fundsDue_keepsTo h p).bind ?_
  intro prev
  refine (StorageBackedBigInt.get_keepsTo h.total).bind ?_
  intro total
  refine (StorageSlot.set_keepsTo h.total _).bind ?_
  intro _
  exact StorageSlot.set_keepsTo (h.fundsDue p) _

/-- The account that is paid is in the record of the poster. -/
theorem payTo_keepsTo : KeepsTo F ((BatchPostersTable.open sto).internalOpen p).payTo :=
  StorageBackedAddress.get_keepsTo (h.payTo p)

/-- And is written to it. -/
theorem setPayTo_keepsTo (q : Address) :
    KeepsTo F (((BatchPostersTable.open sto).internalOpen p).setPayTo q) :=
  StorageSlot.set_keepsTo (h.payTo p) _

end

/-- The posters of a list are opened in turn. Induction on the list. -/
theorem fundsDueItems_keepsTo (posters : List Address) :
    KeepsTo F ((BatchPostersTable.open sto).fundsDueItems posters) := by
  induction posters with
  | nil => exact .done _
  | cons p posters ih =>
      refine (openPoster_keepsTo h p false).bind_of_returns (openPoster_returns p false) ?_
      rintro _ rfl
      refine (KeepsTo.lift (fundsDue_keepsTo h p)).bind ?_
      intro balance
      refine ih.bind ?_
      intro rest
      exact .ite (.done _) (.done _)

/-- The amounts that are due are read from the records of all posters. -/
theorem getFundsDueList_keepsTo : KeepsTo F (BatchPostersTable.open sto).getFundsDueList := by
  refine (KeepsTo.lift (allPosters_keepsTo h _)).bind ?_
  intro posters
  exact fundsDueItems_keepsTo h posters

end BatchPostersTable

/-- An operation on the table reaches the slots of the table. -/
theorem PosterOp.perform_reaches {sto : Storage} (h : F.HasTable sto) (op : PosterOp) :
    Reaches F (op.perform sto) := by
  cases op with
  | initializeTable => exact .answer (BatchPostersTable.initializeTable_keepsTo h)
  | openPoster p create => exact .table (BatchPostersTable.openPoster_keepsTo h p create)
  | containsPoster p => exact .answer (BatchPostersTable.containsPoster_keepsTo h p)
  | addPoster p q => exact .table (BatchPostersTable.addPoster_keepsTo h p q)
  | allPosters max => exact .answer (BatchPostersTable.allPosters_keepsTo h max)
  | totalFundsDue => exact .answer (BatchPostersTable.totalFundsDue_keepsTo h)
  | getFundsDueList => exact .table (BatchPostersTable.getFundsDueList_keepsTo h)
  | fundsDue p => exact .answer (BatchPostersTable.fundsDue_keepsTo h p)
  | setFundsDue p val => exact .answer (BatchPostersTable.setFundsDue_keepsTo h p val)
  | payTo p => exact .answer (BatchPostersTable.payTo_keepsTo h p)
  | setPayTo p q => exact .answer (BatchPostersTable.setPayTo_keepsTo h p q)

/-! ### All public operations -/

/-- The slots of the space. -/
def Storage.Slots (self : Storage) (account : Address) (slot : StorageKey) : Prop :=
  account = self.account ∧ ∃ key, slot = self.mapAddressByKey key

/-- The slots of the space and of all spaces below it. -/
def Storage.SlotsBelow (self : Storage) (account : Address) (slot : StorageKey) : Prop :=
  ∃ path, (self.openPath path).Slots account slot

/-- The slots that the operation may reach. It reaches no balance. -/
def Operation.region : Operation → Footprint
  | cell op => { slots := fun a k => a = op.slot.account ∧ k = op.slot.slot, balances := False }
  | storage self _ => { slots := self.Slots, balances := False }
  | bytes self _ => { slots := self.storage.Slots, balances := False }
  | addressSet sto _ => { slots := sto.SlotsBelow, balances := False }
  | queueInitialize sto => { slots := sto.Slots, balances := False }
  | queue sto _ => { slots := sto.Slots, balances := False }
  | vector sto _ => { slots := sto.Slots, balances := False }
  | posters sto _ => { slots := sto.SlotsBelow, balances := False }

/-- The slots of a space are those of its keys. -/
theorem has_slots (sto : Storage) (balances : Prop) :
    ({ slots := sto.Slots, balances } : Footprint).Has sto := fun key => ⟨rfl, key, rfl⟩

/-- The slots below a space have those of every space that is opened from it, by any path. -/
theorem has_slotsBelow (sto : Storage) (path : List OpenCall) (balances : Prop) :
    ({ slots := sto.SlotsBelow, balances } : Footprint).Has (sto.openPath path) := fun key =>
  ⟨path, rfl, key, rfl⟩

/-- The slots of a table are below its space: the set and its mapping, and the records. -/
theorem hasTable_slotsBelow (sto : Storage) (balances : Prop) :
    ({ slots := sto.SlotsBelow, balances } : Footprint).HasTable sto where
  total := ⟨[], rfl, _, rfl⟩
  list := (has_slotsBelow sto [⟨true, posterAddrsKey⟩] balances).slots
  index _ := ⟨[⟨true, posterAddrsKey⟩, ⟨false, [0]⟩], rfl, _, rfl⟩
  fundsDue p := ⟨[⟨false, posterInfoKey⟩, ⟨false, p.asSlice⟩], rfl, _, rfl⟩
  payTo p := ⟨[⟨false, posterInfoKey⟩, ⟨false, p.asSlice⟩], rfl, _, rfl⟩

/-- Every public operation keeps to its region. -/
theorem Operation.perform_reaches (op : Operation) : Reaches op.region op.perform := by
  cases op with
  | cell op =>
      have hslot : (Operation.cell op).region.slots op.slot.account op.slot.slot := ⟨rfl, rfl⟩
      exact CellOp.perform_reaches hslot
  | storage self op => exact StorageOp.perform_reaches (has_slots self False) op
  | bytes self op => exact BytesOp.perform_reaches (has_slots self.storage False).slots op
  | addressSet sto op =>
      exact AddressSetOp.perform_reaches (has_slotsBelow sto [] False).slots
        (has_slotsBelow sto [⟨false, [0]⟩] False) op
  | queueInitialize sto =>
      exact .answer (Queue.initializeQueue_keepsTo (has_slots sto False).slots)
  | queue sto op => exact Queue.program_reaches (has_slots sto False).slots op
  | vector sto op => exact VectorOp.perform_reaches (has_slots sto False).slots op
  | posters sto op => exact PosterOp.perform_reaches (hasTable_slotsBelow sto False) op

/-- Every public operation of the storage, on every context, also one whose database fails
at any time: it reads and writes slots of its own region only and touches no balance. When
a command fails, it is the last one and the operation fails with exactly its error. -/
theorem Operation.stays_in_region {σ : Type} (h : Handler Resp σ) (op : Operation) (s : σ) :
    (∀ ev ∈ op.perform.trace h s, op.region.Allows ev.1)
    ∧ ∀ before ev after e, op.perform.trace h s = before ++ ev :: after →
        failure ev.1 ev.2 = some e → after = [] ∧ (op.perform.exec h s).1 = .err (.db e) :=
  ⟨op.perform_reaches.forall_mem_trace s, fun _ _ _ _ htrace hev =>
    op.perform_reaches.exec_of_failure htrace hev⟩

end

end ArbReth
