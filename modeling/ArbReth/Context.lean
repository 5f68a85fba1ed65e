import ArbReth.Program.Basic
import ArbReth.Multigas.Resources
import ArbReth.Word

/-!
# `ArbReth.Context`: the interface of the source to revm and to the burner

The source is generic over a context `CTX: ContextTr` and a burner `B: Burner`.
It uses eight operations of them, which are the commands `Cmd` here:

* `storage`: `Database::storage` of `ctx.db_mut()`;
* `sstore`: `JournalTr::sstore` of `ctx.journal_mut()`;
* `loadBalance`: the balance in the account that `JournalTr::load_account` returns;
* `transfer`: `JournalTr::transfer`;
* `burn` and `readOnly`: the methods of `Burner`. The source drops the result of
  `burn` at every call (`let _ =`), so the answer is `Unit`. Every handle of one
  storage tree holds a clone of one burner, so the burner is part of the state
  that the commands run over and not a field of each handle;
* `captureStorageGet` and `captureStorageSet`: the notification of the tracer
  that `tracing_info` holds, when it holds one.

Three state types answer the commands:

* `World` is a store in which each read observes the latest earlier write. It is
  the reference meaning of a coherent context.
* `TwoLayer` is the state of revm 34. `sstore` records a value in the journal of
  the transaction. `storage` of the database does not see the journal until it is
  committed.
* `Machine σ B` is a context with state `σ` together with a burner `B`
  (`ArbReth.Burn`).

In a `World` and in a `TwoLayer`, balances are read and moved through the journal.
`transfer` refuses when the balance of the sender is too small or when the balance
of the recipient would overflow. In the second case revm has debited the sender before
it refuses, and it does not refund it (`transferBalance`).
-/

set_option autoImplicit false

namespace ArbReth

open ArbReth.Program

/-- `Database::Error`. The source only propagates it. -/
structure DbError where
  message : String
deriving DecidableEq, Repr

/-- The reasons for which `JournalTr::transfer` refuses. -/
inductive TransferError where
  | outOfFunds
  | overflowPayment
deriving DecidableEq, Repr

/-- The `Debug` form of the reason. -/
def TransferError.debug : TransferError → String
  | .outOfFunds => "OutOfFunds"
  | .overflowPayment => "OverflowPayment"

/-- The operations of the context and of the burner. -/
inductive Cmd where
  | storage (account : Address) (key : StorageKey)
  | sstore (account : Address) (key : StorageKey) (value : StorageValue)
  | loadBalance (account : Address)
  | transfer (src dst : Address) (amount : U256)
  | burn (kind : ResourceKind) (amount : U64)
  | readOnly
  | captureStorageGet (slot : StorageKey)
  | captureStorageSet (slot : StorageKey) (value : StorageValue)
deriving DecidableEq

/-- The type of the answer to each command. -/
@[reducible] def Resp : Cmd → Type
  | .storage _ _ => Except DbError StorageValue
  | .sstore _ _ _ => Except DbError Unit
  | .loadBalance _ => Except DbError U256
  | .transfer _ _ _ => Except DbError (Option TransferError)
  | .burn _ _ => Unit
  | .readOnly => Bool
  | .captureStorageGet _ => Unit
  | .captureStorageSet _ _ => Unit

/-- A program of the source: it fails with an error of type `ε`, or panics, or
returns an `α`. -/
abbrev Exec (ε α : Type) : Type := Prog Resp ε α

namespace Exec

/-- The `?` operator on an answer of the context. -/
def ofResult {α : Type} : Except DbError α → Exec DbError α
  | .ok a => pure a
  | .error e => .fail e

/-- `db.storage(account, key)?`. -/
def storage (account : Address) (key : StorageKey) : Exec DbError StorageValue :=
  .call (.storage account key) ofResult

/-- `ctx.journal_mut().sstore(account, key, value)?`. -/
def sstore (account : Address) (key : StorageKey) (value : StorageValue) : Exec DbError Unit :=
  .call (.sstore account key value) ofResult

/-- `ctx.journal_mut().load_account(account)?.data.info.balance`. -/
def loadBalance (account : Address) : Exec DbError U256 :=
  .call (.loadBalance account) ofResult

/-- `ctx.journal_mut().transfer(src, dst, amount)?`. -/
def transfer (src dst : Address) (amount : U256) : Exec DbError (Option TransferError) :=
  .call (.transfer src dst amount) ofResult

/-- `let _ = self.burner.burn(kind, amount)`. -/
def burn (kind : ResourceKind) (amount : U64) : Exec DbError Unit :=
  .call (.burn kind amount) pure

/-- `self.burner.read_only()`. -/
def readOnly : Exec DbError Bool := .call .readOnly pure

/-- `tracer.capture_storage_get(slot, ..)`, when the burner holds a tracer. -/
def captureStorageGet (slot : StorageKey) : Exec DbError Unit :=
  .call (.captureStorageGet slot) pure

/-- `tracer.capture_storage_set(slot, value, ..)`, when the burner holds a tracer. -/
def captureStorageSet (slot : StorageKey) (value : StorageValue) : Exec DbError Unit :=
  .call (.captureStorageSet slot value) pure

/-- The program with its error and its result put into other types. -/
def reply {ε ε' α β : Type} (p : Exec ε α) (err : ε → ε') (result : α → β) : Exec ε' β := do
  let a ← p.mapErr err
  pure (result a)

end Exec

/-! ### Payments -/

/-- The balances after a payment. A payment to the sender itself moves nothing. -/
def movedBalance (balance : Address → U256) (src dst : Address) (amount : U256) (a : Address) :
    U256 :=
  if src = dst then balance a
  else if a = src then balance a - amount
  else if a = dst then balance a + amount
  else balance a

/-- The reason to refuse a payment, when there is one. -/
def transferRefusal (balance : Address → U256) (src dst : Address) (amount : U256) :
    Option TransferError :=
  if balance src < amount then some .outOfFunds
  else if src ≠ dst ∧ 2 ^ 256 ≤ (balance dst).toNat + amount.toNat then some .overflowPayment
  else none

/-- The balances after a call of `transfer`. A sender whose balance is too small keeps it.
When the recipient would overflow, the sender is debited and nobody is credited. -/
def transferBalance (balance : Address → U256) (src dst : Address) (amount : U256) :
    Address → U256 :=
  match transferRefusal balance src dst amount with
  | none => movedBalance balance src dst amount
  | some .outOfFunds => balance
  | some .overflowPayment => fun a => if a = src then balance a - amount else balance a

/-- A payment that is not refused moves the amount. -/
theorem transferBalance_of_accepted {balance : Address → U256} {src dst : Address} {amount : U256}
    (h : transferRefusal balance src dst amount = none) :
    transferBalance balance src dst amount = movedBalance balance src dst amount := by
  rw [transferBalance, h]

/-- A payment of nothing moves nothing. -/
theorem movedBalance_zero (balance : Address → U256) (src dst : Address) :
    movedBalance balance src dst 0 = balance := by
  funext a
  simp [movedBalance]

/-- A payment of nothing is never refused. -/
theorem transferRefusal_zero (balance : Address → U256) (src dst : Address) :
    transferRefusal balance src dst 0 = none := by
  have hlt := (balance dst).isLt
  rw [transferRefusal, if_neg (by simp), if_neg]
  rintro ⟨-, h⟩
  have hzero : (0 : U256).toNat = 0 := rfl
  omega

/-! ### A store in which each read observes the latest earlier write -/

/-- A storage map, the account balances, and whether the burner is read-only. -/
@[ext] structure World where
  store : Address → StorageKey → StorageValue
  balance : Address → U256
  readOnly : Bool

namespace World

/-- All slots are zero, nobody holds funds, and the burner is writable. -/
def blank : World := { store := fun _ _ => 0, balance := fun _ => 0, readOnly := false }

/-- The store after a write. -/
def write (w : World) (account : Address) (key : StorageKey) (value : StorageValue) : World :=
  { w with store := fun a k => if a = account ∧ k = key then value else w.store a k }

/-- The world after a payment, whether it is refused or not. -/
def move (w : World) (src dst : Address) (amount : U256) : World :=
  { w with balance := transferBalance w.balance src dst amount }

/-- The reason to refuse a payment, when there is one. -/
def refusal (w : World) (src dst : Address) (amount : U256) : Option TransferError :=
  transferRefusal w.balance src dst amount

/-- The meaning of the commands on a coherent store. -/
def handle : Handler Resp World
  | .storage a k, w => (.ok (w.store a k), w)
  | .sstore a k v, w => (.ok (), w.write a k v)
  | .loadBalance a, w => (.ok (w.balance a), w)
  | .transfer src dst amount, w =>
      (.ok (w.refusal src dst amount), w.move src dst amount)
  | .burn _ _, w => ((), w)
  | .readOnly, w => (w.readOnly, w)
  | .captureStorageGet _, w => ((), w)
  | .captureStorageSet _ _, w => ((), w)

/-- The store after a write to one slot. -/
theorem store_write (w : World) (a a' : Address) (k k' v : U256) :
    (w.write a k v).store a' k' = if a' = a ∧ k' = k then v else w.store a' k' := rfl

/-- The run of a program on a coherent store. -/
abbrev run {ε α : Type} (p : Exec ε α) (w : World) : Outcome ε α × World := p.exec handle w

/-! ### The commands, run on a coherent store -/

/-- The run of a payment, which is accepted or refused. -/
@[simp] theorem run_transfer (w : World) (src dst : Address) (amount : U256) :
    run (Exec.transfer src dst amount) w
      = (.ok (w.refusal src dst amount), w.move src dst amount) := rfl

/-- The run of the question whether the burner is read-only. -/
@[simp] theorem run_readOnly (w : World) : run Exec.readOnly w = (.ok w.readOnly, w) := rfl

end World

/-- A layout gives each key of a component a slot of one account. -/
structure Layout (K : Type) where
  account : Address
  slot : K → StorageKey

namespace Layout
variable {K : Type} (L : Layout K)

/-- The word at a key. -/
def read (w : World) (k : K) : StorageValue := w.store L.account (L.slot k)

/-- The store after a write to a key. -/
def write (w : World) (k : K) (v : StorageValue) : World := w.write L.account (L.slot k) v

/-- The slot of the key is the slot of no other key. -/
def Alone (k : K) : Prop := ∀ k', L.slot k' = L.slot k → k' = k

/-- The keys of which `P` holds have slots of their own. Two other keys may share one: a hash
keeps the few accounts that are used apart, and is not bound to do so for all of them. -/
def Apart (P : K → Prop) : Prop := ∀ k, P k → L.Alone k

variable {L}

/-- When all keys have different slots, any of them are apart. -/
theorem Apart.of_injective (hslot : Function.Injective L.slot) (P : K → Prop) : L.Apart P :=
  fun _ _ _ h => hslot h

/-- Keys that are apart in a layout are apart in a part of it. -/
theorem Apart.of_part {K' : Type} {L' : Layout K'} {P : K → Prop} {P' : K' → Prop}
    (h : L.Apart P) (f : K' → K) (hf : Function.Injective f) (hP : ∀ k, P' k → P (f k))
    (hslot : ∀ k, L'.slot k = L.slot (f k)) : L'.Apart P' := by
  intro k hk k' heq
  rw [hslot, hslot] at heq
  exact hf (h (f k) (hP k hk) (f k') heq)

/-- A write to a key with a slot of its own changes that key only. -/
theorem Alone.read_write [DecidableEq K] {k : K} (hk : L.Alone k) (w : World) (k' : K)
    (v : StorageValue) : L.read (L.write w k v) k' = if k' = k then v else L.read w k' := by
  by_cases h : k' = k
  · rw [if_pos h, h]
    exact if_pos ⟨rfl, rfl⟩
  · rw [if_neg h]
    exact if_neg fun hslot => h (hk k' hslot.2)

variable (L)

/-- When the keys have different slots, a write to one key changes that key only. -/
theorem read_write [DecidableEq K] (hslot : Function.Injective L.slot) (w : World) (k k' : K)
    (v : StorageValue) : L.read (L.write w k v) k' = if k' = k then v else L.read w k' :=
  Alone.read_write (fun _ h => hslot h) w k' v

/-- The world `w'` differs from `w` in the slots of the layout only. -/
structure SameOutside (w w' : World) : Prop where
  store : ∀ a k, (a = L.account → ∀ key, k ≠ L.slot key) → w'.store a k = w.store a k
  balance : w'.balance = w.balance
  readOnly : w'.readOnly = w.readOnly

/-- A world differs from itself nowhere. -/
theorem SameOutside.refl (w : World) : L.SameOutside w w :=
  ⟨fun _ _ _ => rfl, rfl, rfl⟩

variable {L}

/-- A write to a key changes a slot of the layout. -/
theorem SameOutside.write {w w' : World} (h : L.SameOutside w w') (k : K) (v : StorageValue) :
    L.SameOutside w (L.write w' k v) where
  store a k' hout := by
    rw [Layout.write, World.store_write, if_neg fun heq => hout heq.1 k heq.2, h.store a k' hout]
  balance := h.balance
  readOnly := h.readOnly

end Layout

/-! ### The two layers of revm 34 -/

/-- The database, the uncommitted writes of the journal over it, the balances, and
whether the burner is read-only. -/
structure TwoLayer where
  db : Address → StorageKey → StorageValue
  journal : Address → StorageKey → Option StorageValue
  balance : Address → U256
  readOnly : Bool

namespace TwoLayer

/-- The state at the start of a transaction: nothing is in the journal. -/
def begin (db : Address → StorageKey → StorageValue) (balance : Address → U256)
    (readOnly : Bool) : TwoLayer :=
  { db, journal := fun _ _ => none, balance, readOnly }

/-- The value that the slot will have when the transaction is committed. -/
def latest (s : TwoLayer) (account : Address) (key : StorageKey) : StorageValue :=
  (s.journal account key).getD (s.db account key)

/-- The coherent store that a commit of the journal would produce. -/
def committed (s : TwoLayer) : World :=
  { store := s.latest, balance := s.balance, readOnly := s.readOnly }

/-- The meaning of the commands on the two layers: `storage` asks the database,
`sstore` writes to the journal. -/
def handle : Handler Resp TwoLayer
  | .storage a k, s => (.ok (s.db a k), s)
  | .sstore a k v, s =>
      (.ok (), { s with journal := fun a' k' =>
        if a' = a ∧ k' = k then some v else s.journal a' k' })
  | .loadBalance a, s => (.ok (s.balance a), s)
  | .transfer src dst amount, s =>
      (.ok (transferRefusal s.balance src dst amount),
        { s with balance := transferBalance s.balance src dst amount })
  | .burn _ _, s => ((), s)
  | .readOnly, s => (s.readOnly, s)
  | .captureStorageGet _, s => ((), s)
  | .captureStorageSet _ _, s => ((), s)

end TwoLayer

end ArbReth
