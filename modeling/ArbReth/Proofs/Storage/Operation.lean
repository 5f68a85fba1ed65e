import ArbReth.L1Pricing.BatchPoster
import ArbReth.Proofs.Storage.Queue
import ArbReth.Storage.Vector

/-!
# `ArbReth.Proofs.Storage.Operation`: the public operations as data

`Operation` lists every public operation that runs a command on `Storage`, on the
`StorageBacked*` cells, on `StorageBackedBytes`, `AddressSet`, `Queue`,
`SubStorageVector` and `BatchPostersTable`, together with the handle it is called
on. The operations that only compute an address or open a handle are not listed.

`Operation.perform` is the program of the operation. The operations have different
results, which are put into one type, `OpResult`. Their errors are those of the database,
and those of the table of the batch posters: `OpenPosterResult` has both. A statement
about all public operations is a statement about all values of this type.

Most operations reach the storage only through `StorageSlot::get`, `StorageSlot::set`
and `Storage::set`, the accessors that charge the burner and test it before a write.
`Slotwise` says so of a program. What holds of these three accessors, and of sequences,
holds of every such operation.
-/

set_option autoImplicit false

namespace ArbReth

open ArbReth.Program

/-- The result of an operation. -/
inductive OpResult where
  | unit
  | flag (b : Bool)
  | word (v : U256)
  | uint16 (v : U16)
  | uint24 (v : U24)
  | uint32 (v : U32)
  | uint64 (v : U64)
  | int64 (v : I64)
  | bigInt (v : I256)
  | address (a : Address)
  | addressOrNil (a : Option Address)
  | addresses (l : List Address)
  | bytes (b : Bytes)
  | queue (answer : QueueAnswer)
  | space (sto : Storage)
  | poster (state : BatchPosterState)
  | fundsDue (l : List FundsDueItem)
deriving DecidableEq

/-- An operation whose errors are those of the database. -/
def Exec.answer {α : Type} (p : Exec DbError α) (result : α → OpResult) :
    Exec OpenPosterResult OpResult := p.reply .db result

/-- Such an operation that returns nothing. -/
def Exec.answerUnit (p : Exec DbError Unit) : Exec OpenPosterResult OpResult :=
  p.answer fun _ => .unit

/-- An operation on a slot or on a cell. -/
inductive CellOp where
  | slotGet (slot : StorageSlot)
  | slotSet (slot : StorageSlot) (value : StorageValue)
  | int64Get (cell : StorageBackedInt64)
  | int64Set (cell : StorageBackedInt64) (value : I64)
  | bipsGet (cell : StorageBackedBips)
  | bipsSet (cell : StorageBackedBips) (value : Bips)
  | ubipsGet (cell : StorageBackedUBips)
  | ubipsSet (cell : StorageBackedUBips) (value : UBips)
  | uint16Get (cell : StorageBackedUint16)
  | uint16Set (cell : StorageBackedUint16) (value : U16)
  | uint24Get (cell : StorageBackedUint24)
  | uint24Set (cell : StorageBackedUint24) (value : U24)
  | uint32Get (cell : StorageBackedUint32)
  | uint32Set (cell : StorageBackedUint32) (value : U32)
  | uint32Clear (cell : StorageBackedUint32)
  | uint64Get (cell : StorageBackedUint64)
  | uint64Set (cell : StorageBackedUint64) (value : U64)
  | uint64Clear (cell : StorageBackedUint64)
  | uint64Increment (cell : StorageBackedUint64)
  | uint64Decrement (cell : StorageBackedUint64)
  | bigUintGet (cell : StorageBackedBigUint)
  | bigUintSetChecked (cell : StorageBackedBigUint) (val : U256)
  | bigUintSetSaturating (cell : StorageBackedBigUint) (val : U256) (name : String)
  | bigIntGet (cell : StorageBackedBigInt)
  | bigIntSetChecked (cell : StorageBackedBigInt) (val : I256)
  | bigIntSetSaturating (cell : StorageBackedBigInt) (val : I256) (name : String)
  | bigIntSetPreVersion7 (cell : StorageBackedBigInt) (val : I256)
  | bigIntSetByUint (cell : StorageBackedBigInt) (val : U64)
  | addressGet (cell : StorageBackedAddress)
  | addressSet (cell : StorageBackedAddress) (val : Address)
  | addressOrNilGet (cell : StorageBackedAddressOrNil)
  | addressOrNilSet (cell : StorageBackedAddressOrNil) (val : Option Address)

/-- The program of the operation. -/
def CellOp.perform : CellOp → Exec OpenPosterResult OpResult
  | slotGet slot => slot.get.answer .word
  | slotSet slot value => (slot.set value).answerUnit
  | int64Get cell => cell.get.answer .int64
  | int64Set cell value => (cell.set value).answerUnit
  | bipsGet cell => cell.get.answer .int64
  | bipsSet cell value => (cell.set value).answerUnit
  | ubipsGet cell => cell.get.answer .uint64
  | ubipsSet cell value => (cell.set value).answerUnit
  | uint16Get cell => cell.get.answer .uint16
  | uint16Set cell value => (cell.set value).answerUnit
  | uint24Get cell => cell.get.answer .uint24
  | uint24Set cell value => (cell.set value).answerUnit
  | uint32Get cell => cell.get.answer .uint32
  | uint32Set cell value => (cell.set value).answerUnit
  | uint32Clear cell => cell.clear.answerUnit
  | uint64Get cell => cell.get.answer .uint64
  | uint64Set cell value => (cell.set value).answerUnit
  | uint64Clear cell => cell.clear.answerUnit
  | uint64Increment cell => cell.increment.answer .uint64
  | uint64Decrement cell => cell.decrement.answer .uint64
  | bigUintGet cell => cell.get.answer .word
  | bigUintSetChecked cell val => (cell.setChecked val).answerUnit
  | bigUintSetSaturating cell val name => (cell.setSaturatingWithWarning val name).answerUnit
  | bigIntGet cell => cell.get.answer .bigInt
  | bigIntSetChecked cell val => (cell.setChecked val).answerUnit
  | bigIntSetSaturating cell val name => (cell.setSaturatingWithWarning val name).answerUnit
  | bigIntSetPreVersion7 cell val => (cell.setPreVersion7 val).answerUnit
  | bigIntSetByUint cell val => (cell.setByUint val).answerUnit
  | addressGet cell => cell.get.answer .address
  | addressSet cell val => (cell.set val).answerUnit
  | addressOrNilGet cell => cell.get.answer .addressOrNil
  | addressOrNilSet cell val => (cell.set val).answerUnit

/-- An operation on a space. -/
inductive StorageOp where
  | readSlot (offset : U64)
  | writeSlot (offset : U64) (value : StorageValue)
  | getByKey (key : StorageKey)
  | setByKey (key : StorageKey) (value : StorageValue)
  | clearByKey (key : StorageKey)
  | getUint64ByKey (key : StorageKey)
  | getByUint64 (key : U64)
  | getUint64ByUint64 (key : U64)
  | set (key : StorageKey) (value : StorageValue)
  | setUint64 (key : StorageKey) (value : U64)
  | setByUint64 (key : U64) (value : StorageValue)
  | setUint64ByUint64 (key value : U64)
  | setUint32 (key : StorageKey) (value : U32)
  | setByUint32 (key : U32) (value : StorageValue)
  | clear (key : StorageKey)
  | clearByUint64 (key : U64)
  | swap (key : StorageKey) (newValue : StorageValue)
  | getBytesSize
  | getBytes
  | clearBytes
  | setBytes (b : Bytes)

/-- The program of the operation. -/
def StorageOp.perform [Keccak] (self : Storage) : StorageOp → Exec OpenPosterResult OpResult
  | readSlot offset => (self.readSlot offset).answer .word
  | writeSlot offset value => (self.writeSlot offset value).answerUnit
  | getByKey key => (self.getByKey key).answer .word
  | setByKey key value => (self.setByKey key value).answerUnit
  | clearByKey key => (self.clearByKey key).answerUnit
  | getUint64ByKey key => (self.getUint64ByKey key).answer .uint64
  | getByUint64 key => (self.getByUint64 key).answer .word
  | getUint64ByUint64 key => (self.getUint64ByUint64 key).answer .uint64
  | set key value => (self.set key value).answerUnit
  | setUint64 key value => (self.setUint64 key value).answerUnit
  | setByUint64 key value => (self.setByUint64 key value).answerUnit
  | setUint64ByUint64 key value => (self.setUint64ByUint64 key value).answerUnit
  | setUint32 key value => (self.setUint32 key value).answerUnit
  | setByUint32 key value => (self.setByUint32 key value).answerUnit
  | clear key => (self.clear key).answerUnit
  | clearByUint64 key => (self.clearByUint64 key).answerUnit
  | swap key newValue => (self.swap key newValue).answer .word
  | getBytesSize => self.getBytesSize.answer .uint64
  | getBytes => self.getBytes.answer .bytes
  | clearBytes => self.clearBytes.answerUnit
  | setBytes b => (self.setBytes b).answerUnit

/-- An operation on a byte string. -/
inductive BytesOp where
  | size
  | get
  | clear
  | set (b : Bytes)

/-- The program of the operation. -/
def BytesOp.perform [Keccak] (self : StorageBackedBytes) : BytesOp → Exec OpenPosterResult OpResult
  | size => self.size.answer .uint64
  | get => self.get.answer .bytes
  | clear => self.clear.answerUnit
  | set b => (self.set b).answerUnit

/-- An operation on a set of addresses. -/
inductive AddressSetOp where
  | initializeSet
  | size
  | isMember (addr : Address)
  | getAnyMember
  | clear
  | allMembers (max : U64)
  | clearList
  | rectifyMapping (addr : Address)
  | add (addr : Address)
  | remove (addr : Address) (arbosVersion : U64)

/-- The program of the operation, on the set in the space. -/
def AddressSetOp.perform [Keccak] (sto : Storage) : AddressSetOp → Exec OpenPosterResult OpResult
  | initializeSet => (AddressSet.initializeSet sto).answerUnit
  | size => (AddressSet.new sto).size.answer .uint64
  | isMember addr => ((AddressSet.new sto).isMember addr).answer .flag
  | getAnyMember => (AddressSet.new sto).getAnyMember.answer .addressOrNil
  | clear => (AddressSet.new sto).clear.answerUnit
  | allMembers max => ((AddressSet.new sto).allMembers max).answer .addresses
  | clearList => (AddressSet.new sto).clearList.answerUnit
  | rectifyMapping addr => ((AddressSet.new sto).rectifyMapping addr).answerUnit
  | add addr => ((AddressSet.new sto).add addr).answerUnit
  | remove addr arbosVersion => ((AddressSet.new sto).remove addr arbosVersion).answerUnit

/-- An operation on a vector of sub-spaces. -/
inductive VectorOp where
  | length
  | push
  | pop

/-- The program of the operation, on the vector in the space. -/
def VectorOp.perform [Keccak] (sto : Storage) : VectorOp → Exec OpenPosterResult OpResult
  | length => (SubStorageVector.open sto).length.answer .uint64
  | push => (SubStorageVector.open sto).push.answer .space
  | pop => (SubStorageVector.open sto).pop.answer .space

/-- An operation on the table of the batch posters, or on the record of a poster. -/
inductive PosterOp where
  | initializeTable
  | openPoster (poster : Address) (createIfNotExist : Bool)
  | containsPoster (poster : Address)
  | addPoster (posterAddress payTo : Address)
  | allPosters (maxNumToGet : U64)
  | totalFundsDue
  | getFundsDueList
  | fundsDue (poster : Address)
  | setFundsDue (poster : Address) (val : I256)
  | payTo (poster : Address)
  | setPayTo (poster addr : Address)

/-- The program of the operation, on the table in the space. -/
def PosterOp.perform [Keccak] (sto : Storage) : PosterOp → Exec OpenPosterResult OpResult
  | initializeTable => (BatchPostersTable.initializeTable sto).answerUnit
  | openPoster poster create =>
      ((BatchPostersTable.open sto).openPoster poster create).reply id .poster
  | containsPoster poster => ((BatchPostersTable.open sto).containsPoster poster).answer .flag
  | addPoster poster payee =>
      ((BatchPostersTable.open sto).addPoster poster payee).reply id .poster
  | allPosters maxNumToGet => ((BatchPostersTable.open sto).allPosters maxNumToGet).answer .addresses
  | totalFundsDue => (BatchPostersTable.open sto).totalFundsDue.answer .bigInt
  | getFundsDueList => (BatchPostersTable.open sto).getFundsDueList.reply id .fundsDue
  | fundsDue poster => ((BatchPostersTable.open sto).internalOpen poster).fundsDue.answer .bigInt
  | setFundsDue poster val =>
      (((BatchPostersTable.open sto).internalOpen poster).setFundsDue val).answerUnit
  | payTo poster => ((BatchPostersTable.open sto).internalOpen poster).payTo.answer .address
  | setPayTo poster addr =>
      (((BatchPostersTable.open sto).internalOpen poster).setPayTo addr).answerUnit

/-- A public operation, with the handle it is called on. -/
inductive Operation where
  | cell (op : CellOp)
  | storage (self : Storage) (op : StorageOp)
  | bytes (self : StorageBackedBytes) (op : BytesOp)
  | addressSet (sto : Storage) (op : AddressSetOp)
  | queueInitialize (sto : Storage)
  | queue (sto : Storage) (op : QueueOp)
  | vector (sto : Storage) (op : VectorOp)
  | posters (sto : Storage) (op : PosterOp)

/-- The program of the operation. -/
def Operation.perform [Keccak] : Operation → Exec OpenPosterResult OpResult
  | cell op => op.perform
  | storage self op => op.perform self
  | bytes self op => op.perform self
  | addressSet sto op => op.perform sto
  | queueInitialize sto => (Queue.initializeQueue sto).answerUnit
  | queue sto op => ((Queue.open sto).program op).answer .queue
  | vector sto op => op.perform sto
  | posters sto op => op.perform sto

/-! ### Operations on slots -/

/-- The program reaches the storage only through `StorageSlot::get`, `StorageSlot::set` and
`Storage::set`, and it issues no other command. -/
inductive Slotwise [Keccak] : ∀ {ε α : Type}, Exec ε α → Prop
  | get (slot : StorageSlot) : Slotwise slot.get
  | set (slot : StorageSlot) (v : StorageValue) : Slotwise (slot.set v)
  | setKey (self : Storage) (key : StorageKey) (v : StorageValue) : Slotwise (self.set key v)
  | done {ε α : Type} (a : α) : Slotwise (.done a : Exec ε α)
  | fail {ε α : Type} (e : ε) : Slotwise (.fail e : Exec ε α)
  | panic {ε α : Type} (m : String) : Slotwise (.panic m : Exec ε α)
  | bind {ε α β : Type} {p : Exec ε α} {q : α → Exec ε β} (hp : Slotwise p)
      (hq : ∀ a, Slotwise (q a)) : Slotwise (p >>= q)
  | mapErr {ε ε' α : Type} {p : Exec ε α} (hp : Slotwise p) (f : ε → ε') : Slotwise (p.mapErr f)

section
variable [Keccak]

namespace Slotwise
variable {ε α : Type}

/-- A branch is slotwise when both sides are. -/
theorem ite {c : Prop} [Decidable c] {p q : Exec ε α} (hp : Slotwise p) (hq : Slotwise q) :
    Slotwise (if c then p else q) := by
  split
  · exact hp
  · exact hq

/-- Another type for the error and the result. -/
theorem reply {ε' β : Type} {p : Exec ε α} (hp : Slotwise p) {err : ε → ε'} {result : α → β} :
    Slotwise (p.reply err result) :=
  (hp.mapErr err).bind fun a => .done (result a)

/-- A checked addition issues no command. -/
theorem checkedAdd {w : Nat} (x y : BitVec w) : Slotwise (checkedAdd x y : Exec ε (BitVec w)) :=
  .ite (.done _) (.panic _)

/-- A checked subtraction issues no command. -/
theorem checkedSub {w : Nat} (x y : BitVec w) : Slotwise (checkedSub x y : Exec ε (BitVec w)) :=
  .ite (.done _) (.panic _)

end Slotwise

/-- A typed read is one read of the slot. -/
theorem StorageSlot.getWord_slotwise (self : StorageSlot) (bound : Nat) (msg : String) :
    Slotwise (self.getWord bound msg) := by
  refine (Slotwise.get self).bind ?_
  intro raw
  cases U64.tryFrom raw with
  | none => exact .panic msg
  | some v => exact .ite (.panic msg) (.done v)

namespace StorageBackedUint64
variable (self : StorageBackedUint64)

/-- The read of a 64-bit cell is one read of its slot. -/
theorem get_slotwise : Slotwise self.get := self.slot.getWord_slotwise _ _

/-- The write of a 64-bit cell is one write of its slot. -/
theorem set_slotwise (v : U64) : Slotwise (self.set v) := .set self.slot _

/-- An increment reads the slot and writes it. -/
theorem increment_slotwise : Slotwise self.increment :=
  self.get_slotwise.bind fun _ => .ite (.panic _) ((self.set_slotwise _).bind fun _ => .done _)

/-- A decrement reads the slot and writes it. -/
theorem decrement_slotwise : Slotwise self.decrement :=
  self.get_slotwise.bind fun _ => .ite (.panic _) ((self.set_slotwise _).bind fun _ => .done _)

end StorageBackedUint64

/-- All operations on a slot or a cell are operations on slots. -/
theorem CellOp.perform_slotwise (op : CellOp) : Slotwise op.perform := by
  cases op with
  | slotGet _ | bigUintGet _ => exact (Slotwise.get _).reply
  | int64Get _ | bipsGet _ | ubipsGet _ | uint64Get _ =>
      exact (StorageSlot.getWord_slotwise _ _ _).reply
  | uint16Get _ | uint24Get _ | uint32Get _ =>
      exact ((StorageSlot.getWord_slotwise _ _ _).bind fun _ => .done _).reply
  | bigIntGet _ | addressGet _ => exact ((Slotwise.get _).bind fun _ => .done _).reply
  | addressOrNilGet _ =>
      exact ((Slotwise.get _).bind fun _ => .ite (.done _) (.done _)).reply
  | uint64Increment cell => exact cell.increment_slotwise.reply
  | uint64Decrement cell => exact cell.decrement_slotwise.reply
  | slotSet _ _ | int64Set _ _ | bipsSet _ _ | ubipsSet _ _ | uint16Set _ _ | uint24Set _ _
  | uint32Set _ _ | uint32Clear _ | uint64Set _ _ | uint64Clear _ | bigUintSetChecked _ _
  | bigUintSetSaturating _ _ _ | bigIntSetChecked _ _ | bigIntSetSaturating _ _ _
  | bigIntSetPreVersion7 _ _ | bigIntSetByUint _ _ | addressSet _ _ =>
      exact (Slotwise.set _ _).reply
  | addressOrNilSet cell v =>
      cases v with
      | none => exact (Slotwise.set _ _).reply
      | some addr => exact (Slotwise.set _ _).reply

/-- So are the operations on the length of a vector. -/
theorem VectorOp.perform_slotwise (sto : Storage) (op : VectorOp) : Slotwise (op.perform sto) := by
  cases op with
  | length => exact (StorageBackedUint64.get_slotwise _).reply
  | push =>
      exact ((StorageBackedUint64.get_slotwise _).bind fun _ => (Slotwise.checkedAdd _ _).bind
        fun next => (StorageBackedUint64.set_slotwise _ next).bind fun _ => .done _).reply
  | pop =>
      exact ((StorageBackedUint64.get_slotwise _).bind fun _ => .ite (.panic _)
        ((StorageBackedUint64.set_slotwise _ _).bind fun _ => .done _)).reply

namespace Queue

/-- The initialization of a queue writes its two counters. -/
theorem initializeQueue_slotwise (sto : Storage) : Slotwise (initializeQueue sto) :=
  (Slotwise.setKey sto _ _).bind fun _ => .setKey sto _ _

variable (self : Queue)

/-- `isEmpty` reads the two counters. -/
theorem isEmpty_slotwise : Slotwise self.isEmpty :=
  self.nextPutOffset.get_slotwise.bind fun _ => self.nextGetOffset.get_slotwise.bind fun _ =>
    .done _

/-- `size` reads the two counters. -/
theorem size_slotwise : Slotwise self.size :=
  self.nextPutOffset.get_slotwise.bind fun _ => self.nextGetOffset.get_slotwise.bind fun _ =>
    .checkedSub _ _

/-- `shift` reads the counters, and writes both back when the queue is empty. -/
theorem shift_slotwise : Slotwise self.shift := by
  refine self.nextPutOffset.get_slotwise.bind fun put => ?_
  refine self.nextGetOffset.get_slotwise.bind fun get => .ite (.done _) ?_
  -- an empty queue starts again at the offset 2
  refine (self.nextGetOffset.set_slotwise 2).bind fun _ => ?_
  exact (self.nextPutOffset.set_slotwise 2).bind fun _ => .done _

/-- `put` moves the counter and writes the element. -/
theorem put_slotwise (val : StorageValue) : Slotwise (self.put val) :=
  self.nextPutOffset.increment_slotwise.bind fun _ => (Slotwise.checkedSub _ _).bind fun _ =>
    .setKey self.storage _ _

end Queue

/-- The initialization of the table writes its total and its set. -/
theorem BatchPostersTable.initializeTable_slotwise (sto : Storage) :
    Slotwise (initializeTable sto) :=
  (Slotwise.set _ _).bind fun _ => .setKey _ _ _

/-- The setter reads both amounts and writes both. -/
theorem BatchPosterState.setFundsDue_slotwise (self : BatchPosterState) (val : I256) :
    Slotwise (self.setFundsDue val) := by
  refine ((Slotwise.get _).bind fun _ => .done _).bind fun prev => ?_
  refine ((Slotwise.get _).bind fun _ => .done _).bind fun prevTotal => ?_
  exact (Slotwise.set _ _).bind fun _ => .set _ _

end

end ArbReth
