import ArbReth.Clamp
import ArbReth.Program.Coherent
import ArbReth.Proofs.Storage.Footprint
import ArbReth.Proofs.Storage.Metering

/-!
# `ArbReth.Proofs.Storage.GasUsed`: the gas of a whole run

The commands of a run charge the burner one after the other, and each charge is clamped.
`SystemBurner.charged` is a single charge of an amount of any size. `counter_runOps` says
that a run leaves the counter as one charge of all its storage gas does, also when some of
its operations fail or panic.

## Which burner is meant

Every handle of the source owns its burner, and a handle that is derived from another one
gets a clone of that burner. `SystemBurner` has its counter in a cell of its own and is no
`Clone`, so it does not serve more than one handle. The burners that do are those whose
clones share one counter. `Burner.SharesCounter counter` is what is assumed of them: seen
through `counter`, a charge is a charge of `SystemBurner`, and `read_only` answers as that
counter does. The machine has one burner, which stands for the counter that all its
handles share.

## What is counted

`Operation.perform_withinDue` says that no operation charges more than what is due for its
accesses, and `Operation.settlesOn_iff` when it charges all of it. The rules for sequences
carry both to a run. `Operation.run_gas` puts them together, and adds that the gas has no
influence on the run: a burner that counts nothing gives the same results and errors.
-/

set_option autoImplicit false

namespace ArbReth

open ArbReth.Program ArbReth.Program.Prog

/-! ### One charge of a sum -/

/-- The number as a counter holds it, at most the maximum. -/
def U64.clamp (amount : Nat) : U64 := BitVec.ofNat 64 (min amount (2 ^ 64 - 1))

namespace SystemBurner

/-- The burner after one charge of `amount` of storage gas, which is clamped first. -/
def charged (self : SystemBurner) (amount : Nat) : SystemBurner :=
  self.burn .storageAccess (U64.clamp amount)

/-- A clamped amount is added as the amount is. -/
theorem toNat_saturatingAdd_clamp (x : U64) (amount : Nat) :
    (saturatingAdd x (U64.clamp amount)).toNat = min (x.toNat + amount) (2 ^ 64 - 1) := by
  rw [toNat_saturatingAdd, U64.clamp, BitVec.toNat_ofNat]
  omega

/-- Nothing is added by a charge of zero. -/
theorem saturatingAdd_clamp_zero (x : U64) : saturatingAdd x (U64.clamp 0) = x := by
  apply BitVec.eq_of_toNat_eq
  rw [toNat_saturatingAdd_clamp]
  exact Nat.min_eq_left (Nat.le_pred_of_lt x.isLt)

/-- The clamps of two charges are one. -/
theorem saturatingAdd_saturatingAdd_clamp (x y : U64) (amount : Nat) :
    saturatingAdd (saturatingAdd x y) (U64.clamp amount)
      = saturatingAdd x (U64.clamp (y.toNat + amount)) := by
  apply BitVec.eq_of_toNat_eq
  rw [toNat_saturatingAdd_clamp, toNat_saturatingAdd_clamp, toNat_saturatingAdd]
  omega

/-- A charge of zero leaves the counter. -/
@[simp] theorem charged_zero (self : SystemBurner) : self.charged 0 = self := by
  simp [charged, burn, MultiGas.saturatingIncrementInto, saturatingAdd_clamp_zero]

/-- A charge before another is an addend of it. -/
theorem charged_burn (self : SystemBurner) (x : U64) (amount : Nat) :
    (self.burn .storageAccess x).charged amount = self.charged (x.toNat + amount) := by
  simp [charged, burn, MultiGas.saturatingIncrementInto, saturatingAdd_saturatingAdd_clamp]

end SystemBurner

/-! ### The counter of a run -/

/-- The clones of the burner share one counter. A charge of any of them is a charge of
`SystemBurner` on it, and it tells whether writes are refused. -/
structure Burner.SharesCounter {B : Type} [Burner B] (counter : B → SystemBurner) : Prop where
  burn : ∀ b kind amount, counter (Burner.burn b kind amount) = (counter b).burn kind amount
  readOnly : ∀ b, Burner.readOnly b = (counter b).readOnly

/-- The counter behind the shared reference is itself such a burner. -/
theorem SystemBurner.sharesCounter : Burner.SharesCounter (id : SystemBurner → SystemBurner) where
  burn _ _ _ := rfl
  readOnly _ := rfl

/-- The counter as a memory, which the charges change. Each answer agrees with it. -/
def gasMemory : Memory Resp SystemBurner where
  Agrees _ _ := True
  next b
    | ⟨.burn kind amount, _⟩ => b.burn kind amount
    | _ => b

/-- A charge of the storage is one of storage gas. -/
def StorageGas (e : Event Resp) : Prop :=
  ∀ kind amount, e.1 = .burn kind amount → kind = .storageAccess

/-- Charges of storage gas leave the counter as one charge of their sum does. -/
theorem foldl_gasMemory {es : List (Event Resp)} (hes : ∀ e ∈ es, StorageGas e)
    (b : SystemBurner) : es.foldl gasMemory.next b = b.charged (es.map charge).sum := by
  induction es generalizing b with
  | nil => simp
  | cons e es ih =>
      have hrest := ih fun e' he' => hes e' (List.mem_cons_of_mem e he')
      rw [List.foldl_cons, hrest, List.map_cons, List.sum_cons]
      obtain ⟨c, r⟩ := e
      cases c with
      | burn kind amount =>
          obtain rfl := hes _ List.mem_cons_self kind amount rfl
          exact b.charged_burn amount _
      | _ => exact congrArg _ (Nat.zero_add _).symm

section
variable {σ B : Type} [Context σ] [Burner B] {counter : B → SystemBurner}
  (hcounter : Burner.SharesCounter counter)
include hcounter

/-- Only the charges change the counter. -/
theorem gasMemory_tracks :
    gasMemory.Tracks (Machine.handle : Handler Resp (Machine σ B)) fun m => counter m.burner := by
  intro c m
  cases c with
  | burn kind amount => exact hcounter.burn m.burner kind amount
  | _ => rfl

/-- A run of operations that charge storage gas leaves the counter as one charge of their
sum does. -/
theorem counter_runOps {Op ε ρ : Type} {step : Op → Exec ε ρ}
    (hstep : ∀ op (m : Machine σ B), ∀ e ∈ (step op).trace Machine.handle m, StorageGas e)
    (ops : List Op) (m : Machine σ B) :
    counter (runOps Machine.handle step ops m).2.burner
      = (counter m.burner).charged (weighOps charge Machine.handle step ops m) := by
  rw [(gasMemory_tracks hcounter).runOps, foldl_gasMemory (forall_mem_traceOps hstep ops m)]
  rfl

end

/-! ### A burner that counts nothing -/

/-- A burner that counts nothing. -/
structure FreeBurner where
  readOnly : Bool

instance : Burner FreeBurner where
  burn b _ _ := b
  readOnly := FreeBurner.readOnly

namespace Machine
variable {σ B : Type} [Context σ] [Burner B]

/-- The machine without its counter. -/
def free (m : Machine σ B) : Machine σ FreeBurner where
  context := m.context
  burner := ⟨Burner.readOnly m.burner⟩

variable {counter : B → SystemBurner} (hcounter : Burner.SharesCounter counter)
include hcounter

omit [Context σ] in
/-- A charge has no influence on whether writes are refused. -/
theorem free_charge (m : Machine σ B) (kind : ResourceKind) (amount : U64) :
    (m.charge kind amount).free = m.free := by
  have hreadOnly : Burner.readOnly (Burner.burn m.burner kind amount)
      = Burner.readOnly m.burner := by
    rw [hcounter.readOnly, hcounter.burn, hcounter.readOnly]
    rfl
  rw [free, charge, hreadOnly, free]

/-- Counting has no influence on the answers. -/
theorem handle_free (c : Cmd) (m : Machine σ B) :
    handle c m.free = ((handle c m).1, (handle c m).2.free) := by
  cases c with
  | burn kind amount => exact Prod.ext rfl (free_charge hcounter m kind amount).symm
  | _ => rfl

/-- A run has the same results and ends in the same context when nothing is counted. -/
theorem runOps_free {Op ε ρ : Type} (step : Op → Exec ε ρ) (ops : List Op) (m : Machine σ B) :
    runOps handle step ops m.free
      = ((runOps handle step ops m).1, (runOps handle step ops m).2.free) :=
  Memory.runOps_of_coherent (gasMemory_tracks hcounter) free
    (fun c m _ => handle_free hcounter c m) step ops m
    (gasMemory.coherent_of_agrees (fun _ _ => trivial) _ _)

end Machine

/-! ### No operation charges too much -/

section
variable {σ B : Type} [Context σ] [Burner B]

/-- What an operation is made to reply has no part in what it charges. -/
theorem withinDue_reply {ε ε' α β : Type} {p : Exec ε α} {err : ε → ε'} {result : α → β}
    (hp : WithinDue σ B p) : WithinDue σ B (Exec.reply p err result) := by
  intro m
  rw [Exec.weigh_reply, Exec.weigh_reply]
  exact hp m

/-- An operation that always charges too little does not charge too much. -/
theorem withinDue_of_underpays {ε ε' α β : Type} {p : Exec ε α} {err : ε → ε'} {result : α → β}
    (hp : ∀ m : Machine σ B, Underpays p m) : WithinDue σ B (Exec.reply p err result) :=
  withinDue_reply fun m => Nat.le_of_lt (hp m)

variable [Keccak]

/-- An operation that only uses the accessors of a slot charges what is due. -/
theorem withinDue_of_slotwise {ε ε' α β : Type} {p : Exec ε α} {err : ε → ε'} {result : α → β}
    (hp : Slotwise p) : WithinDue σ B (Exec.reply p err result) :=
  withinDue_reply hp.withinDue

namespace AddressSet
variable {self : AddressSet}

/-- The read of the first member is not paid for, and nothing else is read for free. -/
theorem getAnyMember_withinDue : WithinDue σ B self.getAnyMember := by
  refine self.sizeCell.get_slotwise.withinDue.bind ?_
  intro n
  refine .ite (WeighsEq.done none).le ?_
  refine (storage_withinDue _ _).bind ?_
  intro word
  exact (WeighsEq.ite (.done _) (.done _)).le

/-- A round of the loop of `clear` pays for none of its accesses. -/
theorem clear_withinDue : WithinDue σ B self.clear := by
  have hround : ∀ i : Nat, WithinDue σ B (do
      let contents ← self.backingStorage.readSlot (BitVec.ofNat 64 i)
      self.backingStorage.writeSlot (BitVec.ofNat 64 i) 0
      self.byAddress.clearByKey contents) := by
    intro i
    refine (storage_withinDue _ _).bind ?_
    intro contents
    refine (sstore_withinDue _ _ _).bind ?_
    intro _
    exact sstore_withinDue _ _ _
  refine self.sizeCell.get_slotwise.withinDue.bind ?_
  intro n
  refine .ite (WeighsEq.done ()).le ?_
  refine (WeighsLe.forRange hround 1 _).bind ?_
  intro _
  exact (self.sizeCell.set_slotwise 0).withinDue

/-- Nor does a round of the loop of `clear_list`. -/
theorem clearList_withinDue : WithinDue σ B self.clearList := by
  refine self.sizeCell.get_slotwise.withinDue.bind ?_
  intro n
  refine .ite (WeighsEq.done ()).le ?_
  refine (WeighsLe.forRange (fun _ => sstore_withinDue _ _ _) 1 _).bind ?_
  intro _
  exact (self.sizeCell.set_slotwise 0).withinDue

end AddressSet

namespace Queue
variable {self : Queue}

/-- The queue pays for its two offsets. The element is read for free. -/
theorem peek_withinDue : WithinDue σ B self.peek := by
  refine self.isEmpty_slotwise.withinDue.bind ?_
  intro empty
  refine .ite (WeighsEq.done none).le ?_
  refine self.nextGetOffset.get_slotwise.withinDue.bind ?_
  intro offset
  refine (storage_withinDue _ _).bind ?_
  intro word
  exact (WeighsEq.done _).le

/-- The element is swapped out of its slot, and only the write of the swap is paid for. -/
theorem get_withinDue : WithinDue σ B self.get := by
  have hswap : ∀ key v, WithinDue σ B (self.storage.swap key v) := fun key v m =>
    Nat.le_of_lt (self.storage.swap_underpays key v m)
  refine self.isEmpty_slotwise.withinDue.bind ?_
  intro empty
  refine .ite (WeighsEq.done none).le ?_
  refine self.nextGetOffset.increment_slotwise.withinDue.bind ?_
  intro next
  refine (Slotwise.checkedSub _ _).withinDue.bind ?_
  intro offset
  refine (hswap _ _).bind ?_
  intro old
  exact (WeighsEq.done _).le

/-- The loop reads its elements for free. -/
theorem forEach_withinDue {γ : Type} (closure : γ → U64 → StorageValue → Except DbError Bool × γ)
    (g : γ) : WithinDue σ B (self.forEach closure g) := by
  refine self.size_slotwise.withinDue.bind ?_
  intro size
  refine self.nextGetOffset.get_slotwise.withinDue.bind ?_
  intro offset
  exact forEachFrom_withinDue closure _ 0 _ g

end Queue

/-- The list of the members is read for free. Each record pays for its own slot. -/
theorem BatchPostersTable.getFundsDueList_withinDue (self : BatchPostersTable) :
    WithinDue σ B self.getFundsDueList := by
  refine ((AddressSet.allMembers_withinDue _).mapErr _).bind ?_
  intro posters
  exact fundsDueItems_withinDue posters

/-- An operation of a space stays within the gas due. -/
theorem StorageOp.perform_withinDue (self : Storage) (op : StorageOp) :
    WithinDue σ B (op.perform self) := by
  cases op with
  | readSlot _ | getByKey _ | getByUint64 _ => exact withinDue_reply (storage_withinDue _ _)
  | writeSlot _ _ | setByKey _ _ | clearByKey _ => exact withinDue_reply (sstore_withinDue _ _ _)
  | getUint64ByKey _ | getUint64ByUint64 _ =>
      exact withinDue_of_underpays (self.getUint64ByKey_underpays _)
  | set _ _ | setUint64 _ _ | setByUint64 _ _ | setUint64ByUint64 _ _ | setUint32 _ _
  | setByUint32 _ _ | clear _ | clearByUint64 _ =>
      exact withinDue_of_slotwise (.setKey self _ _)
  | swap key v => exact withinDue_of_underpays (self.swap_underpays key v)
  | getBytesSize => exact withinDue_of_underpays self.getBytesSize_underpays
  | getBytes => exact withinDue_of_underpays self.getBytes_underpays
  | clearBytes => exact withinDue_of_underpays self.clearBytes_underpays
  | setBytes b => exact withinDue_of_underpays (self.setBytes_underpays b)

/-- An operation of a byte string stays within the gas due. -/
theorem BytesOp.perform_withinDue (self : StorageBackedBytes) (op : BytesOp) :
    WithinDue σ B (op.perform self) := by
  cases op with
  | size => exact withinDue_of_underpays self.storage.getBytesSize_underpays
  | get => exact withinDue_of_underpays self.storage.getBytes_underpays
  | clear => exact withinDue_of_underpays self.storage.clearBytes_underpays
  | set b => exact withinDue_of_underpays (self.storage.setBytes_underpays b)

/-- An operation of an address set stays within the gas due. -/
theorem AddressSetOp.perform_withinDue (sto : Storage) (op : AddressSetOp) :
    WithinDue σ B (op.perform sto) := by
  cases op with
  | initializeSet => exact withinDue_of_slotwise (.setKey sto _ _)
  | size => exact withinDue_of_slotwise (StorageBackedUint64.get_slotwise _)
  | isMember addr => exact withinDue_of_underpays ((AddressSet.new sto).isMember_underpays addr)
  | getAnyMember => exact withinDue_reply AddressSet.getAnyMember_withinDue
  | clear => exact withinDue_reply AddressSet.clear_withinDue
  | allMembers max => exact withinDue_reply (AddressSet.allMembers_withinDue max)
  | clearList => exact withinDue_reply AddressSet.clearList_withinDue
  | rectifyMapping addr =>
      exact withinDue_of_underpays ((AddressSet.new sto).rectifyMapping_underpays addr)
  | add addr => exact withinDue_of_underpays ((AddressSet.new sto).add_underpays addr)
  | remove addr version =>
      exact withinDue_of_underpays ((AddressSet.new sto).remove_underpays addr version)

/-- An operation of a queue stays within the gas due. -/
theorem QueueOp.perform_withinDue (sto : Storage) (op : QueueOp) :
    WithinDue σ B (((Queue.open sto).program op).answer .queue) := by
  cases op with
  | put val => exact withinDue_of_slotwise ((Queue.put_slotwise _ val).bind fun _ => .done _)
  | get => exact withinDue_reply (Queue.get_withinDue.bind fun _ => (WeighsEq.done _).le)
  | peek => exact withinDue_reply (Queue.peek_withinDue.bind fun _ => (WeighsEq.done _).le)
  | shift => exact withinDue_of_slotwise ((Queue.shift_slotwise _).bind fun _ => .done _)
  | size => exact withinDue_of_slotwise ((Queue.size_slotwise _).bind fun _ => .done _)
  | isEmpty => exact withinDue_of_slotwise ((Queue.isEmpty_slotwise _).bind fun _ => .done _)
  | forEach answer =>
      exact withinDue_reply ((Queue.forEach_withinDue _ _).bind fun _ => (WeighsEq.done _).le)

/-- An operation of the poster table stays within the gas due. -/
theorem PosterOp.perform_withinDue (sto : Storage) (op : PosterOp) :
    WithinDue σ B (op.perform sto) := by
  cases op with
  | initializeTable => exact withinDue_of_slotwise (BatchPostersTable.initializeTable_slotwise sto)
  | openPoster poster create =>
      exact withinDue_of_underpays (BatchPostersTable.openPoster_underpays poster create)
  | containsPoster poster => exact withinDue_of_underpays (AddressSet.isMember_underpays _ poster)
  | addPoster poster payee =>
      exact withinDue_of_underpays (BatchPostersTable.addPoster_underpays poster payee)
  | allPosters max => exact withinDue_reply (AddressSet.allMembers_withinDue max)
  | getFundsDueList => exact withinDue_reply (BatchPostersTable.getFundsDueList_withinDue _)
  | totalFundsDue | fundsDue _ | payTo _ =>
      exact withinDue_of_slotwise ((Slotwise.get _).bind fun _ => .done _)
  | setFundsDue poster val =>
      exact withinDue_of_slotwise (BatchPosterState.setFundsDue_slotwise _ val)
  | setPayTo poster addr => exact withinDue_of_slotwise (.set _ _)

/-- No operation charges more than what is due. -/
theorem Operation.perform_withinDue (op : Operation) : WithinDue σ B op.perform := by
  cases op with
  | cell op => exact op.perform_slotwise.withinDue
  | storage self op => exact op.perform_withinDue self
  | bytes self op => exact op.perform_withinDue self
  | addressSet sto op => exact op.perform_withinDue sto
  | queueInitialize sto => exact withinDue_of_slotwise (Queue.initializeQueue_slotwise sto)
  | queue sto op => exact op.perform_withinDue sto
  | vector sto op => exact (op.perform_slotwise sto).withinDue
  | posters sto op => exact op.perform_withinDue sto

/-- When an operation charges all that is due. -/
theorem Operation.settlesOn_iff (op : Operation) (m : Machine σ B) :
    SettlesOn op.perform m ↔ op.Metered m := by
  cases op with
  | cell op => exact iff_of_true (op.perform_slotwise.settles m) trivial
  | storage self op => exact op.settlesOn_iff self
  | bytes self op => exact op.settlesOn_iff self
  | addressSet sto op => exact op.settlesOn_iff sto
  | queueInitialize sto => exact settlesOn_of_slotwise (Queue.initializeQueue_slotwise sto)
  | queue sto op => exact op.settlesOn_iff sto
  | vector sto op => exact iff_of_true ((op.perform_slotwise sto).settles m) trivial
  | posters sto op => exact op.settlesOn_iff sto

end

/-! ### The gas of a run -/

section
variable [Keccak] {σ B : Type} [Context σ] [Burner B]

/-- All charges of an operation are charges of storage gas. -/
theorem Operation.storageGas (op : Operation) (m : Machine σ B) :
    ∀ e ∈ op.perform.trace Machine.handle m, StorageGas e := by
  intro e he kind amount hc
  have hallowed := op.perform_reaches.forall_mem_trace m e he
  rw [hc] at hallowed
  exact hallowed

/-- Any public operations of the storage, on any context and any burner whose clones share
one counter, in a run where each of them may return, fail or panic. The counter ends as by
one charge of all the storage gas of the run, clamped once. This is at most what is due for
the accesses of the run, and it is all of it exactly when each operation is metered in the
state it starts from. A burner that counts nothing gives the same results and errors, and
the same context. -/
theorem Operation.run_gas {counter : B → SystemBurner} (hcounter : Burner.SharesCounter counter)
    (ops : List Operation) (m : Machine σ B) :
    let run := runOps Machine.handle Operation.perform ops m
    let spent := weighOps charge Machine.handle Operation.perform ops m
    let owed := weighOps due Machine.handle Operation.perform ops m
    counter run.2.burner = (counter m.burner).charged spent
      ∧ ((counter run.2.burner).gasBurnt.get .storageAccess).toNat
        = min (((counter m.burner).gasBurnt.get .storageAccess).toNat + spent) (2 ^ 64 - 1)
      ∧ (counter run.2.burner).gasBurnt.total.toNat
        = min ((counter m.burner).gasBurnt.total.toNat + spent) (2 ^ 64 - 1)
      ∧ spent ≤ owed
      ∧ (spent = owed ↔ ForallOps Machine.handle Operation.perform (fun m op => op.Metered m) ops m)
      ∧ runOps Machine.handle Operation.perform ops m.free = (run.1, run.2.free) := by
  intro run spent owed
  have hburner : counter run.2.burner = (counter m.burner).charged spent :=
    counter_runOps hcounter (fun op m => op.storageGas m) ops m
  have hle : ∀ op : Operation, WithinDue σ B op.perform := Operation.perform_withinDue
  refine ⟨hburner, ?_, ?_, weighOps_le hle ops m, ?_, Machine.runOps_free hcounter _ ops m⟩
  · rw [hburner]
    exact SystemBurner.toNat_saturatingAdd_clamp _ _
  · rw [hburner]
    exact SystemBurner.toNat_saturatingAdd_clamp _ _
  · exact weighOps_eq_iff hle (fun m op => op.settlesOn_iff m) ops m

end

section
attribute [local instance] sampleHash

/-- An increment on the empty database reads a slot and writes one, and reports the new
number. A test for membership reads a slot that nobody pays for. -/
theorem Operation.run_gas_sample :
    let ops := [Operation.cell (.uint64Increment (sampleRoot.openStorageBackedUint64 0)),
      .addressSet sampleRoot (.isMember 7)]
    let run := runOps Machine.handle Operation.perform ops (Machine.blank false)
    run.1 = [.ok (.uint64 1), .ok (.flag false)]
      ∧ run.2.burner.gasBurnt.total = 20800
      ∧ weighOps due Machine.handle Operation.perform ops (Machine.blank false) ≠ 20800
      ∧ (runOps Machine.handle Operation.perform ops (Machine.blank false).free).1 = run.1 := by
  intro ops run
  obtain ⟨hcounter, -, -, -, -, hfree⟩ :=
    run_gas SystemBurner.sharesCounter ops (Machine.blank false)
  refine ⟨by decide +kernel, ?_, by decide +kernel, congrArg Prod.fst hfree⟩
  have hspent : weighOps charge Machine.handle Operation.perform ops (Machine.blank false)
      = 20800 := by
    decide +kernel
  rw [hspent] at hcounter
  exact congrArg (fun b => b.gasBurnt.total) hcounter

end

end ArbReth
