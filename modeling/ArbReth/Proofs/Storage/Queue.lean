import ArbReth.Program.Realizes
import ArbReth.Proofs.Storage.Cells
import ArbReth.Storage.Queue
import ArbReth.Storage.SampleHash

/-!
# `ArbReth.Proofs.Storage.Queue`: the queue is a list

`Fifo` is the abstract queue: the list of the elements, oldest first, and the number
of `put` calls since the offsets were reset. The offsets follow from the two:
`nextPut` is `2 + puts`, and `nextGet` is as far behind it as the list is long.

`Fifo.Represents` ties a store to an abstract queue. The slots 0 and 1 hold the
offsets. Every data slot, that is every slot from 2 on, holds the word
`Fifo.slotValue`: an element between the offsets, and zero outside. So no stale
element is left behind that a later reset of the offsets could bring back.

The only bound is on the number of `put` calls between resets: `increment` panics at
the largest `u64`. `Queue.runOps_eq_specOps` proves that any sequence of operations
within the bound answers as the list does.
-/

set_option autoImplicit false

namespace ArbReth

open ArbReth.Program

/-! ### The abstract queue -/

/-- A list of elements, oldest first, and the number of elements put since the last
reset of the offsets. -/
structure Fifo where
  items : List StorageValue
  puts : Nat
deriving DecidableEq

/-- An operation on a queue. The closure of `forEach` answers from the list of the
pairs it has been called on, the last one included. -/
inductive QueueOp where
  | put (val : StorageValue)
  | get
  | peek
  | shift
  | size
  | isEmpty
  | forEach (answer : List (U64 × StorageValue) → Except DbError Bool)

/-- The result of an operation. -/
inductive QueueAnswer where
  | unit
  | value (val : Option StorageValue)
  | flag (b : Bool)
  | number (n : U64)
  | visited (pairs : List (U64 × StorageValue))
deriving DecidableEq

namespace Fifo

/-- The queue after its initialization. -/
def empty : Fifo := { items := [], puts := 0 }

/-- The elements from the index `first` on, with their indices. -/
def indexed (first : Nat) : List StorageValue → List (U64 × StorageValue)
  | [] => []
  | v :: vs => (BitVec.ofNat 64 first, v) :: indexed (first + 1) vs

/-- Visit the pairs in order until the closure answers `true` or fails. The result is
the list of the visited pairs. -/
def visit (answer : List (U64 × StorageValue) → Except DbError Bool) :
    (visited rest : List (U64 × StorageValue)) → Outcome DbError (List (U64 × StorageValue))
  | visited, [] => .ok visited
  | visited, pair :: rest =>
      match answer (visited ++ [pair]) with
      | .error e => .err e
      | .ok true => .ok (visited ++ [pair])
      | .ok false => visit answer (visited ++ [pair]) rest

/-- The meaning of the operations on the list. -/
def apply : QueueOp → Fifo → Outcome DbError QueueAnswer × Fifo
  | .put val, f => (.ok .unit, { items := f.items ++ [val], puts := f.puts + 1 })
  | .get, f => (.ok (.value f.items.head?), { f with items := f.items.tail })
  | .peek, f => (.ok (.value f.items.head?), f)
  | .shift, f => (.ok (.flag f.items.isEmpty), if f.items = [] then empty else f)
  | .size, f => (.ok (.number (BitVec.ofNat 64 f.items.length)), f)
  | .isEmpty, f => (.ok (.flag f.items.isEmpty), f)
  | .forEach answer, f =>
      match visit answer [] (indexed 0 f.items) with
      | .ok pairs => (.ok (.visited pairs), f)
      | .err e => (.err e, f)
      | .panic m => (.panic m, f)

/-- There is room for one more `put` before the offset leaves the range of `u64`. -/
def HasRoom (f : Fifo) (op : QueueOp) : Prop :=
  ∀ val, op = .put val → f.puts + 1 < 2 ^ 64 - 2

/-- The offset of the element that is put next. -/
def nextPut (f : Fifo) : Nat := 2 + f.puts

/-- The offset of the oldest element. -/
def nextGet (f : Fifo) : Nat := 2 + f.puts - f.items.length

/-- The read counter is not ahead of the write counter. -/
theorem nextGet_le (f : Fifo) : f.nextGet ≤ f.nextPut := by
  unfold nextGet nextPut
  omega

/-- The word in the data slot `i`. -/
def slotValue (f : Fifo) (i : Nat) : StorageValue :=
  if f.nextGet ≤ i then (f.items[i - f.nextGet]?).getD 0 else 0

/-- Outside the two offsets the data slots are zero. -/
theorem slotValue_of_outside {f : Fifo} (hlen : f.items.length ≤ f.puts) {i : Nat}
    (h : i < f.nextGet ∨ f.nextPut ≤ i) : f.slotValue i = 0 := by
  unfold slotValue
  unfold nextGet nextPut at *
  split
  · rw [List.getElem?_eq_none (by omega)]
    rfl
  · rfl

/-- Appending an element changes the slot at `nextPut` only. -/
theorem slotValue_put {f : Fifo} (hlen : f.items.length ≤ f.puts) (val : StorageValue) (i : Nat) :
    ({ items := f.items ++ [val], puts := f.puts + 1 } : Fifo).slotValue i
      = if i = f.nextPut then val else f.slotValue i := by
  have hget : ({ items := f.items ++ [val], puts := f.puts + 1 } : Fifo).nextGet = f.nextGet := by
    simp only [nextGet, List.length_append, List.length_singleton]
    omega
  unfold slotValue
  rw [hget]
  by_cases hi : i = f.nextPut
  -- the slot at the offset lies right after the last element
  · have hidx : i - f.nextGet = f.items.length := by
      simp only [hi, nextPut, nextGet]
      omega
    rw [if_pos hi, if_pos (by simp only [hi, nextPut, nextGet]; omega), hidx]
    simp
  · rw [if_neg hi]
    split
    · -- any other slot is before it, or behind it and zero
      rename_i hle
      have hne : i - f.nextGet ≠ f.items.length := by
        simp only [nextPut, nextGet] at hi hle ⊢
        omega
      congr 1
      rcases Nat.lt_or_gt_of_ne hne with hlt | hgt
      · rw [List.getElem?_append_left hlt]
      · rw [List.getElem?_eq_none (by simp; omega), List.getElem?_eq_none (by omega)]
    · rfl

/-- Taking the oldest element clears the slot at `nextGet` only. -/
theorem slotValue_get {f : Fifo} (hlen : f.items.length ≤ f.puts) (hne : f.items ≠ []) (i : Nat) :
    ({ f with items := f.items.tail } : Fifo).slotValue i
      = if i = f.nextGet then 0 else f.slotValue i := by
  obtain ⟨x, xs, hitems⟩ := List.exists_cons_of_ne_nil hne
  have hlen' : xs.length + 1 ≤ f.puts := by simpa [hitems] using hlen
  have hget : ({ f with items := f.items.tail } : Fifo).nextGet = f.nextGet + 1 := by
    simp only [nextGet, hitems, List.tail_cons, List.length_cons]
    omega
  -- the places of the other elements go down by one, as their distance to the offset does
  unfold slotValue
  rw [hget, hitems, List.tail_cons]
  by_cases hi : i = f.nextGet
  · rw [if_pos hi, if_neg (by omega)]
  · rw [if_neg hi]
    by_cases hle : f.nextGet ≤ i
    · rw [if_pos (by omega), if_pos hle, show i - f.nextGet = i - (f.nextGet + 1) + 1 by omega,
        List.getElem?_cons_succ]
    · rw [if_neg (by omega), if_neg hle]

/-- The word in the slot `i`: an offset or a data slot. -/
def word (f : Fifo) (i : Nat) : StorageValue :=
  if i = 0 then U256.ofU64 (BitVec.ofNat 64 f.nextPut)
  else if i = 1 then U256.ofU64 (BitVec.ofNat 64 f.nextGet)
  else f.slotValue i

/-- From the offset 2 on the words are those of the elements. -/
theorem word_of_two_le {f : Fifo} {i : Nat} (h : 2 ≤ i) : f.word i = f.slotValue i := by
  rw [word, if_neg (by omega), if_neg (by omega)]

/-- Appending an element moves `nextPut` and fills the slot there. -/
theorem word_put {f : Fifo} (hlen : f.items.length ≤ f.puts) (val : StorageValue) (i : Nat) :
    ({ items := f.items ++ [val], puts := f.puts + 1 } : Fifo).word i
      = if i = f.nextPut then val
        else if i = 0 then U256.ofU64 (BitVec.ofNat 64 (f.nextPut + 1)) else f.word i := by
  have hput :
      ({ items := f.items ++ [val], puts := f.puts + 1 } : Fifo).nextPut = f.nextPut + 1 := by
    simp only [nextPut]
    omega
  have hget : ({ items := f.items ++ [val], puts := f.puts + 1 } : Fifo).nextGet = f.nextGet := by
    simp only [nextGet, List.length_append, List.length_singleton]
    omega
  have h2 : 2 ≤ f.nextPut := by unfold nextPut; omega
  by_cases hi : 2 ≤ i
  -- a data slot
  · rw [word_of_two_le hi, slotValue_put hlen, word_of_two_le hi, if_neg (by omega : ¬ i = 0)]
  -- one of the two offsets
  · rw [if_neg (by omega : ¬ i = f.nextPut), word, word, hput, hget]
    by_cases h0 : i = 0
    · rw [if_pos h0, if_pos h0]
    · rw [if_neg h0, if_neg h0, if_neg h0]
      rw [if_pos (by omega : i = 1), if_pos (by omega : i = 1)]

/-- Taking the oldest element moves `nextGet` and clears the slot it leaves. -/
theorem word_get {f : Fifo} (hlen : f.items.length ≤ f.puts) (hne : f.items ≠ []) (i : Nat) :
    ({ f with items := f.items.tail } : Fifo).word i
      = if i = f.nextGet then 0
        else if i = 1 then U256.ofU64 (BitVec.ofNat 64 (f.nextGet + 1)) else f.word i := by
  have hpos : 0 < f.items.length := List.length_pos_iff.mpr hne
  have hget : ({ f with items := f.items.tail } : Fifo).nextGet = f.nextGet + 1 := by
    simp only [nextGet, List.length_tail]
    omega
  have h2 : 2 ≤ f.nextGet := by unfold nextGet; omega
  by_cases hi : 2 ≤ i
  · rw [word_of_two_le hi, slotValue_get hlen hne, word_of_two_le hi, if_neg (by omega : ¬ i = 1)]
  · rw [if_neg (by omega : ¬ i = f.nextGet), word, word, hget]
    by_cases h0 : i = 0
    · rw [if_pos h0, if_pos h0, if_neg (by omega)]
      rfl
    · rw [if_neg h0, if_neg h0]
      rw [if_pos (by omega : i = 1), if_pos (by omega : i = 1)]

/-- A queue without elements differs from the empty queue in the offsets only. -/
theorem word_empty {f : Fifo} (hnil : f.items = []) (i : Nat) :
    empty.word i
      = if i = 0 then U256.ofU64 2 else if i = 1 then U256.ofU64 2 else f.word i := by
  by_cases hi : 2 ≤ i
  · rw [word_of_two_le hi, if_neg (by omega), if_neg (by omega), word_of_two_le hi]
    simp [slotValue, empty, hnil]
  · by_cases h0 : i = 0
    · subst h0
      rfl
    · rw [if_neg h0, show i = 1 by omega]
      rfl

/-- The element at the place `n` of the list is in the slot `nextGet + n`. -/
theorem word_nextGet_add {f : Fifo} (hlen : f.items.length ≤ f.puts) (n : Nat) :
    f.word (f.nextGet + n) = (f.items[n]?).getD 0 := by
  rw [word_of_two_le (by unfold nextGet; omega), slotValue, if_pos (by omega),
    Nat.add_sub_cancel_left]

/-- The store represents the abstract queue. -/
structure Represents [Keccak] (sto : Storage) (w : World) (f : Fifo) : Prop where
  writable : w.readOnly = false
  length_le : f.items.length ≤ f.puts
  puts_lt : f.puts < 2 ^ 64 - 2
  slot : ∀ i < 2 ^ 64, w.store sto.account (sto.mapAddress (BitVec.ofNat 64 i)) = f.word i

namespace Represents
variable [Keccak] {sto : Storage} {w : World} {f : Fifo} (hR : f.Represents sto w)
include hR

/-- The write counter fits in its cell. -/
theorem nextPut_lt : f.nextPut < 2 ^ 64 := by
  have := hR.puts_lt
  unfold nextPut
  omega

/-- The elements lie between the two counters. -/
theorem nextGet_add_length : f.nextGet + f.items.length = f.nextPut := by
  have := hR.length_le
  unfold nextGet nextPut
  omega

end Represents

end Fifo

/-! ### Runs of the operations -/

namespace Queue

/-- The closure of `forEach` that records the pairs it is called on, and answers from
the record. -/
def recording (answer : List (U64 × StorageValue) → Except DbError Bool)
    (visited : List (U64 × StorageValue)) (index : U64) (entry : StorageValue) :
    Except DbError Bool × List (U64 × StorageValue) :=
  (answer (visited ++ [(index, entry)]), visited ++ [(index, entry)])

/-- `put` and `get` increment an offset and go on with its old value. -/
theorem run_reserve {α : Type} (cell : StorageBackedUint64) {w : World} {n : Nat}
    (hw : w.readOnly = false)
    (hv : w.store cell.slot.account cell.slot.slot = U256.ofU64 (BitVec.ofNat 64 n))
    (hmax : n + 1 < 2 ^ 64) (k : U64 → Exec DbError α) :
    World.run (do let new ← cell.increment; let at_ ← checkedSub new 1; k at_) w
      = World.run (k (BitVec.ofNat 64 n))
          (w.write cell.slot.account cell.slot.slot (U256.ofU64 (BitVec.ofNat 64 (n + 1)))) := by
  have hn : (BitVec.ofNat 64 n).toNat = n := Nat.mod_eq_of_lt (by omega)
  have hn1 : (BitVec.ofNat 64 (n + 1)).toNat = n + 1 := Nat.mod_eq_of_lt (by omega)
  have hadd : BitVec.ofNat 64 n + 1 = BitVec.ofNat 64 (n + 1) := by bv_omega
  have hsub : BitVec.ofNat 64 (n + 1) - 1 = BitVec.ofNat 64 n := by bv_omega
  have hle : (1 : U64) ≤ BitVec.ofNat 64 (n + 1) := by
    rw [BitVec.le_def, hn1]
    show 1 ≤ n + 1
    omega
  have hinc := cell.run_increment hw hv (by omega)
  rw [hadd] at hinc
  simp only [World.run_bind, hinc, World.run_checkedSub hle, hsub]

variable [Keccak]

/-- The program of an operation. -/
def program (self : Queue) : QueueOp → Exec DbError QueueAnswer
  | .put val => do self.put val; pure .unit
  | .get => do pure (.value (← self.get))
  | .peek => do pure (.value (← self.peek))
  | .shift => do pure (.flag (← self.shift))
  | .size => do pure (.number (← self.size))
  | .isEmpty => do pure (.flag (← self.isEmpty))
  | .forEach answer => do pure (.visited (← self.forEach (recording answer) []))

/-! ### The operations that read -/

section
variable {sto : Storage} {w : World} {f : Fifo} (hR : f.Represents sto w)
include hR

/-- The write counter is read. -/
theorem run_nextPut :
    World.run (Queue.open sto).nextPutOffset.get w = (.ok (BitVec.ofNat 64 f.nextPut), w) :=
  StorageBackedUint64.run_get _ (hR.slot 0 (by omega))

/-- The read counter is read. -/
theorem run_nextGet :
    World.run (Queue.open sto).nextGetOffset.get w = (.ok (BitVec.ofNat 64 f.nextGet), w) :=
  StorageBackedUint64.run_get _ (hR.slot 1 (by omega))

/-- The offsets agree exactly on the empty list. -/
theorem offsets_eq_iff : BitVec.ofNat 64 f.nextPut = BitVec.ofNat 64 f.nextGet ↔ f.items = [] := by
  have hput := hR.nextPut_lt
  have hsum := hR.nextGet_add_length
  rw [← BitVec.toNat_inj, BitVec.toNat_ofNat, BitVec.toNat_ofNat, Nat.mod_eq_of_lt hput,
    Nat.mod_eq_of_lt (by omega), ← List.length_eq_zero_iff]
  omega

/-- `isEmpty` answers whether the list is empty. -/
theorem run_isEmpty : World.run (Queue.open sto).isEmpty w = (.ok f.items.isEmpty, w) := by
  simp only [isEmpty, World.run_bind, run_nextPut hR, run_nextGet hR, World.run_pure]
  have := offsets_eq_iff hR
  rw [← List.isEmpty_iff, ← beq_iff_eq] at this
  rw [Bool.eq_iff_iff.mpr this]

/-- `size` answers the length of the list. -/
theorem run_size :
    World.run (Queue.open sto).size w = (.ok (BitVec.ofNat 64 f.items.length), w) := by
  have hput := hR.nextPut_lt
  have hsum := hR.nextGet_add_length
  have hle : BitVec.ofNat 64 f.nextGet ≤ BitVec.ofNat 64 f.nextPut := by
    rw [BitVec.le_def, BitVec.toNat_ofNat, BitVec.toNat_ofNat, Nat.mod_eq_of_lt hput,
      Nat.mod_eq_of_lt (by omega)]
    omega
  simp only [size, World.run_bind, run_nextPut hR, run_nextGet hR, World.run_checkedSub hle]
  congr 2
  rw [← hsum]
  bv_omega

/-- `peek` answers the first element and takes nothing. -/
theorem run_peek : World.run (Queue.open sto).peek w = (.ok f.items.head?, w) := by
  simp only [peek, World.run_bind, run_isEmpty hR, World.run_ite]
  cases hitems : f.items with
  | nil => rfl
  | cons x xs =>
      have hget : f.nextGet < 2 ^ 64 := Nat.lt_of_le_of_lt f.nextGet_le hR.nextPut_lt
      have hslot := (hR.slot f.nextGet hget).trans (Fifo.word_nextGet_add hR.length_le 0)
      simp only [List.isEmpty_cons, Bool.false_eq_true, if_false]
      simp only [run_nextGet hR, Storage.run_getByUint64, World.run_pure]
      rw [hitems] at hslot
      exact congrArg (fun v => (Outcome.ok (some v), w)) hslot

/-- The loop of `forEach` visits the rest of the list. -/
theorem run_forEachFrom (answer : List (U64 × StorageValue) → Except DbError Bool)
    (front rest : List StorageValue) (hitems : f.items = front ++ rest)
    (visited : List (U64 × StorageValue)) :
    World.run ((Queue.open sto).forEachFrom (recording answer) (BitVec.ofNat 64 f.nextGet)
        front.length rest.length visited) w
      = (Fifo.visit answer visited (Fifo.indexed front.length rest), w) := by
  induction rest generalizing front visited with
  | nil => rfl
  | cons x rest ih =>
      have hput := hR.nextPut_lt
      have hsum := hR.nextGet_add_length
      have hlen : f.items.length = front.length + (rest.length + 1) := by simp [hitems]
      have hadd : (BitVec.ofNat 64 f.nextGet).toNat + (BitVec.ofNat 64 front.length).toNat
          < 2 ^ 64 := by
        rw [BitVec.toNat_ofNat, BitVec.toNat_ofNat, Nat.mod_eq_of_lt (by omega),
          Nat.mod_eq_of_lt (by omega)]
        omega
      have hslot := (hR.slot (f.nextGet + front.length) (by omega)).trans
        (Fifo.word_nextGet_add hR.length_le front.length)
      rw [BitVec.ofNat_add, hitems, List.getElem?_append_right (Nat.le_refl _), Nat.sub_self]
        at hslot
      have hread : World.run ((Queue.open sto).storage.getByUint64
          (BitVec.ofNat 64 f.nextGet + BitVec.ofNat 64 front.length)) w = (.ok x, w) :=
        congrArg (fun v => (Outcome.ok v, w)) hslot
      -- the closure goes on with the element added to the front
      have hrest := ih (front ++ [x]) (by simp [hitems])
        (visited ++ [(BitVec.ofNat 64 front.length, x)])
      rw [List.length_append, List.length_singleton] at hrest
      simp only [List.length_cons, forEachFrom, World.run_bind, World.run_checkedAdd hadd, hread,
        recording, Fifo.indexed, Fifo.visit]
      cases answer (visited ++ [(BitVec.ofNat 64 front.length, x)]) with
      | error e => rfl
      | ok stop => cases stop with
        | true => rfl
        | false => exact hrest

/-- `forEach` visits the elements in order until the closure stops it. -/
theorem run_forEach (answer : List (U64 × StorageValue) → Except DbError Bool) :
    World.run ((Queue.open sto).forEach (recording answer) []) w
      = (Fifo.visit answer [] (Fifo.indexed 0 f.items), w) := by
  have hlt : f.items.length < 2 ^ 64 := by
    have := hR.nextPut_lt
    have := hR.nextGet_add_length
    omega
  have hloop := run_forEachFrom hR answer [] f.items rfl []
  simp only [forEach, World.run_bind, run_size hR, run_nextGet hR, BitVec.toNat_ofNat,
    Nat.mod_eq_of_lt hlt]
  exact hloop

end

/-! ### The operations that write -/

section
variable {sto : Storage} (hslots : Function.Injective sto.mapAddress)
include hslots

/-- A write to the slot `i` changes that slot only. -/
theorem store_write_slot (w : World) {i j : Nat} (hi : i < 2 ^ 64) (hj : j < 2 ^ 64)
    (v : StorageValue) :
    (w.write sto.account (sto.mapAddress (BitVec.ofNat 64 i)) v).store sto.account
        (sto.mapAddress (BitVec.ofNat 64 j))
      = if j = i then v else w.store sto.account (sto.mapAddress (BitVec.ofNat 64 j)) := by
  have hkey : BitVec.ofNat 64 j = BitVec.ofNat 64 i ↔ j = i := by
    rw [← BitVec.toNat_inj, BitVec.toNat_ofNat, BitVec.toNat_ofNat, Nat.mod_eq_of_lt hi,
      Nat.mod_eq_of_lt hj]
  have h := Layout.read_write ⟨sto.account, sto.mapAddress⟩ hslots w (BitVec.ofNat 64 i)
    (BitVec.ofNat 64 j) v
  simp only [hkey] at h
  exact h

/-- `put` appends. -/
theorem put_realizes {f : Fifo} (val : StorageValue) (hroom : f.puts + 1 < 2 ^ 64 - 2) :
    Realizes World.handle (Fifo.Represents sto) ((Queue.open sto).put val) f (.ok ())
      { items := f.items ++ [val], puts := f.puts + 1 } := by
  intro w hR
  have hput := hR.nextPut_lt
  have hmax : f.nextPut + 1 < 2 ^ 64 := by unfold Fifo.nextPut; omega
  -- two writes: the offset, and then the element
  refine ⟨(w.write sto.account (sto.mapAddress (BitVec.ofNat 64 0))
    (U256.ofU64 (BitVec.ofNat 64 (f.nextPut + 1)))).write sto.account
    (sto.mapAddress (BitVec.ofNat 64 f.nextPut)) val, ?_, hR.writable, ?_, hroom, ?_⟩
  · exact (run_reserve (Queue.open sto).nextPutOffset hR.writable (hR.slot 0 (by omega))
      hmax _).trans (Storage.run_set _ (by exact hR.writable) _ _)
  · have := hR.length_le
    simp only [List.length_append, List.length_singleton]
    omega
  · intro i hi
    rw [store_write_slot hslots _ hput hi, store_write_slot hslots _ (by omega) hi, hR.slot i hi,
      Fifo.word_put hR.length_le]

/-- `get` takes the first element, if there is one. -/
theorem get_realizes (f : Fifo) :
    Realizes World.handle (Fifo.Represents sto) (Queue.open sto).get f (.ok f.items.head?)
      { f with items := f.items.tail } := by
  intro w hR
  have hput := hR.nextPut_lt
  have hsum := hR.nextGet_add_length
  cases hitems : f.items with
  | nil =>
      refine ⟨w, ?_, ?_⟩
      · rw [get, Prog.exec_bind_ok (run_isEmpty hR), hitems]
        rfl
      · rw [List.tail_nil, ← hitems]
        exact hR
  | cons x xs =>
      have hne : f.items ≠ [] := by rw [hitems]; exact List.cons_ne_nil _ _
      have hlen := hR.length_le
      have hpos : 0 < f.items.length := List.length_pos_iff.mpr hne
      have h2 : 2 ≤ f.nextGet := by unfold Fifo.nextGet; omega
      have hslot := Fifo.word_nextGet_add hR.length_le 0
      rw [hitems, Nat.add_zero] at hslot
      refine ⟨(w.write sto.account (sto.mapAddress (BitVec.ofNat 64 1))
        (U256.ofU64 (BitVec.ofNat 64 (f.nextGet + 1)))).write sto.account
        (sto.mapAddress (BitVec.ofNat 64 f.nextGet)) 0, ?_, hR.writable, ?_, hR.puts_lt, ?_⟩
      · rw [get, Prog.exec_bind_ok (run_isEmpty hR), hitems]
        refine (run_reserve (Queue.open sto).nextGetOffset hR.writable (hR.slot 1 (by omega))
          (by omega) _).trans ?_
        rw [World.run_bind, Storage.run_swap _ (by exact hR.writable)]
        -- the write of the offset leaves the element as it is
        have hread : (w.write sto.account (sto.mapAddress (BitVec.ofNat 64 1))
            (U256.ofU64 (BitVec.ofNat 64 (f.nextGet + 1)))).store sto.account
            (sto.mapAddress (BitVec.ofNat 64 f.nextGet)) = x := by
          rw [store_write_slot hslots _ (by omega) (by omega), if_neg (by omega),
            hR.slot _ (by omega), hslot]
          rfl
        exact congrArg (fun v => (Outcome.ok (some v), _)) hread
      · rw [hitems] at hlen
        simp only [List.length_cons, List.tail_cons] at hlen ⊢
        omega
      · intro i hi
        rw [store_write_slot hslots _ (by omega) hi, store_write_slot hslots _ (by omega) hi,
          hR.slot i hi, ← hitems, Fifo.word_get hR.length_le hne]

/-- `shift` says whether the queue is empty, and then moves its counters back to the start. -/
theorem shift_realizes (f : Fifo) :
    Realizes World.handle (Fifo.Represents sto) (Queue.open sto).shift f (.ok f.items.isEmpty)
      (if f.items = [] then Fifo.empty else f) := by
  intro w hR
  have hiff := offsets_eq_iff hR
  by_cases hnil : f.items = []
  · rw [if_pos hnil]
    refine ⟨(w.write sto.account (sto.mapAddress (BitVec.ofNat 64 1)) (U256.ofU64 2)).write
      sto.account (sto.mapAddress (BitVec.ofNat 64 0)) (U256.ofU64 2), ?_, hR.writable, ?_, ?_, ?_⟩
    · rw [shift, Prog.exec_bind_ok (run_nextPut hR), Prog.exec_bind_ok (run_nextGet hR),
        if_neg (not_not.mpr (hiff.mpr hnil)), hnil,
        Prog.exec_bind_ok (StorageBackedUint64.run_set _ hR.writable 2)]
      exact Prog.exec_bind_ok (StorageBackedUint64.run_set _ (by exact hR.writable) 2) _
    · exact Nat.zero_le _
    · show 0 < 2 ^ 64 - 2
      omega
    · intro i hi
      rw [store_write_slot hslots _ (by omega) hi, store_write_slot hslots _ (by omega) hi,
        hR.slot i hi, Fifo.word_empty hnil]
  · rw [if_neg hnil]
    refine ⟨w, ?_, hR⟩
    rw [shift, Prog.exec_bind_ok (run_nextPut hR), Prog.exec_bind_ok (run_nextGet hR),
      if_pos (fun h => hnil (hiff.mp h)), List.isEmpty_eq_false_iff.mpr hnil]
    rfl

/-- Each operation with room for it answers as the list does. -/
theorem program_realizes (f : Fifo) (op : QueueOp) (hroom : f.HasRoom op) :
    Realizes World.handle (Fifo.Represents sto) ((Queue.open sto).program op) f
      (Fifo.apply op f).1 (Fifo.apply op f).2 := by
  cases op with
  | put val => exact .bind (put_realizes hslots val (hroom val rfl)) (.pure _)
  | get => exact .bind (get_realizes hslots f) (.pure _)
  | shift => exact .bind (shift_realizes hslots f) (.pure _)
  | peek => exact .bind (fun w hR => ⟨w, run_peek hR, hR⟩) (.pure _)
  | size => exact .bind (fun w hR => ⟨w, run_size hR, hR⟩) (.pure _)
  | isEmpty => exact .bind (fun w hR => ⟨w, run_isEmpty hR, hR⟩) (.pure _)
  | forEach answer =>
      intro w hR
      simp only [program, Fifo.apply]
      have hrun := run_forEach hR answer
      cases hvisit : Fifo.visit answer [] (Fifo.indexed 0 f.items) <;> rw [hvisit] at hrun
      · exact ⟨w, Prog.exec_bind_ok hrun _, hR⟩
      · exact ⟨w, Prog.exec_bind_err hrun _, hR⟩
      · exact ⟨w, Prog.exec_bind_panic hrun _, hR⟩

/-- The initialization of a fresh space gives the empty queue. -/
theorem initializeQueue_represents {w : World} (hw : w.readOnly = false)
    (hfresh : ∀ i : U64, 2 ≤ i.toNat → w.store sto.account (sto.mapAddress i) = 0) :
    ∃ w', World.run (initializeQueue sto) w = (.ok (), w') ∧ Fifo.empty.Represents sto w' := by
  refine ⟨(w.write sto.account (sto.mapAddress (BitVec.ofNat 64 0)) (U256.ofU64 2)).write
    sto.account (sto.mapAddress (BitVec.ofNat 64 1)) (U256.ofU64 2), ?_, hw, Nat.zero_le _, ?_, ?_⟩
  · exact (Prog.exec_bind_ok (Storage.run_set sto hw 0 (U256.ofU64 2)) _).trans
      (Storage.run_set sto (by exact hw) 1 (U256.ofU64 2))
  · show 0 < 2 ^ 64 - 2
    omega
  · intro i hi
    rw [store_write_slot hslots _ (by omega) hi, store_write_slot hslots _ (by omega) hi]
    by_cases h2 : 2 ≤ i
    · have htoNat : (BitVec.ofNat 64 i).toNat = i := Nat.mod_eq_of_lt hi
      rw [if_neg (by omega), if_neg (by omega), hfresh _ (by omega), Fifo.word_of_two_le h2]
      simp [Fifo.slotValue, Fifo.empty]
    · have hcases : i = 0 ∨ i = 1 := by omega
      rcases hcases with rfl | rfl <;> rfl

end

end Queue

/-- The queue refines an unbounded list. After the initialization of a fresh space, every
sequence of operations answers as the list does, and the offsets and the data slots are
those of the list that it ends in: `2 ≤ nextGet ≤ nextPut`, the elements are in the slots
from `nextGet` on, and every data slot outside `[nextGet, nextPut)` is zero. -/
theorem Queue.refines_list [Keccak] {sto : Storage} (hslots : Function.Injective sto.mapAddress)
    (w : World) (hw : w.readOnly = false)
    (hfresh : ∀ i : U64, 2 ≤ i.toNat → w.store sto.account (sto.mapAddress i) = 0)
    (ops : List QueueOp) (hroom : AdmissibleOps Fifo.apply Fifo.HasRoom ops Fifo.empty) :
    let start := World.run (Queue.initializeQueue sto) w
    let final := runOps World.handle (Queue.open sto).program ops start.2
    let list := (specOps Fifo.apply ops Fifo.empty).2.items
    start.1 = .ok ()
    ∧ final.1 = (specOps Fifo.apply ops Fifo.empty).1
    ∧ ∃ nextPut nextGet : U64,
        World.run (Queue.open sto).nextPutOffset.get final.2 = (.ok nextPut, final.2)
        ∧ World.run (Queue.open sto).nextGetOffset.get final.2 = (.ok nextGet, final.2)
        ∧ 2 ≤ nextGet.toNat ∧ nextGet.toNat + list.length = nextPut.toNat
        ∧ (∀ n < list.length,
            final.2.store sto.account (sto.mapAddress (nextGet + BitVec.ofNat 64 n))
              = list.getD n 0)
        ∧ ∀ i : U64, 2 ≤ i.toNat → (i < nextGet ∨ nextPut ≤ i) →
            final.2.store sto.account (sto.mapAddress i) = 0 := by
  intro start final list
  obtain ⟨w₀, hrun, hR₀⟩ := Queue.initializeQueue_represents hslots hw hfresh
  have hstart : start = (.ok (), w₀) := hrun
  obtain ⟨hanswers, hR⟩ := runOps_realizes (Queue.program_realizes hslots) ops w₀ Fifo.empty hR₀
    hroom
  have hfinal : final = runOps World.handle (Queue.open sto).program ops w₀ := by
    simp only [final, hstart]
  rw [← hfinal] at hanswers hR
  set f := (specOps Fifo.apply ops Fifo.empty).2 with hf
  have hput := hR.nextPut_lt
  have hsum := hR.nextGet_add_length
  have htoPut : (BitVec.ofNat 64 f.nextPut).toNat = f.nextPut := Nat.mod_eq_of_lt hput
  have htoGet : (BitVec.ofNat 64 f.nextGet).toNat = f.nextGet := Nat.mod_eq_of_lt (by omega)
  refine ⟨by rw [hstart], hanswers, BitVec.ofNat 64 f.nextPut, BitVec.ofNat 64 f.nextGet,
    Queue.run_nextPut hR, Queue.run_nextGet hR, ?_, ?_, ?_, ?_⟩
  · rw [htoGet]
    unfold Fifo.nextGet
    have := hR.length_le
    omega
  · rw [htoGet, htoPut]
    exact hsum
  · intro n hn
    have hn : n < f.items.length := hn
    have hslot := (hR.slot (f.nextGet + n) (by omega)).trans (Fifo.word_nextGet_add hR.length_le n)
    rw [BitVec.ofNat_add] at hslot
    rw [hslot, List.getD_eq_getElem?_getD]
  · intro i h2 hout
    have hslot := hR.slot i.toNat i.isLt
    rw [BitVec.ofNat_toNat, BitVec.setWidth_eq, Fifo.word_of_two_le h2] at hslot
    rw [hslot, Fifo.slotValue_of_outside hR.length_le]
    simp only [BitVec.lt_def, BitVec.le_def, htoGet, htoPut] at hout
    exact hout

section
attribute [local instance] sampleHash

/-- A run on a blank store with the sample hash: two elements are put, the zero word
among them, three are asked for, and the empty queue is reset. -/
theorem Queue.refines_list_sample :
    (runOps World.handle (Queue.open sampleRoot).program
        [.put 7, .put 0, .get, .size, .get, .get, .shift]
        (World.run (Queue.initializeQueue sampleRoot) World.blank).2).1
      = [.ok .unit, .ok .unit, .ok (.value (some 7)), .ok (.number 1), .ok (.value (some 0)),
          .ok (.value none), .ok (.flag true)] :=
  (Queue.refines_list sampleRoot_mapAddress_injective World.blank rfl (fun _ _ => rfl)
    [.put 7, .put 0, .get, .size, .get, .get, .shift]
    (by simp [AdmissibleOps, Fifo.HasRoom, Fifo.apply, Fifo.empty])).2.1

end

end ArbReth
