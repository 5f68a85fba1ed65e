import ArbReth.AddressSet
import ArbReth.Program.Realizes
import ArbReth.Proofs.Storage.Cells
import ArbReth.Storage.SampleHash
import Mathlib.Data.Finset.Card
import Mathlib.Data.List.Nodup

/-!
# `ArbReth.Proofs.AddressSet`: the set of addresses is a finite set

The store holds a list of the members and, for each address, its place in the list.
`AddressSet.Represents` ties a store to the list. Its fields say what each slot
holds: the size, the members in the slots from 1 on and zero above, the place of
each member, and zero for every other address.

The list never repeats a member. This follows from the other fields: the mapping
gives a member one place.

`add` appends. `remove` puts the last member in the place of the removed one
(`removeSwap`). `clear` goes through the list and clears both maps. The loop
invariant `Clearing` says what is left after some rounds.

The zero address is encoded as the zero word, so a list slot of it cannot be told
from an empty one. The mapping still tells: a place is at least 1.

## The slots that are used

A set has a slot for each of `2 ^ 160` addresses, and no hash is known to keep all of them
apart. So the theorems take a set `A` of addresses, and ask only that no slot of the list and
no mapping of an address of `A` is the slot of another key (`Layout.Apart`, `SetKey.Among`).
The addresses that a run adds are those of `A`. Its removals and the queries after it are
about every address. With `Set.univ` for `A` the layout is injective.
-/

set_option autoImplicit false

namespace ArbReth

open ArbReth.Program

/-- A key of a set: a slot of the list, with the size in the slot 0, or the mapping
of an address. -/
inductive SetKey where
  | list (i : U64)
  | index (addr : Address)
deriving DecidableEq

/-- The slots of the list, and the mapping of the addresses of `A`. -/
def SetKey.Among (A : Set Address) : SetKey → Prop
  | .list _ => True
  | .index addr => addr ∈ A

namespace AddressSet

/-- The list after the removal of the member in the place `n`: the last member moves
there. -/
def removeAt (l : List Address) (n : Nat) : List Address :=
  (l.set n (l.getLastD 0)).dropLast

/-- The list after the removal of an address. -/
def removeSwap (l : List Address) (addr : Address) : List Address :=
  if addr ∈ l then removeAt l (l.idxOf addr) else l

/-- Removing the element in a place of the list shortens it by one. -/
@[simp] theorem length_removeAt (l : List Address) (n : Nat) :
    (removeAt l n).length = l.length - 1 := by
  simp [removeAt]

/-- The members that stay keep their places, but for the last one. -/
theorem getElem?_removeAt (l : List Address) {n : Nat} (m : Nat) (hn : n < l.length) :
    (removeAt l n)[m]?
      = if m < l.length - 1 then (if m = n then l[l.length - 1]? else l[m]?) else none := by
  unfold removeAt
  rw [List.getElem?_dropLast, List.length_set]
  split
  · rename_i hm
    rw [List.getElem?_set]
    by_cases h : n = m
    · subst h
      rw [if_pos rfl, if_pos hn, if_pos rfl, List.getLastD_eq_getLast?, List.getLast?_eq_getElem?,
        List.getElem?_eq_getElem (by omega), Option.getD_some]
    · rw [if_neg h, if_neg (Ne.symm h)]
  · rfl

/-- The removal from a place takes the member there, and no other one. -/
theorem mem_removeAt {l : List Address} (hnodup : l.Nodup) {n : Nat} {addr : Address}
    (hn : l[n]? = some addr) (a : Address) : a ∈ removeAt l n ↔ a ∈ l ∧ a ≠ addr := by
  have hnlt : n < l.length := (List.getElem?_eq_some_iff.mp hn).1
  have hplace : ∀ (i j : Nat) (b : Address), l[i]? = some b → l[j]? = some b → i = j := by
    intro i j b hi hj
    obtain ⟨h1, h2⟩ := List.getElem?_eq_some_iff.mp hi
    obtain ⟨h3, h4⟩ := List.getElem?_eq_some_iff.mp hj
    exact (List.Nodup.getElem_inj_iff hnodup).mp (h2.trans h4.symm)
  constructor
  · intro hmem
    obtain ⟨m, hm⟩ := List.mem_iff_getElem?.mp hmem
    rw [getElem?_removeAt l m hnlt] at hm
    split at hm
    · rename_i hmlt
      split at hm
      · refine ⟨List.mem_of_getElem? hm, ?_⟩
        intro h
        have := hplace _ _ _ (h ▸ hm) hn
        omega
      · rename_i hmn
        exact ⟨List.mem_of_getElem? hm, fun h => hmn (hplace _ _ _ (h ▸ hm) hn)⟩
    · cases hm
  · rintro ⟨hmem, hne⟩
    obtain ⟨m, hm⟩ := List.mem_iff_getElem?.mp hmem
    have hmlt : m < l.length := (List.getElem?_eq_some_iff.mp hm).1
    have hmn : m ≠ n := fun h => hne (by
      rw [h, hn] at hm
      exact (Option.some.inj hm).symm)
    by_cases hlast : m = l.length - 1
    · -- The last member is found in the place it has moved to.
      refine List.mem_iff_getElem?.mpr ⟨n, ?_⟩
      rw [getElem?_removeAt l n hnlt, if_pos (by omega), if_pos rfl, ← hlast, hm]
    · refine List.mem_iff_getElem?.mpr ⟨m, ?_⟩
      rw [getElem?_removeAt l m hnlt, if_pos (by omega), if_neg hmn, hm]

/-- The list slots after a new member: the slot after the last one holds it. -/
theorem getElem?_append_slot (l : List Address) (addr : Address) {i : Nat} (h1 : 1 ≤ i) :
    (if i = l.length + 1 then addrToValue addr else ((l[i - 1]?).map addrToValue).getD 0)
      = (((l ++ [addr])[i - 1]?).map addrToValue).getD 0 := by
  by_cases hlast : i = l.length + 1
  · rw [if_pos hlast, hlast, Nat.add_sub_cancel, List.getElem?_append_right (Nat.le_refl _),
      Nat.sub_self]
    rfl
  · rw [if_neg hlast]
    rcases Nat.lt_or_gt_of_ne hlast with hlt | hgt
    · rw [List.getElem?_append_left (by omega)]
    · rw [List.getElem?_eq_none (by omega), List.getElem?_eq_none (by simp; omega)]

/-- The places after a new member: the old members keep theirs. -/
theorem index_append {l : List Address} {addr a : Address} (hnew : addr ∉ l) {n : Nat}
    (hn : (l ++ [addr])[n]? = some a) {old : StorageValue}
    (hold : l[n]? = some a → old = U256.ofU64 (BitVec.ofNat 64 (n + 1))) :
    (if a = addr then U256.ofU64 (BitVec.ofNat 64 (l.length + 1)) else old)
      = U256.ofU64 (BitVec.ofNat 64 (n + 1)) := by
  rcases Nat.lt_or_ge n l.length with hlt | hge
  · rw [List.getElem?_append_left hlt] at hn
    have hne : a ≠ addr := fun h => hnew (h ▸ List.mem_of_getElem? hn)
    rw [if_neg hne, hold hn]
  · obtain ⟨hlt, heq⟩ := List.getElem?_eq_some_iff.mp hn
    have hn' : n = l.length := by simp at hlt; omega
    subst hn'
    have ha : a = addr := by rw [← heq]; simp
    rw [if_pos ha]

/-- Two slots of the list are one when their numbers are. -/
theorem list_eq_iff {i j : Nat} (hi : i < 2 ^ 64) (hj : j < 2 ^ 64) :
    SetKey.list (BitVec.ofNat 64 i) = SetKey.list (BitVec.ofNat 64 j) ↔ i = j := by
  rw [SetKey.list.injEq, ← BitVec.toNat_inj, BitVec.toNat_ofNat, BitVec.toNat_ofNat,
    Nat.mod_eq_of_lt hi, Nat.mod_eq_of_lt hj]

variable [Keccak]

/-- The slots of the set in the space `sto`. -/
def layout (sto : Storage) : Layout SetKey where
  account := sto.account
  slot
    | .list i => sto.mapAddress i
    | .index addr => (sto.openSubStorage [0]).mapAddressByKey (addrToKey addr)

/-- The store represents the list of the members, which are addresses of `A`. -/
structure Represents (sto : Storage) (A : Set Address) (w : World) (l : List Address) : Prop where
  writable : w.readOnly = false
  among : ∀ addr ∈ l, addr ∈ A
  length_lt : l.length < 2 ^ 64
  size : (layout sto).read w (.list 0) = U256.ofU64 (BitVec.ofNat 64 l.length)
  list : ∀ i, 1 ≤ i → i < 2 ^ 64 →
    (layout sto).read w (.list (BitVec.ofNat 64 i)) = ((l[i - 1]?).map addrToValue).getD 0
  index_mem : ∀ (n : Nat) (addr : Address), l[n]? = some addr →
    (layout sto).read w (.index addr) = U256.ofU64 (BitVec.ofNat 64 (n + 1))
  index_not_mem : ∀ addr, addr ∉ l → (layout sto).read w (.index addr) = 0

/-! ### What the store says about one address -/

namespace Represents
variable {sto : Storage} {A : Set Address} {w : World} {l : List Address}
  (hR : Represents sto A w l)
include hR

/-- A member is in one place. -/
theorem place_unique {n m : Nat} {addr : Address} (hn : l[n]? = some addr)
    (hm : l[m]? = some addr) : n = m := by
  have hlen := hR.length_lt
  have hn' : n < l.length := (List.getElem?_eq_some_iff.mp hn).1
  have hm' : m < l.length := (List.getElem?_eq_some_iff.mp hm).1
  have hword := (hR.index_mem n addr hn).symm.trans (hR.index_mem m addr hm)
  have := congrArg BitVec.toNat (U256.ofU64_injective hword)
  rw [BitVec.toNat_ofNat, BitVec.toNat_ofNat, Nat.mod_eq_of_lt (by omega),
    Nat.mod_eq_of_lt (by omega)] at this
  omega

/-- The list has no address twice, since the mapping gives each member one place. -/
theorem nodup : l.Nodup := by
  rw [List.nodup_iff_injective_get]
  intro i j hij
  have hi : l[i.val]? = some (l.get i) := List.getElem?_eq_getElem i.isLt
  have hj : l[j.val]? = some (l.get i) := by rw [hij]; exact List.getElem?_eq_getElem j.isLt
  exact Fin.ext (hR.place_unique hi hj)

/-- The word of a member is not zero. -/
theorem index_ne_zero_iff (addr : Address) : (layout sto).read w (.index addr) ≠ 0 ↔ addr ∈ l := by
  constructor
  · intro h
    by_contra hmem
    exact h (hR.index_not_mem addr hmem)
  · intro hmem hzero
    obtain ⟨n, hn⟩ := List.mem_iff_getElem?.mp hmem
    have hlen := hR.length_lt
    have hn' : n < l.length := (List.getElem?_eq_some_iff.mp hn).1
    have hword := (hR.index_mem n addr hn).symm.trans hzero
    have := congrArg BitVec.toNat hword
    rw [U256.toNat_ofU64, BitVec.toNat_ofNat, Nat.mod_eq_of_lt (by omega)] at this
    simp at this

end Represents

/-! ### The operations that read -/

section
variable {sto : Storage} {A : Set Address} {w : World} {l : List Address}
  (hR : Represents sto A w l)
include hR

/-- `size` answers the length of the list. -/
theorem run_size : World.run (new sto).size w = (.ok (BitVec.ofNat 64 l.length), w) :=
  StorageBackedUint64.run_get _ hR.size

/-- `isMember` answers from the mapping, which is zero outside the list. -/
theorem run_isMember (addr : Address) :
    World.run ((new sto).isMember addr) w = (.ok (decide (addr ∈ l)), w) := by
  have hiff := hR.index_ne_zero_iff addr
  have hrun : World.run ((new sto).isMember addr) w
      = (.ok ((layout sto).read w (.index addr) != 0), w) := rfl
  rw [hrun, Bool.eq_iff_iff.mpr (bne_iff_ne.trans (hiff.trans (decide_eq_true_iff).symm))]

/-- The loop of `allMembers` reads the next members of the list. -/
theorem run_membersFrom (i count : Nat) (hle : i + count ≤ l.length) :
    World.run ((new sto).membersFrom i count) w = (.ok ((l.drop i).take count), w) := by
  induction count generalizing i with
  | zero => rw [List.take_zero]; rfl
  | succ count ih =>
      have hlen := hR.length_lt
      have hi : i < l.length := by omega
      have hslot := hR.list (i + 1) (by omega) (by omega)
      rw [Nat.add_sub_cancel, List.getElem?_eq_getElem hi] at hslot
      have hread : World.run ((new sto).backingStorage.readSlot (BitVec.ofNat 64 (i + 1))) w
          = (.ok (addrToValue l[i]), w) := congrArg (fun v => (Outcome.ok v, w)) hslot
      rw [membersFrom, World.run_bind_ok hread, World.run_bind_ok (ih (i + 1) (by omega)),
        List.drop_eq_getElem_cons hi, List.take_succ_cons]
      show (Outcome.ok (Address.ofWord (Address.intoWord l[i]) :: _), w) = _
      rw [Address.ofWord_intoWord]

/-- `allMembers` answers the first `max` members in the order of the list. -/
theorem run_allMembers (max : U64) :
    World.run ((new sto).allMembers max) w = (.ok (l.take (min l.length max.toNat)), w) := by
  have hlen := hR.length_lt
  have hmin : (minWord (BitVec.ofNat 64 l.length) max).toNat = min l.length max.toNat := by
    rw [toNat_minWord, BitVec.toNat_ofNat, Nat.mod_eq_of_lt hlen]
  have hloop := run_membersFrom hR 0 (min l.length max.toNat) (by omega)
  rw [List.drop_zero] at hloop
  have hsize : World.run (new sto).sizeCell.get w = (.ok (BitVec.ofNat 64 l.length), w) :=
    run_size hR
  rw [allMembers, World.run_bind_ok hsize, hmin]
  exact hloop

end

/-- The representation is about the slots of the set and the burner only. -/
theorem Represents.congr {sto : Storage} {A : Set Address} {w w' : World} {l : List Address}
    (hR : Represents sto A w l) (hw : w'.readOnly = w.readOnly)
    (hread : ∀ k, (layout sto).read w' k = (layout sto).read w k) : Represents sto A w' l where
  writable := hw.trans hR.writable
  among := hR.among
  length_lt := hR.length_lt
  size := (hread _).trans hR.size
  list i h1 hi := (hread _).trans (hR.list i h1 hi)
  index_mem n addr hn := (hread _).trans (hR.index_mem n addr hn)
  index_not_mem addr hnot := (hread _).trans (hR.index_not_mem addr hnot)

/-! ### The operations that write -/

/-- `add` on a new address panics when the size is the largest word, before it writes. -/
theorem run_add_of_full {sto : Storage} {w : World} {addr : Address}
    (hindex : (layout sto).read w (.index addr) = 0)
    (hsize : (layout sto).read w (.list 0) = U256.ofU64 (BitVec.ofNat 64 (2 ^ 64 - 1))) :
    World.run ((new sto).add addr) w = (.panic "attempt to add with overflow", w) := by
  have hmember : World.run ((new sto).isMember addr) w = (.ok false, w) :=
    congrArg (fun v => (Outcome.ok (v != 0), w)) hindex
  have hsz : World.run (new sto).sizeCell.get w = (.ok (BitVec.ofNat 64 (2 ^ 64 - 1)), w) :=
    StorageBackedUint64.run_get _ hsize
  have hover : ¬(BitVec.ofNat 64 (2 ^ 64 - 1)).toNat + (1 : U64).toNat < 2 ^ 64 := by decide
  rw [add, World.run_bind_ok hmember]
  simp only [Bool.false_eq_true, if_false]
  rw [World.run_bind_ok hsz, checkedAdd, if_neg hover]
  rfl

section
variable {sto : Storage} {A : Set Address} (hslots : (layout sto).Apart (SetKey.Among A))
include hslots

/-- A list slot after a write to a list slot. -/
theorem read_write_list (w : World) {i j : Nat} (hi : i < 2 ^ 64) (hj : j < 2 ^ 64)
    (v : StorageValue) :
    (layout sto).read ((layout sto).write w (.list (BitVec.ofNat 64 i)) v)
        (.list (BitVec.ofNat 64 j))
      = if j = i then v else (layout sto).read w (.list (BitVec.ofNat 64 j)) := by
  rw [(hslots (.list _) trivial).read_write]
  simp only [list_eq_iff hj hi]

/-- A write to the list leaves the mapping alone. -/
theorem read_index_write_list (w : World) (i : U64) (a : Address) (v : StorageValue) :
    (layout sto).read ((layout sto).write w (.list i) v) (.index a)
      = (layout sto).read w (.index a) := by
  rw [(hslots (.list _) trivial).read_write, if_neg SetKey.noConfusion]

/-- The mapping after a write to it. -/
theorem read_write_index {addr : Address} (haddr : addr ∈ A) (w : World) (a : Address)
    (v : StorageValue) :
    (layout sto).read ((layout sto).write w (.index addr) v) (.index a)
      = if a = addr then v else (layout sto).read w (.index a) := by
  rw [(hslots (.index addr) haddr).read_write]
  simp only [SetKey.index.injEq]

/-- A write to the mapping leaves the list alone. -/
theorem read_list_write_index {addr : Address} (haddr : addr ∈ A) (w : World) (i : U64)
    (v : StorageValue) :
    (layout sto).read ((layout sto).write w (.index addr) v) (.list i)
      = (layout sto).read w (.list i) := by
  rw [(hslots (.index addr) haddr).read_write, if_neg SetKey.noConfusion]

/-- The store after `addr` has become the member number `n + 1`: the mapping, the new list
slot, the size. -/
def afterAdd (sto : Storage) (w : World) (addr : Address) (n : Nat) : World :=
  (layout sto).write ((layout sto).write
    ((layout sto).write w (.index addr) (U256.ofU64 (BitVec.ofNat 64 (n + 1))))
    (.list (BitVec.ofNat 64 (n + 1))) (addrToValue addr))
    (.list (BitVec.ofNat 64 0)) (U256.ofU64 (BitVec.ofNat 64 (n + 1)))

/-- The size after an addition. -/
theorem read_size_afterAdd (w : World) (addr : Address) (n : Nat) :
    (layout sto).read (afterAdd sto w addr n) (.list 0) = U256.ofU64 (BitVec.ofNat 64 (n + 1)) := by
  rw [afterAdd, show (SetKey.list 0) = .list (BitVec.ofNat 64 0) from rfl,
    read_write_list hslots _ (by omega) (by omega), if_pos rfl]

/-- The list slots after an addition: the one behind the last member is new. -/
theorem read_list_afterAdd {addr : Address} (haddr : addr ∈ A) (w : World) {n i : Nat}
    (hn : n + 1 < 2 ^ 64) (h1 : 1 ≤ i) (hi : i < 2 ^ 64) :
    (layout sto).read (afterAdd sto w addr n) (.list (BitVec.ofNat 64 i))
      = if i = n + 1 then addrToValue addr
        else (layout sto).read w (.list (BitVec.ofNat 64 i)) := by
  rw [afterAdd, read_write_list hslots _ (by omega) hi, if_neg (by omega),
    read_write_list hslots _ hn hi, read_list_write_index hslots haddr]

/-- The mapping after an addition: the new member has the last place. -/
theorem read_index_afterAdd {addr : Address} (haddr : addr ∈ A) (w : World) (a : Address)
    (n : Nat) :
    (layout sto).read (afterAdd sto w addr n) (.index a)
      = if a = addr then U256.ofU64 (BitVec.ofNat 64 (n + 1))
        else (layout sto).read w (.index a) := by
  rw [afterAdd, read_index_write_list hslots, read_index_write_list hslots,
    read_write_index hslots haddr]

/-- `add` on an address that is not mapped. -/
theorem run_add_of_index_eq_zero {addr : Address} (haddr : addr ∈ A) {w : World} {n : Nat}
    (hw : w.readOnly = false)
    (hindex : (layout sto).read w (.index addr) = 0)
    (hsize : (layout sto).read w (.list (BitVec.ofNat 64 0)) = U256.ofU64 (BitVec.ofNat 64 n))
    (hn : n + 1 < 2 ^ 64) :
    World.run ((new sto).add addr) w = (.ok (), afterAdd sto w addr n) := by
  have htoNat : (BitVec.ofNat 64 n).toNat = n := Nat.mod_eq_of_lt (by omega)
  have hsucc : BitVec.ofNat 64 n + 1 = BitVec.ofNat 64 (n + 1) := by bv_omega
  have hmember : World.run ((new sto).isMember addr) w = (.ok false, w) :=
    congrArg (fun v => (Outcome.ok (v != 0), w)) hindex
  have hsz : World.run (new sto).sizeCell.get w = (.ok (BitVec.ofNat 64 n), w) :=
    StorageBackedUint64.run_get _ hsize
  have hadd : (BitVec.ofNat 64 n).toNat + (1 : U64).toNat < 2 ^ 64 := by rw [htoNat]; exact hn
  rw [add, World.run_bind_ok hmember]
  simp only [Bool.false_eq_true, if_false]
  rw [World.run_bind_ok hsz, World.run_bind_ok (World.run_checkedAdd hadd w), hsucc,
    World.run_bind_ok (Storage.run_setByKey _ _ _ _),
    World.run_bind_ok (Storage.run_writeSlot _ _ _ _)]
  -- The size is read once more, after the two writes.
  have hsize' : (layout sto).read ((layout sto).write
      ((layout sto).write w (.index addr) (U256.ofU64 (BitVec.ofNat 64 (n + 1))))
      (.list (BitVec.ofNat 64 (n + 1))) (addrToValue addr)) (.list (BitVec.ofNat 64 0))
      = U256.ofU64 (BitVec.ofNat 64 n) := by
    rw [read_write_list hslots _ hn (by omega), if_neg (by omega),
      read_list_write_index hslots haddr, hsize]
  have hinc := StorageBackedUint64.run_increment (new sto).sizeCell (by exact hw) hsize'
    (by rw [htoNat]; exact hn)
  rw [hsucc] at hinc
  exact World.run_bind_ok hinc _

/-- `add` puts a new address behind the list, and leaves a member where it is. -/
theorem add_realizes (l : List Address) {addr : Address} (haddr : addr ∈ A)
    (hroom : l.length + 1 < 2 ^ 64) :
    Realizes World.handle (Represents sto A) ((new sto).add addr) l (.ok ())
      (if addr ∈ l then l else l ++ [addr]) := by
  intro w hR
  by_cases hmem : addr ∈ l
  · rw [if_pos hmem]
    refine ⟨w, ?_, hR⟩
    have hmember := run_isMember hR addr
    rw [decide_eq_true hmem] at hmember
    exact World.run_bind_ok hmember _
  · rw [if_neg hmem]
    refine ⟨_, run_add_of_index_eq_zero hslots haddr hR.writable (hR.index_not_mem addr hmem)
      hR.size hroom, hR.writable, ?_, ?_, ?_, ?_, ?_, ?_⟩
    · intro a ha
      rcases List.mem_append.mp ha with ha | ha
      · exact hR.among a ha
      · rwa [List.mem_singleton.mp ha]
    · rw [List.length_append, List.length_singleton]
      exact hroom
    · rw [read_size_afterAdd hslots, List.length_append, List.length_singleton]
    -- the list: the slot after the last one holds the new member
    · intro i h1 hi
      rw [read_list_afterAdd hslots haddr _ hroom h1 hi, hR.list i h1 hi]
      exact getElem?_append_slot l addr h1
    -- the mapping: the old members are not the new one, and keep their slots
    · intro n a hn
      rw [read_index_afterAdd hslots haddr]
      exact index_append hmem hn (hR.index_mem n a)
    · intro a ha
      rw [List.mem_append, not_or, List.mem_singleton] at ha
      rw [read_index_afterAdd hslots haddr, if_neg ha.2, hR.index_not_mem a ha.1]

end

/-- A store that differs from `w` as a removal from the place `n` asks represents the
shorter list. `z` is the last member. -/
theorem represents_removeAt {sto : Storage} {A : Set Address} {w w' : World} {l : List Address}
    (hR : Represents sto A w l) {n : Nat} {addr z : Address} (hn : l[n]? = some addr)
    (hz : l[l.length - 1]? = some z) (hw' : w'.readOnly = false)
    (hsize : (layout sto).read w' (.list 0) = U256.ofU64 (BitVec.ofNat 64 (l.length - 1)))
    (hlist : ∀ i, 1 ≤ i → i < 2 ^ 64 → (layout sto).read w' (.list (BitVec.ofNat 64 i))
      = if i = l.length then 0 else if i = n + 1 then addrToValue z
        else (layout sto).read w (.list (BitVec.ofNat 64 i)))
    (hindex : ∀ a, (layout sto).read w' (.index a)
      = if a = z ∧ z ≠ addr then U256.ofU64 (BitVec.ofNat 64 (n + 1)) else if a = addr then 0
        else (layout sto).read w (.index a)) :
    Represents sto A w' (removeAt l n) := by
  have hnlt : n < l.length := (List.getElem?_eq_some_iff.mp hn).1
  have hlen := hR.length_lt
  have hget := fun m => getElem?_removeAt l m hnlt
  refine ⟨hw', ?_, by rw [length_removeAt]; omega, by rw [length_removeAt]; exact hsize, ?_, ?_, ?_⟩
  · intro a ha
    exact hR.among a ((mem_removeAt hR.nodup hn a).mp ha).1
  -- the list: the last slot is free, and the slot of the place holds the last member
  · intro i h1 hi
    rw [hlist i h1 hi, hget]
    by_cases hi1 : i = l.length
    · rw [if_pos hi1, if_neg (by omega)]
      rfl
    · rw [if_neg hi1]
      by_cases hi2 : i = n + 1
      · rw [if_pos hi2, if_pos (by omega), if_pos (by omega), hz]
        rfl
      · rw [if_neg hi2, hR.list i h1 hi]
        by_cases hi3 : i - 1 < l.length - 1
        · rw [if_pos hi3, if_neg (by omega)]
        · rw [if_neg hi3, List.getElem?_eq_none (by omega)]
  -- the mapping of the members that are left: only the last one has moved
  · intro m a hm
    rw [hget] at hm
    have hmlt : m < l.length - 1 := by
      by_contra h
      rw [if_neg h] at hm
      cases hm
    rw [if_pos hmlt] at hm
    rw [hindex]
    by_cases hmn : m = n
    · rw [if_pos hmn, hz, Option.some.injEq] at hm
      have hza : z ≠ addr := by
        intro h
        have := hR.place_unique (h ▸ hz) hn
        omega
      rw [if_pos ⟨hm.symm, hza⟩, hmn]
    · rw [if_neg hmn] at hm
      have haz : a ≠ z := by
        intro h
        have := hR.place_unique hm (h ▸ hz)
        omega
      have haa : a ≠ addr := fun h => hmn (hR.place_unique hm (h ▸ hn))
      rw [if_neg (fun h => haz h.1), if_neg haa, hR.index_mem m a hm]
  -- the mapping of all other addresses
  · intro a ha
    have hstay : ∀ m, m < l.length - 1 → m ≠ n → l[m]? ≠ some a := by
      intro m h1 h2 hm
      apply ha
      refine List.mem_iff_getElem?.mpr ⟨m, ?_⟩
      rw [hget, if_pos h1, if_neg h2, hm]
    rw [hindex]
    by_cases haz : a = z ∧ z ≠ addr
    · -- The last member has moved to the place `n`, so it is still in the list.
      exfalso
      apply ha
      have hne : n ≠ l.length - 1 := fun h => haz.2 (by
        rw [← h, hn] at hz
        exact (Option.some.inj hz).symm)
      refine List.mem_iff_getElem?.mpr ⟨n, ?_⟩
      rw [hget, if_pos (by omega), if_pos rfl, hz, haz.1]
    · rw [if_neg haz]
      by_cases haa : a = addr
      · rw [if_pos haa]
      · rw [if_neg haa]
        refine hR.index_not_mem a ?_
        intro hmem
        obtain ⟨m, hm⟩ := List.mem_iff_getElem?.mp hmem
        have hmlt : m < l.length := (List.getElem?_eq_some_iff.mp hm).1
        have hmn : m ≠ n := fun h => haa (by
          rw [h, hn] at hm
          exact (Option.some.inj hm).symm)
        by_cases hlast : m = l.length - 1
        · rw [hlast, hz, Option.some.injEq] at hm
          exact haz ⟨hm.symm, fun h => haa (hm.symm.trans h)⟩
        · exact hstay m (by omega) hmn hm

section
variable {sto : Storage} {A : Set Address} (hslots : (layout sto).Apart (SetKey.Among A))
include hslots

/-- The end of `remove`: clear the last list slot and lower the size. -/
theorem run_dropLast {w : World} {len : Nat} (hw : w.readOnly = false) (hpos : 0 < len)
    (hlen : len < 2 ^ 64)
    (hsize : (layout sto).read w (.list (BitVec.ofNat 64 0)) = U256.ofU64 (BitVec.ofNat 64 len)) :
    World.run (do
        (new sto).backingStorage.writeSlot (BitVec.ofNat 64 len) 0
        let _ ← (new sto).sizeCell.decrement
        pure ()) w
      = (.ok (), (layout sto).write ((layout sto).write w (.list (BitVec.ofNat 64 len)) 0)
          (.list (BitVec.ofNat 64 0)) (U256.ofU64 (BitVec.ofNat 64 (len - 1)))) := by
  have hpred : BitVec.ofNat 64 len - 1 = BitVec.ofNat 64 (len - 1) := by bv_omega
  have hne : BitVec.ofNat 64 len ≠ 0 := by bv_omega
  have hsize' : (layout sto).read ((layout sto).write w (.list (BitVec.ofNat 64 len)) 0)
      (.list (BitVec.ofNat 64 0)) = U256.ofU64 (BitVec.ofNat 64 len) := by
    rw [read_write_list hslots _ hlen (by omega), if_neg (by omega), hsize]
  have hdec := StorageBackedUint64.run_decrement (new sto).sizeCell (by exact hw) hsize' hne
  rw [hpred] at hdec
  rw [World.run_bind_ok (Storage.run_writeSlot _ _ _ _)]
  exact World.run_bind_ok hdec _

/-- The store after the removal of the member in the place `n` of `len`, with the last
member `z`. -/
def afterRemove (sto : Storage) (w : World) (addr z : Address) (n len : Nat) : World :=
  let w₁ := (layout sto).write w (.index addr) 0
  let w₂ :=
    if n + 1 < len then
      (layout sto).write
        ((layout sto).write w₁ (.list (BitVec.ofNat 64 (n + 1))) (addrToValue z))
        (.index z) (U256.ofU64 (BitVec.ofNat 64 (n + 1)))
    else w₁
  (layout sto).write ((layout sto).write w₂ (.list (BitVec.ofNat 64 len)) 0)
    (.list (BitVec.ofNat 64 0)) (U256.ofU64 (BitVec.ofNat 64 (len - 1)))

/-- From version 11 on, `remove` moves the last member into the place of the removed one. -/
theorem run_remove_of_mem {w : World} {l : List Address} (hR : Represents sto A w l) {n : Nat}
    {addr z : Address} {arbosVersion : U64} (hversion : 11 ≤ arbosVersion)
    (hn : l[n]? = some addr) (hz : l[l.length - 1]? = some z) :
    World.run ((new sto).remove addr arbosVersion) w
      = (.ok (), afterRemove sto w addr z n l.length) := by
  have hlen := hR.length_lt
  have hnlt : n < l.length := (List.getElem?_eq_some_iff.mp hn).1
  have haddr : addr ∈ A := hR.among addr (List.mem_of_getElem? hn)
  have hzA : z ∈ A := hR.among z (List.mem_of_getElem? hz)
  have hslot : World.run ((new sto).byAddress.getUint64ByKey (addrToKey addr)) w
      = (.ok (BitVec.ofNat 64 (n + 1)), w) :=
    Storage.run_getUint64ByKey _ (hR.index_mem n addr hn)
  have hslot0 : BitVec.ofNat 64 (n + 1) ≠ 0 := by bv_omega
  set w₁ := (layout sto).write w (.index addr) 0 with hw₁
  have hclear : World.run ((new sto).byAddress.clearByKey (addrToKey addr)) w = (.ok (), w₁) := rfl
  have hsize₁ : (layout sto).read w₁ (.list (BitVec.ofNat 64 0))
      = U256.ofU64 (BitVec.ofNat 64 l.length) := by
    rw [hw₁, read_list_write_index hslots haddr]
    exact hR.size
  have hsz : World.run (new sto).sizeCell.get w₁ = (.ok (BitVec.ofNat 64 l.length), w₁) :=
    StorageBackedUint64.run_get _ hsize₁
  rw [remove, World.run_bind_ok hslot, if_neg hslot0, World.run_bind_ok hclear,
    World.run_bind_ok hsz]
  have hlt : BitVec.ofNat 64 (n + 1) < BitVec.ofNat 64 l.length ↔ n + 1 < l.length := by
    rw [BitVec.lt_def, BitVec.toNat_ofNat, BitVec.toNat_ofNat, Nat.mod_eq_of_lt (by omega),
      Nat.mod_eq_of_lt hlen]
  unfold afterRemove
  by_cases hlast : n + 1 < l.length
  -- the last member is read and moves to the free slot
  · have hatSize : World.run ((new sto).backingStorage.readSlot (BitVec.ofNat 64 l.length)) w₁
        = (.ok (addrToValue z), w₁) := by
      have hread := hR.list l.length (by omega) hlen
      rw [hz] at hread
      have : (layout sto).read w₁ (.list (BitVec.ofNat 64 l.length)) = addrToValue z := by
        rw [hw₁, read_list_write_index hslots haddr, hread]
        rfl
      exact congrArg (fun v => (Outcome.ok v, w₁)) this
    simp only [if_pos (hlt.mpr hlast), if_pos hversion, if_pos hlast]
    rw [World.run_bind_ok hatSize, World.run_bind_ok (Storage.run_writeSlot _ _ _ _),
      World.run_bind_ok (Storage.run_setByKey _ _ _ _)]
    refine run_dropLast hslots hR.writable (by omega) hlen ?_
    have hread : (layout sto).read ((layout sto).write
        ((layout sto).write w₁ (.list (BitVec.ofNat 64 (n + 1))) (addrToValue z))
        (.index z) (U256.ofU64 (BitVec.ofNat 64 (n + 1)))) (.list (BitVec.ofNat 64 0))
        = U256.ofU64 (BitVec.ofNat 64 l.length) := by
      rw [read_list_write_index hslots hzA, read_write_list hslots _ (by omega) (by omega),
        if_neg (by omega), hsize₁]
    exact hread
  -- the removed member is the last one
  · simp only [if_neg (fun h => hlast (hlt.mp h)), if_neg hlast]
    exact run_dropLast hslots hR.writable (by omega) hlen hsize₁

/-- From version 11 on, `remove` realizes `removeSwap`, also of an address that is no member. -/
theorem remove_realizes (l : List Address) (addr : Address) (arbosVersion : U64)
    (hversion : 11 ≤ arbosVersion) :
    Realizes World.handle (Represents sto A) ((new sto).remove addr arbosVersion) l (.ok ())
      (removeSwap l addr) := by
  intro w hR
  have hlen := hR.length_lt
  by_cases hmem : addr ∈ l
  · rw [removeSwap, if_pos hmem]
    have hn : l[l.idxOf addr]? = some addr := List.getElem?_idxOf hmem
    have hnlt : l.idxOf addr < l.length := List.idxOf_lt_length_of_mem hmem
    generalize l.idxOf addr = n at hn hnlt
    obtain ⟨z, hz⟩ : ∃ z, l[l.length - 1]? = some z :=
      ⟨_, List.getElem?_eq_getElem (by omega)⟩
    have haddr : addr ∈ A := hR.among addr hmem
    have hzA : z ∈ A := hR.among z (List.mem_of_getElem? hz)
    -- The removed member is the last one exactly when nothing moves.
    have hza : z ≠ addr ↔ n + 1 < l.length := by
      constructor
      · intro hne
        by_contra h
        have hn' : n = l.length - 1 := by omega
        rw [hn', hz] at hn
        exact hne (Option.some.inj hn)
      · intro hlt h
        have := hR.place_unique hn (h ▸ hz)
        omega
    refine ⟨_, run_remove_of_mem hslots hR hversion hn hz, represents_removeAt hR hn hz ?_ ?_
      (fun i h1 hi => ?_) (fun a => ?_)⟩ <;> unfold afterRemove
    · split <;> exact hR.writable
    · rw [show (SetKey.list 0) = .list (BitVec.ofNat 64 0) from rfl,
        read_write_list hslots _ (by omega) (by omega), if_pos rfl]
    · rw [read_write_list hslots _ (by omega) hi, if_neg (by omega),
        read_write_list hslots _ hlen hi]
      split
      · rfl
      · split
        · rw [read_list_write_index hslots hzA, read_write_list hslots _ (by omega) hi,
            read_list_write_index hslots haddr]
        · rw [read_list_write_index hslots haddr, if_neg (by omega)]
    · rw [read_index_write_list hslots, read_index_write_list hslots]
      split
      · rename_i hlt
        rw [read_write_index hslots hzA, read_index_write_list hslots,
          read_write_index hslots haddr]
        simp only [hza.mpr hlt, ne_eq, not_false_eq_true, and_true]
      · rename_i hlt
        have hout : ¬(a = z ∧ z ≠ addr) := fun h => hlt (hza.mp h.2)
        rw [read_write_index hslots haddr, if_neg hout]
  · rw [removeSwap, if_neg hmem]
    have hslot : World.run ((new sto).byAddress.getUint64ByKey (addrToKey addr)) w
        = (.ok 0, w) := Storage.run_getUint64ByKey _ (hR.index_not_mem addr hmem)
    exact ⟨w, World.run_bind_ok hslot _, hR⟩

/-! #### Clearing -/

/-- The loop of `clear` before the round `next`: the places below `next` are gone from
the list and from the mapping. -/
structure Clearing (sto : Storage) (l : List Address) (w : World) (next : Nat) : Prop where
  writable : w.readOnly = false
  size : (layout sto).read w (.list 0) = U256.ofU64 (BitVec.ofNat 64 l.length)
  list : ∀ i, 1 ≤ i → i < 2 ^ 64 → (layout sto).read w (.list (BitVec.ofNat 64 i))
    = if i < next then 0 else ((l[i - 1]?).map addrToValue).getD 0
  index_mem : ∀ (n : Nat) (addr : Address), l[n]? = some addr → (layout sto).read w (.index addr)
    = if n + 1 < next then 0 else U256.ofU64 (BitVec.ofNat 64 (n + 1))
  index_not_mem : ∀ addr, addr ∉ l → (layout sto).read w (.index addr) = 0

/-- One round of the loop of `clear`. -/
theorem clear_round {l : List Address} (hnodup : l.Nodup) (hamong : ∀ addr ∈ l, addr ∈ A)
    (hlen : l.length < 2 ^ 64) (i : Nat) (h1 : 1 ≤ i) (hi : i < 1 + l.length) :
    Realizes World.handle (Clearing sto l)
      (do
        let contents ← (new sto).backingStorage.readSlot (BitVec.ofNat 64 i)
        (new sto).backingStorage.writeSlot (BitVec.ofNat 64 i) 0
        (new sto).byAddress.clearByKey contents) i (.ok ()) (i + 1) := by
  intro w hR
  obtain ⟨addr, haddr⟩ : ∃ a, l[i - 1]? = some a := ⟨_, List.getElem?_eq_getElem (by omega)⟩
  have haddrA : addr ∈ A := hamong addr (List.mem_of_getElem? haddr)
  have hplace : ∀ n, l[n]? = some addr → n = i - 1 := by
    intro n hn
    obtain ⟨hn1, hn2⟩ := List.getElem?_eq_some_iff.mp hn
    obtain ⟨hi1, hi2⟩ := List.getElem?_eq_some_iff.mp haddr
    exact (List.Nodup.getElem_inj_iff hnodup).mp (hn2.trans hi2.symm)
  have hread := hR.list i h1 (by omega)
  rw [if_neg (by omega), haddr] at hread
  have hcontents : World.run ((new sto).backingStorage.readSlot (BitVec.ofNat 64 i)) w
      = (.ok (addrToValue addr), w) := congrArg (fun v => (Outcome.ok v, w)) hread
  refine ⟨(layout sto).write ((layout sto).write w (.list (BitVec.ofNat 64 i)) 0) (.index addr) 0,
    ?_, hR.writable, ?_, ?_, ?_, ?_⟩
  -- the run
  · rw [Prog.exec_bind_ok hcontents, Prog.exec_bind_ok (Storage.run_writeSlot _ _ _ _)]
    rfl
  · rw [read_list_write_index hslots haddrA,
      show (SetKey.list 0) = .list (BitVec.ofNat 64 0) from rfl,
      read_write_list hslots _ (by omega) (by omega), if_neg (by omega)]
    exact hR.size
  -- the list: the slot of the round is cleared
  · intro j hj1 hj
    rw [read_list_write_index hslots haddrA, read_write_list hslots _ (by omega) hj,
      hR.list j hj1 hj]
    by_cases hji : j = i
    · rw [if_pos hji, if_pos (by omega)]
    · rw [if_neg hji]
      by_cases hlt : j < i
      · rw [if_pos hlt, if_pos (by omega)]
      · rw [if_neg hlt, if_neg (by omega)]
  -- the mapping: so is the mapping of the member that was in it
  · intro n a hn
    rw [read_write_index hslots haddrA, read_index_write_list hslots, hR.index_mem n a hn]
    by_cases ha : a = addr
    · have hni := hplace n (ha ▸ hn)
      rw [if_pos ha, if_pos (by omega)]
    · have hni : n ≠ i - 1 := fun h => ha (by
        rw [h, haddr] at hn
        exact (Option.some.inj hn).symm)
      rw [if_neg ha]
      by_cases hlt : n + 1 < i
      · rw [if_pos hlt, if_pos (by omega)]
      · rw [if_neg hlt, if_neg (by omega)]
  · intro a ha
    have hne : a ≠ addr := fun h => ha (h ▸ List.mem_of_getElem? haddr)
    rw [read_write_index hslots haddrA, if_neg hne, read_index_write_list hslots,
      hR.index_not_mem a ha]

/-- `clear` empties the list and the mapping of its members. -/
theorem clear_realizes (l : List Address) :
    Realizes World.handle (Represents sto A) (new sto).clear l (.ok ()) [] := by
  intro w hR
  have hlen := hR.length_lt
  have hsz : World.run (new sto).sizeCell.get w = (.ok (BitVec.ofNat 64 l.length), w) :=
    run_size hR
  have hzero : BitVec.ofNat 64 l.length = 0 ↔ l = [] := by
    rw [← BitVec.toNat_inj, BitVec.toNat_ofNat, Nat.mod_eq_of_lt hlen, ← List.length_eq_zero_iff]
    rfl
  by_cases hnil : l = []
  · refine ⟨w, ?_, hnil ▸ hR⟩
    rw [clear, Prog.exec_bind_ok hsz, if_pos (hzero.mpr hnil)]
    rfl
  -- the loop starts with all places left, and then only the size remains to be cleared
  · have hstart : Clearing sto l w 1 := by
      refine ⟨hR.writable, hR.size, ?_, ?_, hR.index_not_mem⟩
      · intro i h1 hi
        rw [if_neg (by omega), hR.list i h1 hi]
      · intro n addr hn
        rw [if_neg (by omega), hR.index_mem n addr hn]
    have hloop := Realizes.forRange (h := World.handle) (R := Clearing sto l) (fun i => i) 1
      l.length (fun i h1 hi => clear_round hslots hR.nodup hR.among hlen i h1 hi)
    obtain ⟨w₁, hrun, hend⟩ := hloop w hstart
    refine ⟨(layout sto).write w₁ (.list (BitVec.ofNat 64 0)) (U256.ofU64 0), ?_, hend.writable,
      (fun _ h => nomatch h), Nat.two_pow_pos 64, ?_, ?_, ?_, ?_⟩
    · rw [clear, Prog.exec_bind_ok hsz, if_neg (fun h => hnil (hzero.mp h)), BitVec.toNat_ofNat,
        Nat.mod_eq_of_lt hlen, Prog.exec_bind_ok hrun]
      exact StorageBackedUint64.run_set _ hend.writable 0
    · rw [show (SetKey.list 0) = .list (BitVec.ofNat 64 0) from rfl,
        read_write_list hslots _ (by omega) (by omega), if_pos rfl]
      rfl
    · intro i h1 hi
      rw [read_write_list hslots _ (by omega) hi, if_neg (by omega), hend.list i h1 hi]
      split
      · rfl
      · rw [List.getElem?_eq_none (by omega)]
        rfl
    · intro n addr hn
      cases hn
    · intro addr _
      rw [read_index_write_list hslots]
      by_cases hmem : addr ∈ l
      · obtain ⟨n, hn⟩ := List.mem_iff_getElem?.mp hmem
        have hnlt : n < l.length := (List.getElem?_eq_some_iff.mp hn).1
        rw [hend.index_mem n addr hn, if_pos (by omega)]
      · exact hend.index_not_mem addr hmem

/-- The initialization of a fresh space gives the empty set. -/
theorem initializeSet_represents {w : World} (hw : w.readOnly = false)
    (hfresh : ∀ k, (layout sto).read w k = 0) :
    ∃ w', World.run (initializeSet sto) w = (.ok (), w') ∧ Represents sto A w' [] := by
  refine ⟨(layout sto).write w (.list (BitVec.ofNat 64 0)) (U256.ofU64 0),
    Storage.run_set sto hw 0 (U256.ofU64 0), hw, (fun _ h => nomatch h), Nat.two_pow_pos 64,
    ?_, ?_, ?_, ?_⟩
  · rw [show (SetKey.list 0) = .list (BitVec.ofNat 64 0) from rfl,
      read_write_list hslots _ (by omega) (by omega), if_pos rfl]
    rfl
  · intro i h1 hi
    rw [read_write_list hslots _ (by omega) hi, if_neg (by omega), hfresh]
    rfl
  · intro n addr hn
    cases hn
  · intro addr _
    rw [read_index_write_list hslots, hfresh]

end

end AddressSet

/-! ### Runs over the set -/

/-- An operation that changes a set. -/
inductive SetOp where
  | add (addr : Address)
  | remove (addr : Address) (arbosVersion : U64)
  | clear
deriving DecidableEq

namespace SetOp

/-- The meaning of the operation on a finite set. -/
def apply : SetOp → Finset Address → Outcome DbError Unit × Finset Address
  | .add addr, s => (.ok (), insert addr s)
  | .remove addr _, s => (.ok (), s.erase addr)
  | .clear, _ => (.ok (), ∅)

/-- The set has room for one more member, and a removal is of version 11 or later. -/
def Admissible (s : Finset Address) (op : SetOp) : Prop :=
  s.card < 2 ^ 64 - 1 ∧ ∀ addr version, op = .remove addr version → 11 ≤ version

/-- An operation that adds an address adds one of `A`. -/
def Among (A : Set Address) : SetOp → Prop
  | .add addr => addr ∈ A
  | .remove _ _ => True
  | .clear => True

/-- The outcomes of a sequence on the finite set: nothing fails and nothing panics. -/
theorem specOps_outcomes (ops : List SetOp) (s : Finset Address) :
    (specOps apply ops s).1 = ops.map fun _ => .ok () := by
  induction ops generalizing s with
  | nil => rfl
  | cons op ops ih => rw [specOps, List.map_cons, ih]; cases op <;> rfl

/-- The program of the operation. -/
def program [Keccak] (self : AddressSet) : SetOp → Exec DbError Unit
  | .add addr => self.add addr
  | .remove addr arbosVersion => self.remove addr arbosVersion
  | .clear => self.clear

end SetOp

namespace AddressSet
variable [Keccak]

/-- The store represents the finite set: some list of its members is in the slots. -/
def RepresentsSet (sto : Storage) (A : Set Address) (w : World) (s : Finset Address) : Prop :=
  ∃ l, Represents sto A w l ∧ l.toFinset = s

/-- Each operation realizes what it does to the finite set. -/
theorem program_realizes {sto : Storage} {A : Set Address}
    (hslots : (layout sto).Apart (SetKey.Among A)) (s : Finset Address) (op : SetOp)
    (hadm : SetOp.Admissible s op ∧ op.Among A) :
    Realizes World.handle (RepresentsSet sto A) (SetOp.program (new sto) op) s
      (SetOp.apply op s).1 (SetOp.apply op s).2 := by
  rintro w ⟨l, hR, rfl⟩
  have hcard : l.toFinset.card = l.length := List.toFinset_card_of_nodup hR.nodup
  obtain ⟨⟨hroom, hversion⟩, hamong⟩ := hadm
  cases op with
  | add addr =>
      obtain ⟨w', hrun, hR'⟩ := add_realizes hslots l hamong (by omega) w hR
      refine ⟨w', hrun, _, hR', ?_⟩
      by_cases hmem : addr ∈ l
      · simp [SetOp.apply, hmem]
      · ext a
        simp [SetOp.apply, hmem]
  | remove addr version =>
      obtain ⟨w', hrun, hR'⟩ := remove_realizes hslots l addr version (hversion _ _ rfl) w hR
      refine ⟨w', hrun, _, hR', ?_⟩
      ext a
      simp only [SetOp.apply, List.mem_toFinset, Finset.mem_erase]
      by_cases hmem : addr ∈ l
      · rw [removeSwap, if_pos hmem, mem_removeAt hR.nodup (List.getElem?_idxOf hmem), and_comm]
      · rw [removeSwap, if_neg hmem]
        exact ⟨fun h => ⟨fun heq => hmem (heq ▸ h), h⟩, fun h => h.2⟩
  | clear =>
      obtain ⟨w', hrun, hR'⟩ := clear_realizes hslots l w hR
      exact ⟨w', hrun, [], hR', rfl⟩

/-- The address set refines a finite set. After the initialization of a fresh space, every
sequence of operations ends without a panic, and the store describes the finite set `s`
that the sequence leads to: membership, the size, the list in the slots from 1 on, the
mapping that is its inverse, and zero in all other slots. `A` holds the addresses that are
added. -/
theorem refines_finset {sto : Storage} {A : Set Address}
    (hslots : (layout sto).Apart (SetKey.Among A)) (w : World) (hw : w.readOnly = false)
    (hfresh : ∀ k, (layout sto).read w k = 0)
    (ops : List SetOp) (hops : ∀ op ∈ ops, op.Among A)
    (hadm : AdmissibleOps SetOp.apply SetOp.Admissible ops ∅) :
    let start := World.run (initializeSet sto) w
    let final := runOps World.handle (SetOp.program (new sto)) ops start.2
    let s := (specOps SetOp.apply ops ∅).2
    start.1 = .ok () ∧ final.1 = ops.map (fun _ => .ok ())
    ∧ s.card < 2 ^ 64
    ∧ (∀ addr, World.run ((new sto).isMember addr) final.2 = (.ok (decide (addr ∈ s)), final.2))
    ∧ World.run (new sto).size final.2 = (.ok (BitVec.ofNat 64 s.card), final.2)
    ∧ (∀ max, ∃ members, World.run ((new sto).allMembers max) final.2 = (.ok members, final.2)
        ∧ members.length = min s.card max.toNat ∧ members.Nodup ∧ ∀ addr ∈ members, addr ∈ s)
    ∧ ∃ l : List Address, l.Nodup ∧ l.length = s.card ∧ (∀ addr, addr ∈ l ↔ addr ∈ s)
        ∧ (∀ (n : Nat) (addr : Address), l[n]? = some addr →
            (layout sto).read final.2 (.list (BitVec.ofNat 64 (n + 1))) = addrToValue addr
            ∧ (layout sto).read final.2 (.index addr) = U256.ofU64 (BitVec.ofNat 64 (n + 1)))
        ∧ (∀ addr, addr ∉ s → (layout sto).read final.2 (.index addr) = 0)
        ∧ ∀ i, s.card < i → i < 2 ^ 64 →
            (layout sto).read final.2 (.list (BitVec.ofNat 64 i)) = 0 := by
  intro start final s
  obtain ⟨w₀, hrun, hR₀⟩ := initializeSet_represents hslots hw hfresh
  have hstart : start = (.ok (), w₀) := hrun
  obtain ⟨houtcomes, l, hR, hl⟩ := runOps_realizes (program_realizes hslots) ops w₀ ∅
    ⟨[], hR₀, rfl⟩ (hadm.and hops)
  have hfinal : final = runOps World.handle (SetOp.program (new sto)) ops w₀ := by
    simp only [final, hstart]
  rw [← hfinal] at houtcomes hR
  have hcard : s.card = l.length := by rw [← List.toFinset_card_of_nodup hR.nodup, hl]
  have hmem : ∀ addr, addr ∈ l ↔ addr ∈ s := fun addr => by rw [← List.mem_toFinset, hl]
  have hlen := hR.length_lt
  refine ⟨by rw [hstart], by rw [houtcomes, SetOp.specOps_outcomes], by omega, ?_, ?_,
    fun max => ⟨_, run_allMembers hR max, ?_, ?_, fun addr ha => ?_⟩, l, hR.nodup, hcard.symm,
    hmem, fun n addr hn => ⟨?_, hR.index_mem n addr hn⟩, ?_, ?_⟩
  · intro addr
    rw [run_isMember hR addr, decide_eq_decide.mpr (hmem addr)]
  · rw [run_size hR, hcard]
  · rw [List.length_take, hcard]
    omega
  · exact hR.nodup.sublist (List.take_sublist _ _)
  · exact (hmem addr).mp (List.mem_of_mem_take ha)
  · have hnlt : n < l.length := (List.getElem?_eq_some_iff.mp hn).1
    rw [hR.list (n + 1) (by omega) (by omega), Nat.add_sub_cancel, hn]
    rfl
  · intro addr ha
    exact hR.index_not_mem addr fun h => ha ((hmem addr).mp h)
  · intro i h1 hi
    rw [hR.list i (by omega) hi, List.getElem?_eq_none (by omega)]
    rfl

end AddressSet

namespace AddressSet
attribute [local instance] sampleHash

/-- The sample hash gives all slots of a set in the root space different words. -/
theorem sampleRoot_layout_injective : Function.Injective (layout sampleRoot).slot := by
  have hlen : (sampleRoot.openSubStorage [0]).storageKey.length = 32 := by decide
  have hhead : (sampleRoot.openSubStorage [0]).storageKey.headD 0 ≠ 52 := by decide
  have hcross : ∀ (i : U64) (addr : Address), sampleRoot.mapAddress i
      ≠ (sampleRoot.openSubStorage [0]).mapAddressByKey (addrToKey addr) := by
    intro i addr h
    have hinj := samplePage_inj (toNat_ofU64_lt i) (toNat_intoWord_lt addr) (by decide) hhead
      (Or.inl rfl) (Or.inr hlen) (s := sampleRoot) h
    rw [hlen] at hinj
    exact absurd hinj.1 (by decide)
  rintro (i | a) (j | b) h
  · exact congrArg _ (sampleRoot_mapAddress_injective h)
  · exact absurd h (hcross i b)
  · exact absurd h.symm (hcross j a)
  · have hinj := samplePage_inj (toNat_intoWord_lt a) (toNat_intoWord_lt b) hhead hhead
      (Or.inr hlen) (Or.inr hlen) h
    exact congrArg _ (Address.intoWord_injective hinj.2.2)

/-- The sample hash keeps all addresses apart. -/
theorem sampleRoot_layout_apart : (layout sampleRoot).Apart (SetKey.Among Set.univ) :=
  .of_injective sampleRoot_layout_injective _

/-- A run on a blank store with the sample hash. The zero address stays when the member
before it is removed. -/
theorem refines_finset_sample :
    World.run ((new sampleRoot).isMember 0)
        (runOps World.handle (SetOp.program (new sampleRoot)) [.add 5, .add 0, .add 9, .remove 5 11]
          (World.run (initializeSet sampleRoot) World.blank).2).2
      = (.ok true, (runOps World.handle (SetOp.program (new sampleRoot))
          [.add 5, .add 0, .add 9, .remove 5 11]
          (World.run (initializeSet sampleRoot) World.blank).2).2) :=
  (refines_finset sampleRoot_layout_apart World.blank rfl (fun _ => rfl)
    [.add 5, .add 0, .add 9, .remove 5 11] (by simp [SetOp.Among])
    (by simp [AdmissibleOps, SetOp.Admissible, SetOp.apply])).2.2.2.1 0

end AddressSet

end ArbReth
