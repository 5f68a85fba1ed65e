import ArbReth.Proofs.AddressSet

/-!
# `ArbReth.Proofs.AddressSet.Legacy`: sets from before version 11

Before version 11 a removal moves the last entry of the list and leaves its mapping as it
is. So places get stale: the list can hold addresses that are not members, miss members
and repeat them. `RepresentsLegacy` says what is left of the representation: an address is
a member exactly when its place is not zero, the size is the number of the members, and
the list is zero above the size.

`clearList` and then `rectifyMapping` on each member repair the set. `Repairing` is the
invariant between two repairs: the set of the members that are repaired is in order, and
the other members have some place. Such a place cannot pass for a correct one. When it is
at most the size, the slot holds a repaired member, which is another address.
-/

set_option autoImplicit false

namespace ArbReth

open ArbReth.Program

/-- An operation that changes a set before version 11. -/
inductive LegacySetOp where
  | add (addr : Address)
  | remove (addr : Address) (arbosVersion : U64) (legacy : arbosVersion < 11)

namespace LegacySetOp

/-- The meaning of the operation on a finite set. A set that has no room for a new member
stays as it is, and the addition panics. -/
def apply : LegacySetOp → Finset Address → Outcome DbError Unit × Finset Address
  | .add addr, s =>
      if addr ∉ s ∧ s.card = 2 ^ 64 - 1 then (.panic "attempt to add with overflow", s)
      else (.ok (), insert addr s)
  | .remove addr _ _, s => (.ok (), s.erase addr)

/-- An operation that adds an address adds one of `A`. -/
def Among (A : Set Address) : LegacySetOp → Prop
  | .add addr => addr ∈ A
  | .remove _ _ _ => True

/-- The program of the operation. -/
def program [Keccak] (self : AddressSet) : LegacySetOp → Exec DbError Unit
  | .add addr => self.add addr
  | .remove addr arbosVersion _ => self.remove addr arbosVersion

end LegacySetOp

namespace AddressSet
variable [Keccak]

/-- The store represents the set of the members, with places that may be stale. The members
are addresses of `A`. -/
structure RepresentsLegacy (sto : Storage) (A : Set Address) (w : World) (s : Finset Address) :
    Prop where
  writable : w.readOnly = false
  among : ∀ addr ∈ s, addr ∈ A
  card_lt : s.card < 2 ^ 64
  size : (layout sto).read w (.list 0) = U256.ofU64 (BitVec.ofNat 64 s.card)
  index : ∀ addr, ∃ place : U64,
    (layout sto).read w (.index addr) = U256.ofU64 place ∧ (place ≠ 0 ↔ addr ∈ s)
  list_above : ∀ i, s.card < i → i < 2 ^ 64 →
    (layout sto).read w (.list (BitVec.ofNat 64 i)) = 0

namespace RepresentsLegacy
variable {sto : Storage} {A : Set Address} {w : World} {s : Finset Address}
  (hR : RepresentsLegacy sto A w s)
include hR

/-- `size` answers the number of the members. -/
theorem run_size : World.run (new sto).size w = (.ok (BitVec.ofNat 64 s.card), w) :=
  StorageBackedUint64.run_get _ hR.size

/-- The mapping is not zero at the members. -/
theorem index_ne_zero_iff (addr : Address) :
    (layout sto).read w (.index addr) ≠ 0 ↔ addr ∈ s := by
  obtain ⟨place, hplace, hmem⟩ := hR.index addr
  rw [hplace, ← hmem]
  exact not_congr ⟨fun h => U256.ofU64_injective h, fun h => by rw [h]; rfl⟩

/-- `isMember` answers from the mapping, which legacy removals keep right. -/
theorem run_isMember (addr : Address) :
    World.run ((new sto).isMember addr) w = (.ok (decide (addr ∈ s)), w) := by
  have hiff := hR.index_ne_zero_iff addr
  have hrun : World.run ((new sto).isMember addr) w
      = (.ok ((layout sto).read w (.index addr) != 0), w) := rfl
  rw [hrun, Bool.eq_iff_iff.mpr (bne_iff_ne.trans (hiff.trans (decide_eq_true_iff).symm))]

end RepresentsLegacy

section
variable {sto : Storage} {A : Set Address} (hslots : (layout sto).Apart (SetKey.Among A))
include hslots

/-! ### Adding and removing -/

/-- Before version 11 `add` still adds to the set. -/
theorem legacy_add_realizes (s : Finset Address) {addr : Address} (haddr : addr ∈ A) :
    Realizes World.handle (RepresentsLegacy sto A) ((new sto).add addr) s
      (LegacySetOp.apply (.add addr) s).1 (LegacySetOp.apply (.add addr) s).2 := by
  intro w hR
  have hmember := hR.run_isMember addr
  have hcard := hR.card_lt
  by_cases hmem : addr ∈ s
  -- nothing to add
  · have hroom : ¬(addr ∉ s ∧ s.card = 2 ^ 64 - 1) := fun h => h.1 hmem
    simp only [LegacySetOp.apply, if_neg hroom, Finset.insert_eq_of_mem hmem]
    rw [decide_eq_true hmem] at hmember
    exact ⟨w, World.run_bind_ok hmember _, hR⟩
  · have hindex : (layout sto).read w (.index addr) = 0 := by
      by_contra h
      exact hmem ((hR.index_ne_zero_iff addr).mp h)
    by_cases hfull : s.card = 2 ^ 64 - 1
    -- no room: the next place is not a word
    · simp only [LegacySetOp.apply, if_pos (And.intro hmem hfull)]
      exact ⟨w, run_add_of_full hindex (hfull ▸ hR.size), hR⟩
    · have hroom : ¬(addr ∉ s ∧ s.card = 2 ^ 64 - 1) := fun h => hfull h.2
      simp only [LegacySetOp.apply, if_neg hroom]
      have hinsert : (insert addr s).card = s.card + 1 := Finset.card_insert_of_notMem hmem
      refine ⟨afterAdd sto w addr s.card, run_add_of_index_eq_zero hslots haddr hR.writable hindex
        hR.size (by omega), hR.writable, ?_, by omega, ?_, ?_, ?_⟩
      · intro a ha
        rcases Finset.mem_insert.mp ha with rfl | ha
        · exact haddr
        · exact hR.among a ha
      · rw [read_size_afterAdd hslots, hinsert]
      · intro a
        -- The new member gets the last place, and the others keep theirs, stale or not.
        rw [read_index_afterAdd hslots haddr, Finset.mem_insert]
        by_cases ha : a = addr
        · have hne : BitVec.ofNat 64 (s.card + 1) ≠ 0 := by bv_omega
          exact ⟨BitVec.ofNat 64 (s.card + 1), by rw [if_pos ha],
            iff_of_true hne (Or.inl ha)⟩
        · obtain ⟨place, hplace, hiff⟩ := hR.index a
          exact ⟨place, by rw [if_neg ha, hplace], by rw [hiff]; simp [ha]⟩
      · intro i hi hlt
        rw [read_list_afterAdd hslots haddr _ (by omega) (by omega) hlt, if_neg (by omega),
          hR.list_above i (by omega) hlt]

/-- The run of a removal before version 11. The last entry of the list moves to the place
of the member, when the place is below it, and the mapping of the entry stays. -/
theorem run_legacy_remove {w : World} {s : Finset Address} (hR : RepresentsLegacy sto A w s)
    {addr : Address} (hmem : addr ∈ s) {place : U64}
    (hplace : (layout sto).read w (.index addr) = U256.ofU64 place) {arbosVersion : U64}
    (hlegacy : arbosVersion < 11) :
    ∃ w₂, (w₂ = (layout sto).write w (.index addr) 0
        ∨ place < BitVec.ofNat 64 s.card ∧ ∃ v, w₂
          = (layout sto).write ((layout sto).write w (.index addr) 0) (.list place) v)
      ∧ World.run ((new sto).remove addr arbosVersion) w
        = (.ok (), (layout sto).write
          ((layout sto).write w₂ (.list (BitVec.ofNat 64 s.card)) 0)
          (.list (BitVec.ofNat 64 0)) (U256.ofU64 (BitVec.ofNat 64 (s.card - 1)))) := by
  have hpos : 0 < s.card := Finset.card_pos.mpr ⟨addr, hmem⟩
  have haddr : addr ∈ A := hR.among addr hmem
  have hne : place ≠ 0 := by
    rintro rfl
    exact (hR.index_ne_zero_iff addr).mpr hmem hplace
  have hslot : World.run ((new sto).byAddress.getUint64ByKey (addrToKey addr)) w
      = (.ok place, w) := Storage.run_getUint64ByKey _ hplace
  set w₁ := (layout sto).write w (.index addr) 0 with hw₁
  have hclear : World.run ((new sto).byAddress.clearByKey (addrToKey addr)) w = (.ok (), w₁) := rfl
  have hsize₁ : (layout sto).read w₁ (.list (BitVec.ofNat 64 0))
      = U256.ofU64 (BitVec.ofNat 64 s.card) := by
    rw [hw₁, read_list_write_index hslots haddr]
    exact hR.size
  have hsz : World.run (new sto).sizeCell.get w₁ = (.ok (BitVec.ofNat 64 s.card), w₁) :=
    StorageBackedUint64.run_get _ hsize₁
  have hversion : ¬11 ≤ arbosVersion := by bv_omega
  rw [remove, World.run_bind_ok hslot, if_neg hne, World.run_bind_ok hclear,
    World.run_bind_ok hsz]
  -- A stale place can be past the size. The entry moves only when it is below.
  by_cases hlt : place < BitVec.ofNat 64 s.card
  · simp only [if_pos hlt, if_neg hversion]
    have hatSize : World.run ((new sto).backingStorage.readSlot (BitVec.ofNat 64 s.card)) w₁
        = (.ok ((layout sto).read w₁ (.list (BitVec.ofNat 64 s.card))), w₁) := rfl
    refine ⟨(layout sto).write w₁ (.list place)
      ((layout sto).read w₁ (.list (BitVec.ofNat 64 s.card))), Or.inr ⟨hlt, _, rfl⟩, ?_⟩
    rw [World.run_bind_ok hatSize, World.run_bind_ok (Storage.run_writeSlot _ _ _ _)]
    -- The size is at place 0, which no member has.
    have hkeep : SetKey.list (BitVec.ofNat 64 0) ≠ .list place :=
      fun h => hne (SetKey.list.inj h).symm
    have hsize₂ : ∀ v, (layout sto).read ((layout sto).write w₁ (.list place) v)
        (.list (BitVec.ofNat 64 0)) = U256.ofU64 (BitVec.ofNat 64 s.card) := by
      intro v
      rw [(hslots (.list _) trivial).read_write, if_neg hkeep, hsize₁]
    exact run_dropLast hslots hR.writable hpos hR.card_lt (hsize₂ _)
  · simp only [if_neg hlt]
    exact ⟨w₁, Or.inl rfl, run_dropLast hslots hR.writable hpos hR.card_lt hsize₁⟩

/-- Before version 11 `remove` takes the address out of the set, though the list
can keep a stale place. -/
theorem legacy_remove_realizes (s : Finset Address) (addr : Address) (arbosVersion : U64)
    (hlegacy : arbosVersion < 11) :
    Realizes World.handle (RepresentsLegacy sto A) ((new sto).remove addr arbosVersion) s (.ok ())
      (s.erase addr) := by
  intro w hR
  have hcard := hR.card_lt
  obtain ⟨place, hplace, hiff⟩ := hR.index addr
  by_cases hmem : addr ∈ s
  · have hpos : 0 < s.card := Finset.card_pos.mpr ⟨addr, hmem⟩
    have haddr : addr ∈ A := hR.among addr hmem
    have herase : (s.erase addr).card = s.card - 1 := Finset.card_erase_of_mem hmem
    obtain ⟨w₂, hw₂, hrun⟩ := run_legacy_remove hslots hR hmem hplace hlegacy
    -- the entry that moves changes one slot below the size
    have hreadonly : w₂.readOnly = false := by
      rcases hw₂ with rfl | ⟨_, v, rfl⟩ <;> exact hR.writable
    have hindex : ∀ a, (layout sto).read w₂ (.index a)
        = if a = addr then 0 else (layout sto).read w (.index a) := by
      intro a
      rcases hw₂ with rfl | ⟨_, v, rfl⟩
      · exact read_write_index hslots haddr _ _ _
      · rw [read_index_write_list hslots, read_write_index hslots haddr]
    have habove : ∀ i, s.card < i → i < 2 ^ 64 →
        (layout sto).read w₂ (.list (BitVec.ofNat 64 i)) = 0 := by
      intro i hi hlt
      rcases hw₂ with rfl | ⟨hbelow, v, rfl⟩
      · rw [read_list_write_index hslots haddr, hR.list_above i hi hlt]
      · have hne : SetKey.list (BitVec.ofNat 64 i) ≠ .list place := by
          intro h
          have := SetKey.list.inj h
          bv_omega
        rw [(hslots (.list _) trivial).read_write, if_neg hne, read_list_write_index hslots haddr,
          hR.list_above i hi hlt]
    refine ⟨_, hrun, hreadonly, fun a ha => hR.among a (Finset.mem_of_mem_erase ha), by omega,
      ?_, ?_, ?_⟩
    · rw [show (SetKey.list 0) = .list (BitVec.ofNat 64 0) from rfl,
        read_write_list hslots _ (by omega) (by omega), if_pos rfl, herase]
    · intro a
      rw [read_index_write_list hslots, read_index_write_list hslots, hindex, Finset.mem_erase]
      by_cases ha : a = addr
      · exact ⟨0, by rw [if_pos ha]; rfl, by simp [ha]⟩
      · obtain ⟨place', hplace', hiff'⟩ := hR.index a
        exact ⟨place', by rw [if_neg ha, hplace'], by rw [hiff']; simp [ha]⟩
    · intro i hi hlt
      rw [read_write_list hslots _ (by omega) hlt, if_neg (by omega),
        read_write_list hslots _ hcard hlt]
      -- The last slot is cleared, and the slots past it were zero before.
      by_cases hlast : i = s.card
      · rw [if_pos hlast]
      · rw [if_neg hlast, habove i (by omega) hlt]
  · rw [Finset.erase_eq_of_notMem hmem]
    -- Nothing to remove.
    have hzero : place = 0 := by
      by_contra h
      exact hmem (hiff.mp h)
    have hslot : World.run ((new sto).byAddress.getUint64ByKey (addrToKey addr)) w
        = (.ok 0, w) := Storage.run_getUint64ByKey _ (hzero ▸ hplace)
    exact ⟨w, World.run_bind_ok hslot _, hR⟩

/-- Each operation realizes what it does to the finite set. -/
theorem legacy_program_realizes (s : Finset Address) (op : LegacySetOp) (hop : op.Among A) :
    Realizes World.handle (RepresentsLegacy sto A) (LegacySetOp.program (new sto) op) s
      (LegacySetOp.apply op s).1 (LegacySetOp.apply op s).2 := by
  cases op with
  | add addr => exact legacy_add_realizes hslots s hop
  | remove addr version legacy => exact legacy_remove_realizes hslots s addr version legacy

end

/-! ### The repair -/

/-- The loop of `clearList` before the round `next`. -/
structure ClearingList (sto : Storage) (s : Finset Address) (w : World) (next : Nat) : Prop where
  writable : w.readOnly = false
  index : ∀ addr, ∃ place : U64,
    (layout sto).read w (.index addr) = U256.ofU64 place ∧ (place ≠ 0 ↔ addr ∈ s)
  list : ∀ i, 1 ≤ i → i < 2 ^ 64 → i < next ∨ s.card < i →
    (layout sto).read w (.list (BitVec.ofNat 64 i)) = 0

/-- The members in `done` are repaired, in this order. The other members have some place. -/
structure Repairing (sto : Storage) (s : Finset Address) (w : World) (done : List Address) :
    Prop where
  writable : w.readOnly = false
  nodup : done.Nodup
  mem : ∀ addr ∈ done, addr ∈ s
  size : (layout sto).read w (.list 0) = U256.ofU64 (BitVec.ofNat 64 done.length)
  list : ∀ i, 1 ≤ i → i < 2 ^ 64 →
    (layout sto).read w (.list (BitVec.ofNat 64 i)) = ((done[i - 1]?).map addrToValue).getD 0
  index_done : ∀ (n : Nat) (addr : Address), done[n]? = some addr →
    (layout sto).read w (.index addr) = U256.ofU64 (BitVec.ofNat 64 (n + 1))
  index_left : ∀ addr ∈ s, addr ∉ done →
    ∃ place : U64, (layout sto).read w (.index addr) = U256.ofU64 place ∧ place ≠ 0
  index_not_mem : ∀ addr, addr ∉ s → (layout sto).read w (.index addr) = 0

namespace Repairing
variable {sto : Storage} {s : Finset Address} {w : World} {done : List Address}
  (hR : Repairing sto s w done)
include hR

/-- The repaired members are no more than the members. -/
theorem length_le : done.length ≤ s.card := by
  -- The repaired members are distinct, so their list counts them.
  rw [← List.toFinset_card_of_nodup hR.nodup]
  exact Finset.card_le_card fun a ha => hR.mem a (List.mem_toFinset.mp ha)

/-- When all members are repaired, the store represents the list of them. -/
theorem represents {A : Set Address} (hamong : ∀ addr ∈ s, addr ∈ A) (hcard : s.card < 2 ^ 64)
    (hall : ∀ addr ∈ s, addr ∈ done) :
    Represents sto A w done where
  writable := hR.writable
  among addr hmem := hamong addr (hR.mem addr hmem)
  length_lt := Nat.lt_of_le_of_lt hR.length_le hcard
  size := hR.size
  list := hR.list
  index_mem := hR.index_done
  index_not_mem addr hnot := hR.index_not_mem addr fun hmem => hnot (hall addr hmem)

/-- A place that is left cannot pass for a correct one: a slot up to the size holds a
repaired member. -/
theorem place_wrong (hcard : s.card < 2 ^ 64) {addr : Address} (hleft : addr ∉ done)
    {place : U64} (hne : place ≠ 0) :
    ¬((layout sto).read w (.list place) = addrToValue addr
      ∧ place ≤ BitVec.ofNat 64 done.length) := by
  rintro ⟨hslot, hle⟩
  have hlen := hR.length_le
  have hpos : 1 ≤ place.toNat := by
    by_contra hlt
    exact hne (BitVec.eq_of_toNat_eq (by simp; omega))
  have hbelow : place.toNat ≤ done.length := by
    rwa [BitVec.le_def, BitVec.toNat_ofNat, Nat.mod_eq_of_lt (by omega)] at hle
  have hread := hR.list place.toNat hpos place.isLt
  rw [BitVec.ofNat_toNat, BitVec.setWidth_eq, hslot,
    List.getElem?_eq_getElem (by omega)] at hread
  -- The slot holds the key of a repaired member, and keys are injective also at zero.
  have heq : addr = done[place.toNat - 1] := Address.intoWord_injective hread
  exact hleft (heq ▸ List.getElem_mem _)

end Repairing

section
variable {sto : Storage} {A : Set Address} (hslots : (layout sto).Apart (SetKey.Among A))
include hslots

/-- `clearList` leaves the list empty and the places as they are. -/
theorem clearList_repairing {s : Finset Address} {w : World} (hR : RepresentsLegacy sto A w s) :
    ∃ w', World.run (new sto).clearList w = (.ok (), w') ∧ Repairing sto s w' [] := by
  have hcard := hR.card_lt
  have htoNat : (BitVec.ofNat 64 s.card).toNat = s.card := Nat.mod_eq_of_lt hcard
  have hsz : World.run (new sto).sizeCell.get w = (.ok (BitVec.ofNat 64 s.card), w) :=
    hR.run_size
  -- what the empty list asks of a store
  have hdone : ∀ w' : World, w'.readOnly = false →
      (layout sto).read w' (.list 0) = U256.ofU64 (BitVec.ofNat 64 0) →
      (∀ addr, ∃ place : U64,
        (layout sto).read w' (.index addr) = U256.ofU64 place ∧ (place ≠ 0 ↔ addr ∈ s)) →
      (∀ i, 1 ≤ i → i < 2 ^ 64 → (layout sto).read w' (.list (BitVec.ofNat 64 i)) = 0) →
      Repairing sto s w' [] := by
    intro w' hw hsize hindex hlist
    refine ⟨hw, List.nodup_nil, (fun _ h => nomatch h), hsize, hlist, (fun _ _ h => nomatch h),
      ?_, ?_⟩
    · intro addr hmem _
      obtain ⟨place, hplace, hiff⟩ := hindex addr
      exact ⟨place, hplace, hiff.mpr hmem⟩
    · intro addr hnot
      obtain ⟨place, hplace, hiff⟩ := hindex addr
      have hzero : place = 0 := by
        by_contra h
        exact hnot (hiff.mp h)
      rw [hplace, hzero]
      rfl
  -- The source returns early for an empty list, whose slots are zero already.
  by_cases hempty : s.card = 0
  · have hzero : BitVec.ofNat 64 s.card = 0 := by rw [hempty]; rfl
    refine ⟨w, ?_, hdone w hR.writable ?_ hR.index fun i h1 hi => hR.list_above i (by omega) hi⟩
    · rw [clearList, World.run_bind_ok hsz, if_pos hzero]
      rfl
    · rw [hR.size, hempty]
  · have hround : ∀ i, 1 ≤ i → i < 1 + s.card →
        Realizes World.handle (ClearingList sto s)
          ((new sto).backingStorage.writeSlot (BitVec.ofNat 64 i) 0) i (.ok ()) (i + 1) := by
      intro i h1 hi w' hw'
      refine ⟨(layout sto).write w' (.list (BitVec.ofNat 64 i)) 0, rfl, hw'.writable, ?_, ?_⟩
      · intro addr
        rw [read_index_write_list hslots]
        exact hw'.index addr
      · intro j hj1 hj hcase
        rw [read_write_list hslots _ (by omega) hj]
        by_cases hji : j = i
        · rw [if_pos hji]
        · rw [if_neg hji, hw'.list j hj1 hj (by omega)]
    have hstart : ClearingList sto s w 1 :=
      ⟨hR.writable, hR.index, fun i h1 hi hcase => hR.list_above i (by omega) hi⟩
    obtain ⟨w₁, hrun, hend⟩ := Realizes.forRange (fun i => i) 1 s.card hround w hstart
    have hne : BitVec.ofNat 64 s.card ≠ 0 := by bv_omega
    refine ⟨(layout sto).write w₁ (.list (BitVec.ofNat 64 0)) (U256.ofU64 0), ?_,
      hdone _ hend.writable ?_ ?_ ?_⟩
    · rw [clearList, World.run_bind_ok hsz, if_neg hne, htoNat, World.run_bind_ok hrun]
      exact StorageBackedUint64.run_set _ hend.writable 0
    · rw [show (SetKey.list 0) = .list (BitVec.ofNat 64 0) from rfl,
        read_write_list hslots _ (by omega) (by omega), if_pos rfl]
      rfl
    · intro addr
      rw [read_index_write_list hslots]
      exact hend.index addr
    · intro i h1 hi
      rw [read_write_list hslots _ (by omega) hi, if_neg (by omega)]
      exact hend.list i h1 hi (by omega)

/-- The repair of one more member. -/
theorem rectifyMapping_realizes {s : Finset Address} (hamong : ∀ addr ∈ s, addr ∈ A)
    (hcard : s.card < 2 ^ 64) {done : List Address} {addr : Address} (hmem : addr ∈ s)
    (hleft : addr ∉ done) :
    Realizes World.handle (Repairing sto s) ((new sto).rectifyMapping addr) done (.ok ())
      (done ++ [addr]) := by
  intro w hR
  have haddr : addr ∈ A := hamong addr hmem
  obtain ⟨place, hplace, hne⟩ := hR.index_left addr hmem hleft
  -- there is a member more than the repaired ones
  have hroom : done.length + 1 ≤ s.card := by
    have hlen : (addr :: done).toFinset.card = done.length + 1 :=
      List.toFinset_card_of_nodup (List.nodup_cons.mpr ⟨hleft, hR.nodup⟩)
    rw [← hlen]
    refine Finset.card_le_card fun a ha => ?_
    rcases List.mem_cons.mp (List.mem_toFinset.mp ha) with rfl | ha
    · exact hmem
    · exact hR.mem a ha
  have hmapped : (layout sto).read w (.index addr) ≠ 0 := by
    rw [hplace]
    exact fun h => hne (U256.ofU64_injective h)
  have hmember : World.run ((new sto).isMember addr) w = (.ok true, w) := by
    have hrun : World.run ((new sto).isMember addr) w
        = (.ok ((layout sto).read w (.index addr) != 0), w) := rfl
    rw [hrun, bne_iff_ne.mpr hmapped]
  have hslot : World.run ((new sto).byAddress.getUint64ByKey (addrToKey addr)) w
      = (.ok place, w) := Storage.run_getUint64ByKey _ hplace
  have hatSlot : World.run ((new sto).backingStorage.readSlot place) w
      = (.ok ((layout sto).read w (.list place)), w) := rfl
  have hsz : World.run (new sto).sizeCell.get w = (.ok (BitVec.ofNat 64 done.length), w) :=
    StorageBackedUint64.run_get _ hR.size
  set w₁ := (layout sto).write w (.index addr) 0 with hw₁
  have hclear : World.run ((new sto).byAddress.clearByKey (addrToKey addr)) w = (.ok (), w₁) := rfl
  have hadd : World.run ((new sto).add addr) w₁ = (.ok (), afterAdd sto w₁ addr done.length) := by
    refine run_add_of_index_eq_zero hslots haddr hR.writable ?_ ?_ (by omega)
    · rw [hw₁, read_write_index hslots haddr, if_pos rfl]
    · rw [hw₁, read_list_write_index hslots haddr]
      exact hR.size
  have hindex : ∀ a, (layout sto).read (afterAdd sto w₁ addr done.length) (.index a)
      = if a = addr then U256.ofU64 (BitVec.ofNat 64 (done.length + 1))
        else (layout sto).read w (.index a) := by
    intro a
    rw [read_index_afterAdd hslots haddr, hw₁, read_write_index hslots haddr]
    split <;> rfl
  refine ⟨afterAdd sto w₁ addr done.length, ?_, hR.writable, ?_, ?_, ?_, ?_, ?_, ?_, ?_⟩
  · change World.run _ w = _
    rw [rectifyMapping, World.run_bind_ok hmember]
    simp only [Bool.not_true, Bool.false_eq_true, if_false]
    -- The check for a correct place fails, so the member is added anew at the end.
    rw [World.run_bind_ok hslot, World.run_bind_ok hatSlot, World.run_bind_ok hsz,
      if_neg (hR.place_wrong hcard hleft hne), World.run_bind_ok hclear]
    exact hadd
  · rw [← List.concat_eq_append, List.nodup_concat]
    exact ⟨hleft, hR.nodup⟩
  · intro a ha
    rcases List.mem_append.mp ha with ha | ha
    · exact hR.mem a ha
    · rwa [List.mem_singleton.mp ha]
  · rw [read_size_afterAdd hslots, List.length_append, List.length_singleton]
  -- the list
  · intro i h1 hi
    rw [read_list_afterAdd hslots haddr _ (by omega) h1 hi, hw₁, read_list_write_index hslots haddr,
      hR.list i h1 hi]
    exact getElem?_append_slot done addr h1
  -- the mapping
  · intro n a hn
    rw [hindex]
    exact index_append hleft hn (hR.index_done n a)
  · intro a ha hnot
    rw [List.mem_append, not_or, List.mem_singleton] at hnot
    rw [hindex, if_neg hnot.2]
    exact hR.index_left a ha hnot.1
  · intro a ha
    have hne' : a ≠ addr := fun h => ha (h ▸ hmem)
    rw [hindex, if_neg hne']
    exact hR.index_not_mem a ha

/-- The members that are left are repaired in any order. -/
theorem repair_all {s : Finset Address} (hamong : ∀ addr ∈ s, addr ∈ A) (hcard : s.card < 2 ^ 64)
    (order done : List Address)
    (w : World) (hR : Repairing sto s w done) (hnodup : (done ++ order).Nodup)
    (hmem : ∀ addr ∈ order, addr ∈ s) :
    ∃ w', runOps World.handle (new sto).rectifyMapping order w
        = (order.map (fun _ => .ok ()), w')
      ∧ Repairing sto s w' (done ++ order) := by
  induction order generalizing done w with
  | nil => exact ⟨w, rfl, by rwa [List.append_nil]⟩
  | cons addr order ih =>
      -- The next member is not among the repaired ones, as the order has no repetition.
      have hleft : addr ∉ done := fun h =>
        (List.nodup_append.mp hnodup).2.2 addr h addr List.mem_cons_self rfl
      obtain ⟨w₁, hrun, hR₁⟩ := rectifyMapping_realizes hslots hamong hcard
        (hmem addr List.mem_cons_self) hleft w hR
      rw [← List.singleton_append, ← List.append_assoc] at hnodup
      obtain ⟨w', hrest, hR'⟩ := ih (done ++ [addr]) w₁ hR₁ hnodup
        fun a ha => hmem a (List.mem_cons_of_mem _ ha)
      refine ⟨w', ?_, by rwa [List.append_assoc] at hR'⟩
      simp only [runOps, hrun, hrest, List.map_cons]

/-- A set from before version 11 can be repaired. After the initialization of a fresh
space, every sequence of additions and removals leads to a store that still tells the
members and their number. There `clearList` and one `rectifyMapping` for each member, in
any order, end without a panic. The store then represents the members in that order: each
in its slot with its mapping, and zero everywhere else. `A` holds the addresses that are
added. -/
theorem legacy_repairable (w : World) (hw : w.readOnly = false)
    (hfresh : ∀ k, (layout sto).read w k = 0) (ops : List LegacySetOp)
    (hops : ∀ op ∈ ops, op.Among A) :
    let start := World.run (initializeSet sto) w
    let final := runOps World.handle (LegacySetOp.program (new sto)) ops start.2
    let s := (specOps LegacySetOp.apply ops ∅).2
    start.1 = .ok () ∧ final.1 = (specOps LegacySetOp.apply ops ∅).1
    ∧ (∀ addr, World.run ((new sto).isMember addr) final.2 = (.ok (decide (addr ∈ s)), final.2))
    ∧ World.run (new sto).size final.2 = (.ok (BitVec.ofNat 64 s.card), final.2)
    ∧ s.card < 2 ^ 64
    ∧ ∀ order : List Address, order.Nodup → order.toFinset = s →
        ∃ cleared repaired, World.run (new sto).clearList final.2 = (.ok (), cleared)
          ∧ runOps World.handle (new sto).rectifyMapping order cleared
            = (order.map (fun _ => .ok ()), repaired)
          ∧ Represents sto A repaired order := by
  intro start final s
  obtain ⟨w₀, hrun, hR₀⟩ := initializeSet_represents hslots hw hfresh
  have hstart : start = (.ok (), w₀) := hrun
  -- A fresh set is a set of before version 11 without members.
  have hlegacy : RepresentsLegacy sto A w₀ ∅ := by
    refine ⟨hR₀.writable, (fun _ h => absurd h (Finset.notMem_empty _)), Nat.two_pow_pos 64,
      hR₀.size, ?_, ?_⟩
    · intro addr
      exact ⟨0, hR₀.index_not_mem addr List.not_mem_nil, by simp⟩
    · intro i hpos hi
      exact hR₀.list i hpos hi
  obtain ⟨houtcomes, hR⟩ := runOps_realizes
    (fun s op hop => legacy_program_realizes hslots s op hop) ops w₀ ∅ hlegacy
    (admissibleOps_of_forall hops ∅)
  have hfinal : final = runOps World.handle (LegacySetOp.program (new sto)) ops w₀ := by
    simp only [final, hstart]
  rw [← hfinal] at houtcomes hR
  refine ⟨by rw [hstart], houtcomes, hR.run_isMember, hR.run_size, hR.card_lt, ?_⟩
  intro order hnodup horder
  have hmem : ∀ addr, addr ∈ order ↔ addr ∈ s := fun addr => by
    rw [← horder, List.mem_toFinset]
  obtain ⟨cleared, hclear, hstart'⟩ := clearList_repairing hslots hR
  obtain ⟨repaired, hrepair, hend⟩ := repair_all hslots hR.among hR.card_lt order [] cleared hstart'
    (by rwa [List.nil_append]) fun addr h => (hmem addr).mp h
  exact ⟨cleared, repaired, hclear, hrepair,
    hend.represents hR.among hR.card_lt fun addr h => (hmem addr).mpr h⟩

end

end AddressSet

namespace AddressSet
attribute [local instance] sampleHash

/-- Version 10 removes the first of three members: the place of the last one is stale. The
repair goes through the two that are left. -/
theorem legacy_repairable_sample :
    ∃ cleared repaired,
      World.run (new sampleRoot).clearList
          (runOps World.handle (LegacySetOp.program (new sampleRoot))
            [.add 5, .add 0, .add 9, .remove 5 10 (by decide)]
            (World.run (initializeSet sampleRoot) World.blank).2).2 = (.ok (), cleared)
        ∧ runOps World.handle (new sampleRoot).rectifyMapping [9, 0] cleared
          = ([.ok (), .ok ()], repaired)
        ∧ Represents sampleRoot Set.univ repaired [9, 0] :=
  (legacy_repairable sampleRoot_layout_apart World.blank rfl (fun _ => rfl)
    [.add 5, .add 0, .add 9, .remove 5 10 (by decide)]
    (by simp [LegacySetOp.Among])).2.2.2.2.2 [9, 0] (by decide) (by decide)

end AddressSet

end ArbReth
