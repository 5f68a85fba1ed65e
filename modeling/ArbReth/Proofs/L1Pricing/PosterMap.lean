import ArbReth.L1Pricing.PosterMap
import ArbReth.Proofs.L1Pricing.Sample

/-!
# `ArbReth.Proofs.L1Pricing.PosterMap`: the table refines the map

`BatchPostersTable.Represents` ties a store to a `PosterMap`: the set of the posters is
the list of the map in its order, and the two record slots of each poster and the total
are those of the map. The record slots of an account that is not a poster are free. The
rest of the world is as at the start. The accounts that a run writes are those of a set `A`,
and only their slots are asked to be apart from the others (`TableKey.Among`).

The operations that read, and those that fail, leave the world as it is. Each operation
that writes has one lemma. `refines_map` is about every sequence of operations of a
client, on all the handles that it has opened.
-/

set_option autoImplicit false

namespace ArbReth

open ArbReth.Program

/-- The slots of a table. -/
inductive TableKey where
  | totalFundsDue
  | posters (k : SetKey)
  | fundsDue (p : Address)
  | payTo (p : Address)
deriving DecidableEq

/-- All slots but the ones of the accounts outside `A`. -/
def TableKey.Among (A : Set Address) : TableKey → Prop
  | .totalFundsDue => True
  | .posters k => k.Among A
  | .fundsDue p => p ∈ A
  | .payTo p => p ∈ A

/-- A poster after an addition is the new one or an old one. -/
theorem PosterMap.mem_of_mem_insert {m : PosterMap} {p q a : Address}
    (ha : a ∈ (m.insert p q).order) (hap : a ≠ p) : a ∈ m.order := by
  rcases List.mem_append.mp ha with h | h
  · exact h
  · exact absurd (List.mem_singleton.mp h) hap

namespace BatchPostersTable
variable [Keccak]

/-- The space of the set of the posters. -/
def addrsSpace (sto : Storage) : Storage := sto.openCachedSubStorage posterAddrsKey

/-- The slots of the table in the space `sto`. -/
def layout (sto : Storage) : Layout TableKey where
  account := sto.account
  slot
    | .totalFundsDue => sto.mapAddress totalFundsDueOffset
    | .posters k => (AddressSet.layout (addrsSpace sto)).slot k
    | .fundsDue p => ((sto.openSubStorage posterInfoKey).openSubStorage p.asSlice).mapAddress 0
    | .payTo p => ((sto.openSubStorage posterInfoKey).openSubStorage p.asSlice).mapAddress 1

/-- The store represents the map, whose posters are accounts of `A`, and the world is `start`
outside of the table. -/
structure Represents (sto : Storage) (A : Set Address) (start w : World) (m : PosterMap) : Prop
    where
  posters : AddressSet.Represents (addrsSpace sto) A w m.order
  total : (layout sto).read w .totalFundsDue = m.total.intoRaw
  due : ∀ p ∈ m.order, (layout sto).read w (.fundsDue p) = (m.due p).intoRaw
  payTo : ∀ p ∈ m.order, (layout sto).read w (.payTo p) = (m.payTo p).intoWord
  outside : (layout sto).SameOutside start w

/-! ### Reading -/

section
variable {sto : Storage} {A : Set Address} {start w : World} {m : PosterMap}
  (hR : Represents sto A start w m)
include hR

/-- A poster is a member when it is in the order. -/
theorem run_isMember (p : Address) :
    World.run ((BatchPostersTable.open sto).posterAddrs.isMember p) w
      = (.ok (decide (p ∈ m.order)), w) :=
  AddressSet.run_isMember hR.posters p

/-- The posters are listed in the order of their addition. -/
theorem run_allPosters (max : U64) :
    World.run ((BatchPostersTable.open sto).allPosters max) w
      = (.ok (m.order.take max.toNat), w) := by
  have hrun := AddressSet.run_allMembers hR.posters max
  rw [Nat.min_comm, ← List.take_eq_take_min] at hrun
  exact hrun

/-- A poster of the map is opened, and nothing is written. -/
theorem run_openPoster_of_mem {p : Address} (hp : p ∈ m.order) (create : Bool) :
    World.run ((BatchPostersTable.open sto).openPoster p create) w
      = (.ok ((BatchPostersTable.open sto).internalOpen p), w) := by
  have hmember := run_isMember hR p
  rw [decide_eq_true hp] at hmember
  rw [openPoster, World.run_bind_ok (World.run_mapErr_ok hmember _)]
  rfl

/-- A poster that is not there is not opened without leave to create it. -/
theorem run_openPoster_of_not_mem {p : Address} (hp : p ∉ m.order) :
    World.run ((BatchPostersTable.open sto).openPoster p false) w
      = (.err (.semantic .notExist), w) := by
  have hmember := run_isMember hR p
  rw [decide_eq_false hp] at hmember
  rw [openPoster, World.run_bind_ok (World.run_mapErr_ok hmember _)]
  rfl

/-- A poster that is there is not added again. -/
theorem run_addPoster_of_mem {p : Address} (hp : p ∈ m.order) (q : Address) :
    World.run ((BatchPostersTable.open sto).addPoster p q) w
      = (.err (.semantic .alreadyExists), w) := by
  have hmember := run_isMember hR p
  rw [decide_eq_true hp] at hmember
  rw [addPoster, World.run_bind_ok (World.run_mapErr_ok hmember _)]
  rfl

/-- The amount due is read from the record of the poster. -/
theorem run_fundsDue {p : Address} (hp : p ∈ m.order) :
    World.run ((BatchPostersTable.open sto).internalOpen p).fundsDue w = (.ok (m.due p), w) :=
  StorageBackedBigInt.run_get _ (hR.due p hp)

/-- The loop of `getFundsDueList` over some of the posters. -/
theorem run_fundsDueItems (posters : List Address) (hposters : ∀ p ∈ posters, p ∈ m.order) :
    World.run ((BatchPostersTable.open sto).fundsDueItems posters) w
      = (.ok ((posters.filter fun p => (m.due p).isPositive).map fun p =>
          { dueTo := p, balance := m.due p }), w) := by
  induction posters with
  | nil => rfl
  | cons p posters ih =>
      -- The account is a poster, so its record opens and holds the amount of the map.
      have hp := hposters p List.mem_cons_self
      have hrest := ih fun q hq => hposters q (List.mem_cons_of_mem _ hq)
      rw [fundsDueItems, World.run_bind_ok (run_openPoster_of_mem hR hp false),
        World.run_bind_ok (World.run_mapErr_ok (run_fundsDue hR hp) _), World.run_bind_ok hrest]
      cases hdue : (m.due p).isPositive <;> simp [hdue]

/-- The list of the amounts due has one entry a poster, in order. -/
theorem run_getFundsDueList :
    World.run (BatchPostersTable.open sto).getFundsDueList w = (.ok m.fundsDueList, w) := by
  have hall := run_allPosters hR (BitVec.allOnes 64)
  have hlen := hR.posters.length_lt
  have hmax : (BitVec.allOnes 64 : U64).toNat = 2 ^ 64 - 1 := by decide
  rw [List.take_of_length_le (by omega)] at hall
  rw [getFundsDueList, World.run_bind_ok (World.run_mapErr_ok hall _)]
  exact run_fundsDueItems hR m.order fun p hp => hp

end

/-! ### Writing -/

section
variable {sto : Storage} {A : Set Address} (hslots : (layout sto).Apart (TableKey.Among A))
  {start w : World} {m : PosterMap}
include hslots

/-- The slots of the set are apart. -/
theorem addrs_apart : (AddressSet.layout (addrsSpace sto)).Apart (SetKey.Among A) :=
  hslots.of_part .posters (fun _ _ h => TableKey.posters.inj h) (fun _ hk => hk) fun _ => rfl

/-- A write to a slot that is not one of the set leaves the set as it is. -/
theorem posters_write {l : List Address} {k : TableKey} (hkey : k.Among A)
    (hset : AddressSet.Represents (addrsSpace sto) A w l) (hk : ∀ s, k ≠ .posters s)
    (v : StorageValue) :
    AddressSet.Represents (addrsSpace sto) A ((layout sto).write w k v) l := by
  refine hset.congr rfl fun s => ?_
  have hread := (hslots k hkey).read_write w (.posters s) v
  rw [if_neg (hk s).symm] at hread
  exact hread

/-- The record of an account that is not a poster is free. -/
theorem Represents.writeRecord (hR : Represents sto A start w m) {p : Address} (hpA : p ∈ A)
    (hp : p ∉ m.order) (due payTo : StorageValue) :
    Represents sto A start
      ((layout sto).write ((layout sto).write w (.fundsDue p) due) (.payTo p) payTo) m := by
  have hset := posters_write hslots (k := .fundsDue p) hpA hR.posters
    (fun _ => TableKey.noConfusion) due
  refine ⟨posters_write hslots (k := .payTo p) hpA hset (fun _ => TableKey.noConfusion) _, ?_, ?_,
    ?_, (hR.outside.write _ _).write _ _⟩
  · rw [(hslots (.payTo p) hpA).read_write, if_neg TableKey.noConfusion,
      (hslots (.fundsDue p) hpA).read_write, if_neg TableKey.noConfusion, hR.total]
  · intro q hq
    have hne : TableKey.fundsDue q ≠ .fundsDue p := fun h => hp (TableKey.fundsDue.inj h ▸ hq)
    rw [(hslots (.payTo p) hpA).read_write, if_neg TableKey.noConfusion,
      (hslots (.fundsDue p) hpA).read_write, if_neg hne, hR.due q hq]
  · intro q hq
    have hne : TableKey.payTo q ≠ .payTo p := fun h => hp (TableKey.payTo.inj h ▸ hq)
    rw [(hslots (.payTo p) hpA).read_write, if_neg hne,
      (hslots (.fundsDue p) hpA).read_write, if_neg TableKey.noConfusion, hR.payTo q hq]

/-- The setter of the amount due changes the amount and the total of the map. -/
theorem setFundsDue_represents (hR : Represents sto A start w m) {p : Address} (hp : p ∈ m.order)
    (val : I256) :
    ∃ w', World.run (((BatchPostersTable.open sto).internalOpen p).setFundsDue val) w
        = (.ok (), w')
      ∧ Represents sto A start w' (m.setFundsDue p val) := by
  have hpA : p ∈ A := hR.posters.among p hp
  let total := (m.total.saturatingAdd val).saturatingSub (m.due p)
  refine ⟨(layout sto).write ((layout sto).write w .totalFundsDue total.intoRaw) (.fundsDue p)
    val.intoRaw, ?_, ?_⟩
  -- The run: both reads see the map, and the total is written before the amount.
  · have hprev : World.run ((BatchPostersTable.open sto).internalOpen p).fundsDueCell.get w
        = (.ok (m.due p), w) := run_fundsDue hR hp
    have htotal : World.run ((BatchPostersTable.open sto).internalOpen p).tableTotalFundsDue.get w
        = (.ok m.total, w) := StorageBackedBigInt.run_get _ hR.total
    rw [BatchPosterState.setFundsDue, World.run_bind_ok hprev, World.run_bind_ok htotal]
    have hset := StorageSlot.run_set (StorageSlot.mk sto.account ((layout sto).slot .totalFundsDue))
      hR.posters.writable total.intoRaw
    exact (World.run_bind_ok hset _).trans
      (StorageSlot.run_set _ (by exact hR.posters.writable) _)
  -- The map: one amount and the total change, and no other slot is hit.
  · have hset := posters_write hslots (k := .totalFundsDue) trivial hR.posters
      (fun _ => TableKey.noConfusion) total.intoRaw
    refine ⟨posters_write hslots (k := .fundsDue p) hpA hset (fun _ => TableKey.noConfusion) _,
      ?_, ?_, ?_, (hR.outside.write _ _).write _ _⟩
    · rw [(hslots (.fundsDue p) hpA).read_write, if_neg TableKey.noConfusion,
        (hslots .totalFundsDue trivial).read_write, if_pos rfl]
      rfl
    · intro q hq
      rw [(hslots (.fundsDue p) hpA).read_write]
      by_cases hqp : q = p
      · subst hqp
        rw [if_pos rfl]
        simp [PosterMap.setFundsDue]
      · rw [if_neg fun h => hqp (TableKey.fundsDue.inj h),
          (hslots .totalFundsDue trivial).read_write, if_neg TableKey.noConfusion, hR.due q hq]
        simp [PosterMap.setFundsDue, Function.update_of_ne hqp]
    · intro q hq
      rw [(hslots (.fundsDue p) hpA).read_write, if_neg TableKey.noConfusion,
        (hslots .totalFundsDue trivial).read_write, if_neg TableKey.noConfusion, hR.payTo q hq]
      rfl

/-- The setter of the pay-to address changes that of its poster. -/
theorem setPayTo_represents (hR : Represents sto A start w m) {p : Address} (hpA : p ∈ A)
    (addr : Address) :
    ∃ w', World.run (((BatchPostersTable.open sto).internalOpen p).setPayTo addr) w = (.ok (), w')
      ∧ Represents sto A start w' (m.setPayTo p addr) := by
  refine ⟨(layout sto).write w (.payTo p) addr.intoWord,
    StorageSlot.run_set _ hR.posters.writable _,
    posters_write hslots (k := .payTo p) hpA hR.posters (fun _ => TableKey.noConfusion) _, ?_, ?_,
    ?_, hR.outside.write _ _⟩
  · rw [(hslots (.payTo p) hpA).read_write, if_neg TableKey.noConfusion, hR.total]
    rfl
  · intro q hq
    rw [(hslots (.payTo p) hpA).read_write, if_neg TableKey.noConfusion, hR.due q hq]
    rfl
  · intro q hq
    rw [(hslots (.payTo p) hpA).read_write]
    by_cases hqp : q = p
    · subst hqp
      rw [if_pos rfl]
      simp [PosterMap.setPayTo]
    · rw [if_neg fun h => hqp (TableKey.payTo.inj h), hR.payTo q hq]
      simp [PosterMap.setPayTo, Function.update_of_ne hqp]

/-! ### Adding a poster -/

omit hslots in
/-- The world after the record of a new poster is written. -/
theorem run_addPoster_record (hR : Represents sto A start w m) {p q : Address} (hp : p ∉ m.order) :
    World.run ((BatchPostersTable.open sto).addPoster p q) w
      = World.run (do
          ((AddressSet.new (addrsSpace sto)).add p).mapErr OpenPosterResult.db
          pure ((BatchPostersTable.open sto).internalOpen p))
        ((layout sto).write ((layout sto).write w (.fundsDue p) I256.zero.intoRaw) (.payTo p)
          q.intoWord) := by
  have hmember := run_isMember hR p
  rw [decide_eq_false hp] at hmember
  have hdue : World.run (((BatchPostersTable.open sto).internalOpen p).fundsDueCell.setChecked
      I256.zero) w = (.ok (), (layout sto).write w (.fundsDue p) I256.zero.intoRaw) :=
    StorageSlot.run_set _ hR.posters.writable _
  have hpay : World.run (((BatchPostersTable.open sto).internalOpen p).payToCell.set q)
      ((layout sto).write w (.fundsDue p) I256.zero.intoRaw)
      = (.ok (), (layout sto).write ((layout sto).write w (.fundsDue p) I256.zero.intoRaw)
          (.payTo p) q.intoWord) :=
    StorageSlot.run_set _ (by exact hR.posters.writable) _
  rw [addPoster, World.run_bind_ok (World.run_mapErr_ok hmember _)]
  simp only [Bool.false_eq_true, if_false]
  rw [World.run_bind_ok (World.run_mapErr_ok hdue _),
    World.run_bind_ok (World.run_mapErr_ok hpay _)]
  rfl

/-- A new member leaves the other slots of the table as they are. -/
theorem read_afterAdd_of_ne (w : World) {p : Address} (hpA : p ∈ A) (n : Nat) {k : TableKey}
    (hk : ∀ s, k ≠ .posters s) :
    (layout sto).read (AddressSet.afterAdd (addrsSpace sto) w p n) k = (layout sto).read w k := by
  have hwrite : ∀ (w : World) (s : SetKey), s.Among A → ∀ v : StorageValue,
      (layout sto).read ((AddressSet.layout (addrsSpace sto)).write w s v) k
        = (layout sto).read w k := by
    intro w s hs v
    have hread := (hslots (.posters s) hs).read_write w k v
    rw [if_neg (hk s)] at hread
    exact hread
  rw [AddressSet.afterAdd, hwrite _ (.list _) trivial, hwrite _ (.list _) trivial,
    hwrite _ (.index p) hpA]

/-- A new poster goes behind the others, with nothing due. -/
theorem addPoster_represents (hR : Represents sto A start w m) {p : Address} (hpA : p ∈ A)
    (hp : p ∉ m.order) (q : Address) (hroom : m.order.length ≠ 2 ^ 64 - 1) :
    ∃ w', World.run ((BatchPostersTable.open sto).addPoster p q) w
        = (.ok ((BatchPostersTable.open sto).internalOpen p), w')
      ∧ Represents sto A start w' (m.insert p q) := by
  have hlen := hR.posters.length_lt
  -- The source writes the record first and the set last. After the record the store
  -- still represents `m`, as the account is not a poster yet.
  have hrecord := hR.writeRecord hslots hpA hp I256.zero.intoRaw q.intoWord
  set w₂ := (layout sto).write ((layout sto).write w (.fundsDue p) I256.zero.intoRaw) (.payTo p)
    q.intoWord with hw₂
  have hadd := AddressSet.run_add_of_index_eq_zero (addrs_apart hslots) hpA
    hrecord.posters.writable (hrecord.posters.index_not_mem p hp) hrecord.posters.size (by omega)
  obtain ⟨w', hrun, hset⟩ := AddressSet.add_realizes (addrs_apart hslots) m.order hpA (by omega)
    w₂ hrecord.posters
  have hw' : w' = AddressSet.afterAdd (addrsSpace sto) w₂ p m.order.length :=
    congrArg Prod.snd (hrun.symm.trans hadd)
  rw [if_neg hp] at hset
  refine ⟨w', ?_, hset, ?_, ?_, ?_, ?_⟩
  · rw [run_addPoster_record hR hp, ← hw₂,
      World.run_bind_ok (World.run_mapErr_ok hrun _)]
    rfl
  · rw [hw', read_afterAdd_of_ne hslots _ hpA _ (fun _ => TableKey.noConfusion), hrecord.total]
    rfl
  -- the records: the new one, and the old ones
  · intro a ha
    rw [hw', read_afterAdd_of_ne hslots _ hpA _ (fun _ => TableKey.noConfusion)]
    by_cases hap : a = p
    · subst hap
      rw [hw₂, (hslots (.payTo a) hpA).read_write, if_neg TableKey.noConfusion,
        (hslots (.fundsDue a) hpA).read_write, if_pos rfl]
      simp [PosterMap.insert]
    · rw [hrecord.due a (PosterMap.mem_of_mem_insert ha hap)]
      simp [PosterMap.insert, Function.update_of_ne hap]
  · intro a ha
    rw [hw', read_afterAdd_of_ne hslots _ hpA _ (fun _ => TableKey.noConfusion)]
    by_cases hap : a = p
    · subst hap
      rw [hw₂, (hslots (.payTo a) hpA).read_write, if_pos rfl]
      simp [PosterMap.insert]
    · rw [hrecord.payTo a (PosterMap.mem_of_mem_insert ha hap)]
      simp [PosterMap.insert, Function.update_of_ne hap]
  · have hwrite : ∀ (x : World) (s : SetKey) (v : StorageValue),
        (layout sto).SameOutside start x →
        (layout sto).SameOutside start ((AddressSet.layout (addrsSpace sto)).write x s v) :=
      fun x s v hx => hx.write (.posters s) v
    rw [hw', AddressSet.afterAdd]
    exact hwrite _ _ _ (hwrite _ _ _ (hwrite _ _ _ hrecord.outside))

/-- A table with the largest number of posters has no room for a new one. -/
theorem addPoster_full (hR : Represents sto A start w m) {p : Address} (hpA : p ∈ A)
    (hp : p ∉ m.order) (q : Address) (hfull : m.order.length = 2 ^ 64 - 1) :
    ∃ w', World.run ((BatchPostersTable.open sto).addPoster p q) w
        = (.panic "attempt to add with overflow", w')
      ∧ Represents sto A start w' m := by
  -- The addition to the set panics after the record is written: it stays, and no
  -- operation reads it.
  have hrecord := hR.writeRecord hslots hpA hp I256.zero.intoRaw q.intoWord
  have hadd := AddressSet.run_add_of_full (hrecord.posters.index_not_mem p hp)
    (hfull ▸ hrecord.posters.size)
  refine ⟨_, ?_, hrecord⟩
  rw [run_addPoster_record hR hp,
    World.run_bind_panic (World.run_mapErr_panic hadd _)]

end

end BatchPostersTable

/-! ### Runs over the table -/

namespace TableOp

/-- The operation only reads. -/
def Reads : TableOp → Prop
  | .allPosters _ | .containsPoster _ | .getFundsDueList => True
  | _ => False

/-- An operation that adds an account adds one of `A`. -/
def Among (A : Set Address) : TableOp → Prop
  | .addPoster p _ => p ∈ A
  | .openPoster p create => create = true → p ∈ A
  | _ => True

/-- What an operation does to the posters: it adds a new one, or it leaves them as they
are and opens a handle for one of them at most. -/
theorem apply_cases (op : TableOp) (handles : List Address) (m : PosterMap) :
    (∃ p q, p ∉ m.order ∧ op.apply handles m = insertNew m p q)
      ∨ ((op.apply handles m).2.order = m.order ∧ ¬(op.apply handles m).1.IsPanic
        ∧ ∀ reply p, (op.apply handles m).1 = .ok (reply, some p) → p ∈ m.order) := by
  cases op with
  | addPoster p q =>
      simp only [apply]
      split
      · exact Or.inr ⟨rfl, fun h => h, fun _ _ h => nomatch h⟩
      · rename_i hp
        exact Or.inl ⟨p, q, hp, rfl⟩
  | openPoster p create =>
      simp only [apply]
      split
      · rename_i hp
        -- A known poster: the handle is its own.
        refine Or.inr ⟨rfl, fun h => h, fun reply a h => ?_⟩
        cases h
        exact hp
      · rename_i hp
        split
        · exact Or.inl ⟨p, p, hp, rfl⟩
        · exact Or.inr ⟨rfl, fun h => h, fun _ _ h => nomatch h⟩
  | setFundsDue handle val =>
      simp only [apply]
      split <;> exact Or.inr ⟨rfl, fun h => h, fun _ _ h => nomatch h⟩
  | setPayTo handle addr =>
      simp only [apply]
      split <;> exact Or.inr ⟨rfl, fun h => h, fun _ _ h => nomatch h⟩
  | allPosters max => exact Or.inr ⟨rfl, fun h => h, fun _ _ h => nomatch h⟩
  | containsPoster p => exact Or.inr ⟨rfl, fun h => h, fun _ _ h => nomatch h⟩
  | getFundsDueList => exact Or.inr ⟨rfl, fun h => h, fun _ _ h => nomatch h⟩

/-- An operation keeps the posters, and a handle that it opens is one of them. -/
theorem apply_order (op : TableOp) (handles : List Address) (m : PosterMap) :
    (∀ p ∈ m.order, p ∈ (op.apply handles m).2.order)
      ∧ ∀ reply p, (op.apply handles m).1 = .ok (reply, some p) →
        p ∈ (op.apply handles m).2.order := by
  rcases apply_cases op handles m with ⟨p, q, -, hnew⟩ | ⟨horder, -, hopened⟩
  · rw [hnew, insertNew]
    split
    · exact ⟨fun _ ha => ha, fun _ _ h => nomatch h⟩
    · refine ⟨fun a ha => List.mem_append_left _ ha, fun reply a h => ?_⟩
      cases h
      exact List.mem_append_right _ (List.mem_singleton.mpr rfl)
  · rw [horder]
    exact ⟨fun _ ha => ha, hopened⟩

/-- An operation adds one poster at most, and panics only when there is no room for it. -/
theorem apply_length (op : TableOp) (handles : List Address) (m : PosterMap)
    (hroom : m.order.length < 2 ^ 64 - 1) :
    (op.apply handles m).2.order.length ≤ m.order.length + 1
      ∧ ¬(op.apply handles m).1.IsPanic := by
  rcases apply_cases op handles m with ⟨p, q, -, hnew⟩ | ⟨horder, hpanic, -⟩
  · rw [hnew, insertNew, if_neg (by omega)]
    exact ⟨by simp [PosterMap.insert], fun h => h⟩
  · rw [horder]
    exact ⟨Nat.le_succ _, hpanic⟩

/-- Fewer than `2 ^ 64` operations never panic. -/
theorem run_not_panic (ops : List TableOp) (d : Client PosterMap Address)
    (hroom : d.state.order.length + ops.length < 2 ^ 64) :
    ∀ r ∈ (Client.run (Client.specStep apply) ops d).1, ¬r.IsPanic := by
  induction ops generalizing d with
  | nil => exact fun _ h => nomatch h
  | cons op ops ih =>
      rw [List.length_cons] at hroom
      -- One poster more at most, so the room that is left is enough for the rest.
      obtain ⟨hlen, hpanic⟩ := apply_length op d.handles d.state (by omega)
      have hfirst : ¬(Client.specStep apply op d).1.IsPanic := by
        unfold Client.specStep
        rcases hspec : op.apply d.handles d.state with ⟨⟨reply, opened⟩ | e | msg, m⟩
        · exact fun h => h
        · exact fun h => h
        · rw [hspec] at hpanic
          exact absurd trivial hpanic
      have hstate : (Client.specStep apply op d).2.state = (op.apply d.handles d.state).2 :=
        Client.after_state d _
      intro r hr
      rcases List.mem_cons.mp hr with rfl | hr
      · exact hfirst
      · exact ih _ (by rw [hstate]; omega) r hr

end TableOp

namespace BatchPostersTable
variable [Keccak]

section
variable {sto : Storage} {A : Set Address} (hslots : (layout sto).Apart (TableKey.Among A))
  {start w : World} {m : PosterMap}
include hslots

/-- Adding a poster that is not in the map. -/
theorem addPoster_insertNew (hR : Represents sto A start w m) {p : Address} (hpA : p ∈ A)
    (hp : p ∉ m.order) (q : Address) :
    ∃ w', World.run (do
          let bpState ← (BatchPostersTable.open sto).addPoster p q
          pure (TableReply.opened, some bpState)) w
        = ((TableOp.insertNew m p q).1.map
            (fun r => (r.1, r.2.map (BatchPostersTable.open sto).internalOpen)), w')
      ∧ Represents sto A start w' (TableOp.insertNew m p q).2 := by
  unfold TableOp.insertNew
  by_cases hfull : m.order.length = 2 ^ 64 - 1
  · obtain ⟨w', hrun, hR'⟩ := addPoster_full hslots hR hpA hp q hfull
    rw [if_pos hfull]
    exact ⟨w', World.run_bind_panic hrun _, hR'⟩
  · obtain ⟨w', hrun, hR'⟩ := addPoster_represents hslots hR hpA hp q hfull
    rw [if_neg hfull]
    exact ⟨w', World.run_bind_ok hrun _, hR'⟩

/-- Each operation ends as on the map. An operation that reads or fails writes nothing. -/
theorem program_run (hR : Represents sto A start w m) (handles : List Address)
    (hhandles : ∀ p ∈ handles, p ∈ m.order) {op : TableOp} (hop : op.Among A) :
    ∃ w', World.run (op.program (BatchPostersTable.open sto)
          (handles.map (BatchPostersTable.open sto).internalOpen)) w
        = ((op.apply handles m).1.map
            (fun r => (r.1, r.2.map (BatchPostersTable.open sto).internalOpen)), w')
      ∧ Represents sto A start w' (op.apply handles m).2
      ∧ (op.Reads ∨ (∃ e, (op.apply handles m).1 = .err e) → w' = w) := by
  -- A new poster is never an error: it is an addition or a panic.
  have hnew : ∀ p q, ¬∃ e, (TableOp.insertNew m p q).1 = .err e := by
    intro p q
    unfold TableOp.insertNew
    split <;> exact fun ⟨_, h⟩ => nomatch h
  cases op with
  | addPoster p q =>
      simp only [TableOp.apply, TableOp.program]
      by_cases hp : p ∈ m.order
      · rw [if_pos hp]
        exact ⟨w, World.run_bind_err (run_addPoster_of_mem hR hp q) _, hR, fun _ => rfl⟩
      · rw [if_neg hp]
        obtain ⟨w', hrun, hR'⟩ := addPoster_insertNew hslots hR hop hp q
        exact ⟨w', hrun, hR', fun h => absurd (h.resolve_left fun h => h) (hnew p q)⟩
  | openPoster p create =>
      simp only [TableOp.apply, TableOp.program]
      by_cases hp : p ∈ m.order
      · rw [if_pos hp]
        exact ⟨w, World.run_bind_ok (run_openPoster_of_mem hR hp create) _, hR, fun _ => rfl⟩
      · rw [if_neg hp]
        cases create with
        | false =>
            exact ⟨w, World.run_bind_err (run_openPoster_of_not_mem hR hp) _, hR, fun _ => rfl⟩
        | true =>
            -- an unknown poster is added with itself as the account to pay
            have hmember := run_isMember hR p
            rw [decide_eq_false hp] at hmember
            have hopen : World.run ((BatchPostersTable.open sto).openPoster p true) w
                = World.run ((BatchPostersTable.open sto).addPoster p p) w := by
              rw [openPoster, World.run_bind_ok (World.run_mapErr_ok hmember _)]
              rfl
            obtain ⟨w', hrun, hR'⟩ := addPoster_insertNew hslots hR (hop rfl) hp p
            refine ⟨w', ?_, hR', fun h => absurd (h.resolve_left fun h => h) (hnew p p)⟩
            rw [World.run_bind] at hrun ⊢
            rw [hopen]
            exact hrun
  | setFundsDue handle val =>
      simp only [TableOp.apply, TableOp.program]
      rw [List.getElem?_map]
      -- A handle that was not opened is no operation at all.
      cases hhandle : handles[handle]? with
      | none => exact ⟨w, rfl, hR, fun _ => rfl⟩
      | some p =>
          obtain ⟨w', hrun, hR'⟩ := setFundsDue_represents hslots hR
            (hhandles p (List.mem_of_getElem? hhandle)) val
          exact ⟨w', World.run_bind_ok (World.run_mapErr_ok hrun _) _, hR',
            fun h => nomatch h.resolve_left fun h => h⟩
  | setPayTo handle addr =>
      simp only [TableOp.apply, TableOp.program]
      rw [List.getElem?_map]
      cases hhandle : handles[handle]? with
      | none => exact ⟨w, rfl, hR, fun _ => rfl⟩
      | some p =>
          obtain ⟨w', hrun, hR'⟩ := setPayTo_represents hslots hR
            (hR.posters.among p (hhandles p (List.mem_of_getElem? hhandle))) addr
          exact ⟨w', World.run_bind_ok (World.run_mapErr_ok hrun _) _, hR',
            fun h => nomatch h.resolve_left fun h => h⟩
  | allPosters max =>
      exact ⟨w, World.run_bind_ok (World.run_mapErr_ok (run_allPosters hR max) _) _, hR,
        fun _ => rfl⟩
  | containsPoster p =>
      exact ⟨w, World.run_bind_ok (World.run_mapErr_ok (run_isMember hR p) _) _, hR, fun _ => rfl⟩
  | getFundsDueList => exact ⟨w, World.run_bind_ok (run_getFundsDueList hR) _, hR, fun _ => rfl⟩

/-- The initialization of a fresh table gives the empty map. -/
theorem initializeTable_represents (hw : w.readOnly = false)
    (hfresh : ∀ k, (layout sto).read w k = 0) :
    ∃ w', World.run (initializeTable sto) w = (.ok (), w')
      ∧ Represents sto A w w' PosterMap.empty := by
  have htotal : World.run ((sto.openStorageBackedBigInt totalFundsDueOffset).setChecked I256.zero) w
      = (.ok (), (layout sto).write w .totalFundsDue I256.zero.intoRaw) :=
    StorageSlot.run_set _ hw _
  -- The total is not a slot of the set, so the set is still blank after it.
  have hread := (hslots .totalFundsDue trivial).read_write w
  have hset : ∀ s, (AddressSet.layout (addrsSpace sto)).read
      ((layout sto).write w .totalFundsDue I256.zero.intoRaw) s = 0 := by
    intro s
    have hslot := hread (.posters s) I256.zero.intoRaw
    rw [if_neg TableKey.noConfusion, hfresh] at hslot
    exact hslot
  obtain ⟨w', hrun, hR⟩ := AddressSet.initializeSet_represents (addrs_apart hslots)
    (w := (layout sto).write w .totalFundsDue I256.zero.intoRaw) hw hset
  have hw' : w' = (layout sto).write ((layout sto).write w .totalFundsDue I256.zero.intoRaw)
      (.posters (.list 0)) (U256.ofU64 0) :=
    congrArg Prod.snd (hrun.symm.trans (Storage.run_set _ (by exact hw) _ _))
  refine ⟨w', (World.run_bind_ok htotal _).trans hrun, hR, ?_, (fun _ h => nomatch h),
    (fun _ h => nomatch h), ?_⟩
  · rw [hw', (hslots (.posters (.list 0)) trivial).read_write, if_neg TableKey.noConfusion, hread,
      if_pos rfl]
    rfl
  · rw [hw']
    exact ((Layout.SameOutside.refl _ w).write _ _).write _ _

/-- The table of the batch posters refines an insertion-ordered map. After the
initialization of a fresh table, every sequence of operations, on all the handles that it
opens, has the outcomes that it has on the map, and ends in a store that represents the
map. A further operation that reads or fails changes nothing at all. The outcomes are
never a panic, but for a table of `2 ^ 64 - 1` posters. `A` holds the accounts that are
added. -/
theorem refines_map (w : World) (hw : w.readOnly = false)
    (hfresh : ∀ k, (layout sto).read w k = 0) (ops : List TableOp)
    (hops : ∀ op ∈ ops, op.Among A) :
    let start := World.run (initializeTable sto) w
    let step := Client.step World.handle (TableOp.program (BatchPostersTable.open sto))
    let final := Client.run step ops ⟨start.2, []⟩
    let spec := Client.run (Client.specStep TableOp.apply) ops ⟨PosterMap.empty, []⟩
    start.1 = .ok () ∧ final.1 = spec.1
    ∧ Represents sto A w final.2.state spec.2.state ∧ spec.2.state.order.Nodup
    ∧ final.2.handles = spec.2.handles.map (BatchPostersTable.open sto).internalOpen
    ∧ (∀ p ∈ spec.2.handles, p ∈ spec.2.state.order)
    ∧ (∀ op : TableOp, op.Among A → op.Reads ∨ (∃ e, (step op final.2).1 = .err e) →
        (step op final.2).2.state = final.2.state)
    ∧ (ops.length < 2 ^ 64 → ∀ r ∈ final.1, ¬r.IsPanic) := by
  intro start step final spec
  obtain ⟨w₀, hrun, hR₀⟩ := initializeTable_represents hslots hw hfresh
  have hstart : start = (.ok (), w₀) := hrun
  -- the states, the handles, and that each handle is a poster
  let Rel : Client World BatchPosterState → Client PosterMap Address → Prop := fun c d =>
    Client.Simulates (Represents sto A w) (BatchPostersTable.open sto).internalOpen c d
      ∧ ∀ p ∈ d.handles, p ∈ d.state.order
  have hstep : ∀ op ∈ ops, ∀ c d, Rel c d → (step op c).1 = (Client.specStep TableOp.apply op d).1
      ∧ Rel (step op c).2 (Client.specStep TableOp.apply op d).2 := by
    rintro op hop c d ⟨hsim, hmem⟩
    obtain ⟨w', hrun', hR', -⟩ := program_run hslots hsim.state d.handles hmem (hops op hop)
    obtain ⟨hout, hsim'⟩ := Client.step_simulates hsim ⟨w', hrun', hR'⟩
    obtain ⟨hkeep, hopened⟩ := TableOp.apply_order op d.handles d.state
    exact ⟨hout, hsim', Client.forall_handles_after
      (P := fun (m : PosterMap) p => p ∈ m.order) _ hmem hkeep hopened⟩
  obtain ⟨hout, hsim, hmem⟩ := Client.run_simulates ops hstep ⟨w₀, []⟩ ⟨PosterMap.empty, []⟩
    ⟨⟨hR₀, rfl⟩, fun _ h => nomatch h⟩
  have hfinal : final = Client.run step ops ⟨w₀, []⟩ := by
    simp only [final, hstart]
  rw [← hfinal] at hout hsim
  refine ⟨by rw [hstart], hout, hsim.state, hsim.state.posters.nodup, hsim.handles, hmem, ?_, ?_⟩
  · intro op hopA hop
    -- One more operation: the run of its program says when the world stays.
    obtain ⟨w', hrun', -, hsame⟩ := program_run hslots hsim.state _ hmem hopA
    have hnext : step op final.2 = final.2.after
        ((op.apply spec.2.handles spec.2.state).1.map
          (fun r => (r.1, r.2.map (BatchPostersTable.open sto).internalOpen)), w') := by
      show final.2.after _ = _
      rw [hsim.handles]
      exact congrArg _ hrun'
    rw [hnext] at hop ⊢
    rcases hspec : op.apply spec.2.handles spec.2.state with ⟨⟨reply, opened⟩ | e | msg, m'⟩
    · rw [hspec] at hop hsame
      exact hsame (hop.imp_right fun ⟨_, h⟩ => nomatch h)
    · rw [hspec] at hsame
      exact hsame (Or.inr ⟨e, rfl⟩)
    · rw [hspec] at hop hsame
      exact hsame (hop.imp_right fun ⟨_, h⟩ => nomatch h)
  · intro hlen r hr
    rw [hout] at hr
    exact TableOp.run_not_panic ops ⟨PosterMap.empty, []⟩
      (by simpa [PosterMap.empty] using hlen) r hr

end

/-- The slot of the pricer that is the slot of its table. -/
def toL1Key : TableKey → L1Key
  | .totalFundsDue => .totalFundsDue
  | .posters k => .posters k
  | .fundsDue p => .fundsDue p
  | .payTo p => .payTo p

/-- The table of a pricer whose slots are apart has its slots apart. -/
theorem layout_apart {sto : Storage} {A : Set Address}
    (hslots : (L1Pricing.layout sto).Apart (L1Key.Among A)) :
    (layout (L1Pricing.tableSpace sto)).Apart (TableKey.Among A) := by
  have hkey : Function.Injective toL1Key := by
    intro k k' h
    cases k <;> cases k' <;> cases h <;> rfl
  refine hslots.of_part toL1Key hkey ?_ ?_
  · intro k hk
    cases k <;> exact hk
  · intro k
    cases k <;> rfl

end BatchPostersTable

namespace BatchPostersTable
attribute [local instance] sampleHash

/-- Two posters are added, one of them twice, and an amount is due to the second. -/
theorem refines_map_sample :
    (Client.run (Client.step World.handle
        (TableOp.program (BatchPostersTable.open (L1Pricing.tableSpace sampleRoot))))
      [.addPoster 7 8, .openPoster 9 true, .addPoster 7 5, .setFundsDue 1 (I256.ofU256 3),
        .getFundsDueList]
      ⟨(World.run (initializeTable (L1Pricing.tableSpace sampleRoot)) World.blank).2, []⟩).1
      = [.ok .opened, .ok .opened, .err (.semantic .alreadyExists), .ok .done,
          .ok (.fundsDue [{ dueTo := 9, balance := I256.ofU256 3 }])] :=
  (refines_map (layout_apart L1Pricing.sampleRoot_layout_apart) World.blank rfl
    (fun _ => rfl) [.addPoster 7 8, .openPoster 9 true, .addPoster 7 5,
      .setFundsDue 1 (I256.ofU256 3), .getFundsDueList]
    (by simp [TableOp.Among])).2.1.trans (by decide)

end BatchPostersTable

end ArbReth
