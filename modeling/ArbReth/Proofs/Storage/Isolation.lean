import ArbReth.Storage.SampleHash
import Mathlib.Data.List.Induction

/-!
# `ArbReth.Proofs.Storage.Isolation`: storage spaces do not overlap

A space of an account is reached from the root, whose storage key is empty, by a
path of `openSubStorage` and `openCachedSubStorage` calls. `openPath` follows the
path. `hashedBy` lists the byte strings that the source hashes to follow the path
and to map one key.

`mapAddressByKey_eq_iff` proves the isolation: two spaces map two keys to one slot
exactly when the ids of the paths agree and the keys agree. The proof needs that
no two of the hashed strings collide on the first 31 bytes of their digests, and
that the first id of each path is shorter than 32 bytes.

The hashed strings are undelimited concatenations, so equal strings have to be
split. A page string is a storage key and 31 bytes, and a storage key has 0 bytes
(the root) or 32 bytes (any other space). So the length tells the root from the
rest. An id has any length. After the empty key of the root, an id of 32 bytes or
more could spell a storage key and a shorter id. The bound on the first id excludes
this. Below the root the key has 32 bytes, so later ids are free.
-/

set_option autoImplicit false

namespace ArbReth

open ArbReth.Program ArbReth.BigEndian

/-- One call of `openCachedSubStorage` or `openSubStorage`. -/
structure OpenCall where
  cached : Bool
  id : Bytes
deriving DecidableEq

/-- The first id of the path, if there is one, is shorter than a storage key. -/
def FirstIdShort (path : List OpenCall) : Prop :=
  ∀ c ∈ path.head?, c.id.length < 32

/-- No two strings of the list agree on the first 31 bytes of their digests. -/
def NoCollision [Keccak] (hashed : List Bytes) : Prop :=
  ∀ x ∈ hashed, ∀ y ∈ hashed,
    (Keccak.keccak256 x).toList.take 31 = (Keccak.keccak256 y).toList.take 31 → x = y

namespace Storage
variable [Keccak]

/-- The sub-space that the call opens. -/
def openCall (self : Storage) (c : OpenCall) : Storage :=
  if c.cached then self.openCachedSubStorage c.id else self.openSubStorage c.id

/-- Follow a path of calls. -/
def openPath (self : Storage) : List OpenCall → Storage
  | [] => self
  | c :: path => (self.openCall c).openPath path

/-- The strings that are hashed to follow the path and to map `key` in its end. -/
def hashedBy (self : Storage) : List OpenCall → StorageKey → List Bytes
  | [], key => [self.storageKey ++ key.toBeBytes.take 31]
  | c :: path, key => (self.storageKey ++ c.id) :: (self.openCall c).hashedBy path key

/-! ### One page, one sub-space -/

/-- The key of a sub-space is the hash of that of its space and the id. -/
@[simp] theorem storageKey_openCall (self : Storage) (c : OpenCall) :
    (self.openCall c).storageKey = (Keccak.keccak256 (self.storageKey ++ c.id)).toList := by
  unfold openCall
  split <;> simp [openCachedSubStorage, openSubStorage, cachedKeccak]

/-- A sub-space is in the account of its space. -/
@[simp] theorem account_openCall (self : Storage) (c : OpenCall) :
    (self.openCall c).account = self.account := by
  unfold openCall
  split <;> rfl

/-- Every space below is in the account of the root. -/
@[simp] theorem account_openPath (self : Storage) (path : List OpenCall) :
    (self.openPath path).account = self.account := by
  induction path generalizing self with
  | nil => rfl
  | cons c path ih => rw [openPath, ih, account_openCall]

/-- The last call of a path opens a sub-space of what the others reach. -/
theorem openPath_append (self : Storage) (path : List OpenCall) (c : OpenCall) :
    self.openPath (path ++ [c]) = (self.openPath path).openCall c := by
  induction path generalizing self with
  | nil => rfl
  | cons d path ih => exact ih _

/-- Without collisions, one slot means one page string and one last byte. -/
theorem mapAddressByKey_eq_iff_of_noCollision {s t : Storage} {k k' : StorageKey}
    (hcoll : NoCollision
      [s.storageKey ++ k.toBeBytes.take 31, t.storageKey ++ k'.toBeBytes.take 31])
    (hlen : s.storageKey.length = t.storageKey.length) :
    s.mapAddressByKey k = t.mapAddressByKey k' ↔ s.storageKey = t.storageKey ∧ k = k' := by
  rw [mapAddressByKey_eq_iff_page]
  constructor
  · rintro ⟨hpage, hlast⟩
    have happ := hcoll _ (by simp) _ (by simp) hpage
    obtain ⟨hkey, htake⟩ := List.append_inj happ hlen
    refine ⟨hkey, U256.toBeBytes_inj.mp ?_⟩
    rw [← List.take_append_drop 31 k.toBeBytes, htake, hlast, List.take_append_drop]
  · rintro ⟨hkey, rfl⟩
    rw [hkey]
    exact ⟨rfl, rfl⟩

/-! ### Paths -/

/-- The storage key of a space other than the root has 32 bytes. -/
theorem length_storageKey_openPath (self : Storage) (path : List OpenCall) (hne : path ≠ []) :
    (self.openPath path).storageKey.length = 32 := by
  obtain ⟨front, c, rfl⟩ := List.eq_nil_or_concat' path |>.resolve_left hne
  rw [openPath_append, storageKey_openCall, Vector.length_toList]

/-- The strings hashed on the way to a space are among those of each longer path. -/
theorem mem_hashedBy_page (self : Storage) (path : List OpenCall) (key : StorageKey) :
    (self.openPath path).storageKey ++ key.toBeBytes.take 31 ∈ self.hashedBy path key := by
  induction path generalizing self with
  | nil => simp [openPath, hashedBy]
  | cons c path ih => exact List.mem_cons_of_mem _ (ih _)

/-- The string that names the sub-space at any place of the path is hashed. -/
theorem mem_hashedBy_open (self : Storage) (front rest : List OpenCall) (c : OpenCall)
    (key : StorageKey) :
    (self.openPath front).storageKey ++ c.id ∈ self.hashedBy (front ++ c :: rest) key := by
  induction front generalizing self with
  | nil => simp [openPath, hashedBy]
  | cons d front ih => exact List.mem_cons_of_mem _ (ih _)

/-- Two paths whose ends have one storage key have the same ids. The induction removes
the last call of both paths. The remaining strings are still among the hashed ones,
which is why the paths come as prefixes `front` of the paths that are followed. -/
theorem ids_eq_of_storageKey_eq {root root' : Storage} (hroot : root.storageKey = [])
    (hroot' : root'.storageKey = []) (path path' : List OpenCall) (key key' : StorageKey)
    (hcoll : NoCollision (root.hashedBy path key ++ root'.hashedBy path' key'))
    (hshort : FirstIdShort path) (hshort' : FirstIdShort path')
    (front rest front' rest' : List OpenCall) (hp : path = front ++ rest)
    (hp' : path' = front' ++ rest')
    (heq : (root.openPath front).storageKey = (root'.openPath front').storageKey) :
    front.map OpenCall.id = front'.map OpenCall.id := by
  induction front using List.reverseRecOn generalizing rest front' rest' with
  | nil =>
      -- the storage key of the root is empty, and no other one is
      rcases List.eq_nil_or_concat' front' with rfl | ⟨front', d, rfl⟩
      · rfl
      · have hlen := length_storageKey_openPath root' (front' ++ [d]) (by simp)
        rw [← heq, openPath, hroot] at hlen
        cases hlen
  | append_singleton front c ih =>
      rcases List.eq_nil_or_concat' front' with rfl | ⟨front', d, rfl⟩
      · have hlen := length_storageKey_openPath root (front ++ [c]) (by simp)
        rw [heq, openPath, hroot'] at hlen
        cases hlen
      · rw [openPath_append, openPath_append, storageKey_openCall, storageKey_openCall] at heq
        rw [List.append_assoc, List.singleton_append] at hp hp'
        have hmem := mem_hashedBy_open root front rest c key
        have hmem' := mem_hashedBy_open root' front' rest' d key'
        rw [← hp] at hmem
        rw [← hp'] at hmem'
        -- equal digests come from equal strings
        have hstr := hcoll _ (List.mem_append_left _ hmem) _ (List.mem_append_right _ hmem')
          (by rw [heq])
        -- One key is empty and the other is not only when one string is a first id,
        -- and then it is too short.
        have hlen : (root.openPath front).storageKey.length
            = (root'.openPath front').storageKey.length := by
          rcases List.eq_nil_or_concat' front with rfl | ⟨front, e, rfl⟩ <;>
            rcases List.eq_nil_or_concat' front' with rfl | ⟨front', e', rfl⟩
          · simp [openPath, hroot, hroot']
          · have hc : c.id.length < 32 := hshort c (by simp [hp])
            have hl := length_storageKey_openPath root' (front' ++ [e']) (by simp)
            have := congrArg List.length hstr
            simp only [openPath, hroot, List.nil_append, List.length_append] at this
            omega
          · have hd : d.id.length < 32 := hshort' d (by simp [hp'])
            have hl := length_storageKey_openPath root (front ++ [e]) (by simp)
            have := congrArg List.length hstr
            simp only [openPath, hroot', List.nil_append, List.length_append] at this
            omega
          · rw [length_storageKey_openPath root _ (by simp),
              length_storageKey_openPath root' _ (by simp)]
        obtain ⟨hkey, hid⟩ := List.append_inj hstr hlen
        have hfront := ih (c :: rest) front' (d :: rest') hp hp' hkey
        simp only [List.map_append, List.map_cons, List.map_nil, hfront, hid]

/-- The storage key of a space depends on the ids of its path only. -/
theorem storageKey_openPath_congr {root root' : Storage}
    (hroot : root.storageKey = root'.storageKey) (path path' : List OpenCall)
    (hids : path.map OpenCall.id = path'.map OpenCall.id) :
    (root.openPath path).storageKey = (root'.openPath path').storageKey := by
  induction path generalizing root root' path' with
  | nil =>
      cases path' with
      | nil => exact hroot
      | cons d path' => simp at hids
  | cons c path ih =>
      cases path' with
      | nil => simp at hids
      | cons d path' =>
          simp only [List.map_cons, List.cons.injEq] at hids
          refine ih ?_ path' hids.2
          rw [storageKey_openCall, storageKey_openCall, hroot, hids.1]

/-- Two spaces map two keys to one slot exactly when the paths have the same ids and
the keys are equal. -/
theorem mapAddressByKey_openPath_eq_iff {root root' : Storage} (hroot : root.storageKey = [])
    (hroot' : root'.storageKey = []) (path path' : List OpenCall) (key key' : StorageKey)
    (hshort : FirstIdShort path) (hshort' : FirstIdShort path')
    (hcoll : NoCollision (root.hashedBy path key ++ root'.hashedBy path' key')) :
    (root.openPath path).mapAddressByKey key = (root'.openPath path').mapAddressByKey key'
      ↔ path.map OpenCall.id = path'.map OpenCall.id ∧ key = key' := by
  have hmem := mem_hashedBy_page root path key
  have hmem' := mem_hashedBy_page root' path' key'
  constructor
  · intro h
    have hstr := hcoll _ (List.mem_append_left _ hmem) _ (List.mem_append_right _ hmem')
      ((mapAddressByKey_eq_iff_page _ _ _ _).mp h).1
    -- the page strings are equal, and both end in 31 bytes of a key
    have hlen : (root.openPath path).storageKey.length
        = (root'.openPath path').storageKey.length := by
      have := congrArg List.length hstr
      simpa using this
    have hpages : NoCollision [(root.openPath path).storageKey ++ key.toBeBytes.take 31,
        (root'.openPath path').storageKey ++ key'.toBeBytes.take 31] := by
      intro x hx y hy hxy
      simp only [List.mem_cons, List.not_mem_nil, or_false] at hx hy
      have hin : ∀ z, z = (root.openPath path).storageKey ++ key.toBeBytes.take 31
          ∨ z = (root'.openPath path').storageKey ++ key'.toBeBytes.take 31
          → z ∈ root.hashedBy path key ++ root'.hashedBy path' key' := by
        rintro z (rfl | rfl)
        · exact List.mem_append_left _ hmem
        · exact List.mem_append_right _ hmem'
      exact hcoll x (hin x hx) y (hin y hy) hxy
    obtain ⟨hkey, hk⟩ := (mapAddressByKey_eq_iff_of_noCollision hpages hlen).mp h
    have hids := ids_eq_of_storageKey_eq hroot hroot' path path' key key' hcoll hshort hshort'
      path [] path' [] (by simp) (by simp) hkey
    exact ⟨hids, hk⟩
  · rintro ⟨hids, rfl⟩
    have := storageKey_openPath_congr (hroot.trans hroot'.symm) path path' hids
    rw [mapAddressByKey_eq_iff_page, this]
    exact ⟨rfl, rfl⟩

/-- A write through one space and key does not change what another slot reads. -/
theorem run_getByKey_of_ne {s t : Storage} {k k' : StorageKey}
    (hne : s.mapAddressByKey k ≠ t.mapAddressByKey k') (v : StorageValue) (w : World) :
    (World.run (t.getByKey k') (World.run (s.setByKey k v) w).2).1
        = (World.run (t.getByKey k') w).1
      ∧ (World.run (t.getByKey k') (World.run (s.set k v) w).2).1
        = (World.run (t.getByKey k') w).1 := by
  have hwrite : ∀ a, (w.write a (s.mapAddressByKey k) v).store t.account (t.mapAddressByKey k')
      = w.store t.account (t.mapAddressByKey k') := by
    intro a
    rw [World.store_write, if_neg fun h => hne h.2.symm]
  refine ⟨congrArg Outcome.ok (hwrite _), ?_⟩
  -- `set` writes the same slot, or panics and writes nothing
  have hset : (World.run (s.set k v) w).2
      = if w.readOnly then w else w.write s.account (s.mapAddressByKey k) v := by
    unfold set
    rw [World.run, Prog.exec_bind_ok (World.run_readOnly w)]
    cases w.readOnly <;> rfl
  rw [hset]
  split
  · rfl
  · exact congrArg Outcome.ok (hwrite _)

/-- The spaces of one account are isolated. Two spaces, each reached from the root by a
path with a short first id, map two keys to one slot exactly when the ids of the paths
and the keys agree. A write through one of them changes no other read. -/
theorem spaces_isolated {root root' : Storage} (hroot : root.storageKey = [])
    (hroot' : root'.storageKey = []) (haccount : root.account = root'.account)
    (path path' : List OpenCall) (key key' : StorageKey)
    (hshort : FirstIdShort path) (hshort' : FirstIdShort path')
    (hcoll : NoCollision (root.hashedBy path key ++ root'.hashedBy path' key')) :
    ((root.openPath path).account = (root'.openPath path').account)
    ∧ ((root.openPath path).mapAddressByKey key = (root'.openPath path').mapAddressByKey key'
        ↔ path.map OpenCall.id = path'.map OpenCall.id ∧ key = key')
    ∧ ∀ (w : World) (value : StorageValue),
        ¬(path.map OpenCall.id = path'.map OpenCall.id ∧ key = key') →
        (World.run ((root'.openPath path').getByKey key')
            (World.run ((root.openPath path).setByKey key value) w).2).1
          = (World.run ((root'.openPath path').getByKey key') w).1
        ∧ (World.run ((root'.openPath path').getByKey key')
            (World.run ((root.openPath path).set key value) w).2).1
          = (World.run ((root'.openPath path').getByKey key') w).1 := by
  have hiff := mapAddressByKey_openPath_eq_iff hroot hroot' path path' key key' hshort hshort' hcoll
  refine ⟨?_, hiff, ?_⟩
  · rw [account_openPath, account_openPath, haccount]
  · intro w value hne
    exact run_getByKey_of_ne (fun h => hne (hiff.mp h)) value w

end Storage

section
attribute [local instance] sampleHash

/-- The table of the batch posters and its set of posters, with the sample hash: the
hypotheses hold, and two slots of the spaces are apart. -/
theorem spaces_isolated_sample :
    (sampleRoot.openPath [⟨true, [0]⟩]).mapAddressByKey 0
      ≠ (sampleRoot.openPath [⟨true, [0]⟩, ⟨false, [0]⟩]).mapAddressByKey 1 := fun heq =>
  have hroot : sampleRoot.storageKey = [] := rfl
  have h := (Storage.spaces_isolated hroot hroot rfl
    [⟨true, [0]⟩] [⟨true, [0]⟩, ⟨false, [0]⟩] 0 1 (by unfold FirstIdShort; decide)
    (by unfold FirstIdShort; decide) (by unfold NoCollision; decide)).2.1
  absurd (h.mp heq).2 (by decide)

end

end ArbReth
