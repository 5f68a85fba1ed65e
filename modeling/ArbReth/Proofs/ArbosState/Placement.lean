import ArbReth.ArbosState
import ArbReth.Proofs.L1Pricing.Calls
import ArbReth.Proofs.L1Pricing.FakeTx
import ArbReth.Proofs.L2Pricing.Calls
import ArbReth.Proofs.L2Pricing.MultiGasFees
import ArbReth.Proofs.L2Pricing.Sample

/-!
# `ArbReth.Proofs.ArbosState.Placement`: where the slots of the state lie

`ArbosKey` names every slot of the state of ArbOS. `ArbosKey.place` is its place: the calls
that open its space from the root, and the key in that space. Different names have different
places (`ArbosKey.eq_of_place`), so without collisions of the hash they have different slots
(`ArbosState.slot_apart`). This is the isolation of the storage spaces, for all spaces of
the state at once.

There are more accounts than a hash can keep apart. So `ArbosState.NoCollisions` is about the
accounts of a set `A`: no string that is hashed to reach one of their slots, or a slot that is
not that of an account, collides with a string of the state. The slots of two other accounts
may be the same.

The slots of one component are its footprint. The footprints of two components are disjoint,
for any set `A`: one of the two is not that of the L1 pricer, the only one with accounts.
-/

set_option autoImplicit false

namespace ArbReth

open ArbReth.Program

/-- The place of a slot: the calls that open its space, and the key in the space. -/
structure Place where
  path : List OpenCall
  key : StorageKey

namespace Place

/-- The ids of the spaces on the path. -/
def ids (p : Place) : List Bytes := p.path.map OpenCall.id

/-- The place in the sub-space that the call opens. -/
def within (p : Place) (c : OpenCall) : Place := ⟨c :: p.path, p.key⟩

/-- A place in the root has no ids before it. -/
@[simp] theorem ids_nil (key : StorageKey) : (Place.mk [] key).ids = [] := rfl

/-- A place within a sub-space has the id of that in front. -/
@[simp] theorem ids_within (p : Place) (c : OpenCall) : (p.within c).ids = c.id :: p.ids := rfl

/-- A place within a sub-space keeps its key. -/
@[simp] theorem key_within (p : Place) (c : OpenCall) : (p.within c).key = p.key := rfl

end Place

/-! ### The L1 pricer -/

/-- The scalars have offsets of their own. -/
theorem L1Scalar.offset_injective : Function.Injective L1Scalar.offset := by
  intro s s' h
  cases s <;> cases s' <;> first | rfl | exact absurd h (by decide)

/-- The place of a slot in the space of the L1 pricer. -/
def L1Key.place : L1Key → Place
  | .scalar s => ⟨[], U256.ofU64 s.offset⟩
  | .totalFundsDue => ⟨[⟨true, batchPosterTableKey⟩], U256.ofU64 totalFundsDueOffset⟩
  | .posters (.list i) =>
      ⟨[⟨true, batchPosterTableKey⟩, ⟨true, posterAddrsKey⟩], U256.ofU64 i⟩
  | .posters (.index a) =>
      ⟨[⟨true, batchPosterTableKey⟩, ⟨true, posterAddrsKey⟩, ⟨false, [0]⟩], addrToKey a⟩
  | .fundsDue p =>
      ⟨[⟨true, batchPosterTableKey⟩, ⟨false, posterInfoKey⟩, ⟨false, p.asSlice⟩], U256.ofU64 0⟩
  | .payTo p =>
      ⟨[⟨true, batchPosterTableKey⟩, ⟨false, posterInfoKey⟩, ⟨false, p.asSlice⟩], U256.ofU64 1⟩

/-- The ids and the key of a place name the key of the L1 pricer. -/
theorem L1Key.eq_of_place {k k' : L1Key} (hids : k.place.ids = k'.place.ids)
    (hkey : k.place.key = k'.place.key) : k = k' := by
  rcases k with s | _ | ⟨i | a⟩ | p | p <;> rcases k' with s' | _ | ⟨i' | a'⟩ | p' | p' <;>
    simp [place, Place.ids, posterAddrsKey, posterInfoKey, Address.asSlice_inj] at hids hkey
  · rw [L1Scalar.offset_injective (U256.ofU64_injective hkey)]
  · rfl
  · rw [U256.ofU64_injective hkey]
  · rw [Address.intoWord_injective hkey]
  · rw [hids]
  · exact absurd hkey (by decide)
  · exact absurd hkey (by decide)
  · rw [hids]

/-! ### The L2 pricer and the fees -/

/-- The place of a slot in the space of the L2 pricer. -/
def L2Key.place : L2Key → Place
  | .scalar s => ⟨[], U256.ofU64 s.offset⟩
  | .gasLength => ⟨[⟨false, gasConstraintsKey⟩], U256.ofU64 subStorageVectorLengthOffset⟩
  | .gas i f => ⟨[⟨false, gasConstraintsKey⟩, ⟨false, i.toBeBytes⟩], U256.ofU64 f.offset⟩
  | .multiGasLength =>
      ⟨[⟨false, multiGasConstraintsKey⟩], U256.ofU64 subStorageVectorLengthOffset⟩
  | .multiGas i f =>
      ⟨[⟨false, multiGasConstraintsKey⟩, ⟨false, i.toBeBytes⟩], U256.ofU64 f.offset⟩

/-- A 64-bit word can be read back from its bytes. -/
theorem U64.toBeBytes_injective : Function.Injective U64.toBeBytes := by
  intro i i' h
  have hvalue := (BigEndian.beBytes_inj (by simpa using i.isLt) (by simpa using i'.isLt)).mp h
  exact BitVec.eq_of_toNat_eq hvalue

/-- The ids and the key of a place name the key of the L2 pricer. -/
theorem L2Key.eq_of_place {k k' : L2Key} (hids : k.place.ids = k'.place.ids)
    (hkey : k.place.key = k'.place.key) : k = k' := by
  cases k <;> cases k' <;>
    simp [place, Place.ids, gasConstraintsKey, multiGasConstraintsKey] at hids hkey
  case scalar.scalar s s' =>
      rw [L2Pricing.L2Scalar.offset_injective (U256.ofU64_injective hkey)]
  case gasLength.gasLength => rfl
  case gas.gas i f i' f' =>
      rw [U64.toBeBytes_injective hids,
        L2Pricing.GasField.offset_injective (U256.ofU64_injective hkey)]
  case multiGasLength.multiGasLength => rfl
  case multiGas.multiGas i f i' f' =>
      rw [U64.toBeBytes_injective hids,
        L2Pricing.MultiGasField.offset_injective (U256.ofU64_injective hkey)]

/-- The fees have offsets of their own. -/
theorem FeeKey.offset_injective : Function.Injective FeeKey.offset := by
  intro k k' h
  rcases k with kind | kind <;> rcases k' with kind' | kind' <;> cases kind <;> cases kind' <;>
    first | rfl | exact absurd h (by decide)

/-- The place of a fee in the space of the L2 pricer. -/
def FeeKey.place (k : FeeKey) : Place := ⟨[⟨false, multiGasBaseFeesKey⟩], U256.ofU64 k.offset⟩

/-- The fees have a sub-space of their own. -/
theorem L2Key.ids_ne_fee (k : L2Key) (k' : FeeKey) : k.place.ids ≠ k'.place.ids := by
  cases k <;> simp [place, FeeKey.place, Place.ids, gasConstraintsKey, multiGasConstraintsKey,
    multiGasBaseFeesKey]

/-! ### The whole state -/

/-- The slots of the state of ArbOS. -/
inductive ArbosKey where
  | upgradeVersion
  | upgradeTimestamp
  | networkFeeAccount
  | l1Pricing (k : L1Key)
  | l2Pricing (k : L2Key)
  | multiGasFees (k : FeeKey)

namespace ArbosKey

/-- The component of the slot. -/
def component : ArbosKey → Component
  | .upgradeVersion => .upgradeVersion
  | .upgradeTimestamp => .upgradeTimestamp
  | .networkFeeAccount => .networkFeeAccount
  | .l1Pricing _ => .l1Pricing
  | .l2Pricing _ => .l2Pricing
  | .multiGasFees _ => .multiGasFees

/-- All slots but the ones of the accounts outside `A`. -/
def Among (A : Set Address) : ArbosKey → Prop
  | .l1Pricing k => k.Among A
  | _ => True

/-- Only the L1 pricer has slots for accounts. -/
theorem among_of_component {A : Set Address} {k : ArbosKey} (h : k.component ≠ .l1Pricing) :
    k.Among A := by
  cases k with
  | l1Pricing => exact absurd rfl h
  | _ => trivial

/-- The place of a slot in the root space. -/
def place : ArbosKey → Place
  | .upgradeVersion => ⟨[], U256.ofU64 upgradeVersionOffset⟩
  | .upgradeTimestamp => ⟨[], U256.ofU64 upgradeTimestampOffset⟩
  | .networkFeeAccount => ⟨[], U256.ofU64 networkFeeAccountOffset⟩
  | .l1Pricing k => k.place.within ⟨true, l1PricingSubspace⟩
  | .l2Pricing k => k.place.within ⟨true, l2PricingSubspace⟩
  | .multiGasFees k => k.place.within ⟨true, l2PricingSubspace⟩

/-- The place names the slot. -/
theorem eq_of_place {k k' : ArbosKey} (hids : k.place.ids = k'.place.ids)
    (hkey : k.place.key = k'.place.key) : k = k' := by
  cases k <;> cases k' <;>
    simp [place, l1PricingSubspace, l2PricingSubspace] at hids hkey
  case upgradeVersion.upgradeVersion => rfl
  case upgradeTimestamp.upgradeTimestamp => rfl
  case networkFeeAccount.networkFeeAccount => rfl
  case l1Pricing.l1Pricing k k' => rw [L1Key.eq_of_place hids hkey]
  case l2Pricing.l2Pricing k k' => rw [L2Key.eq_of_place hids hkey]
  case l2Pricing.multiGasFees k k' => exact absurd hids (L2Key.ids_ne_fee k k')
  case multiGasFees.l2Pricing k k' => exact absurd hids.symm (L2Key.ids_ne_fee k' k)
  case multiGasFees.multiGasFees k k' =>
      rw [FeeKey.offset_injective (U256.ofU64_injective hkey)]
  -- two cells of the root
  all_goals exact absurd hkey (by decide)

end ArbosKey

namespace ArbosState
variable [Keccak]

/-- The slots of the state in the root space. -/
def layout (root : Storage) : Layout ArbosKey where
  account := root.account
  slot
    | .upgradeVersion => root.mapAddress upgradeVersionOffset
    | .upgradeTimestamp => root.mapAddress upgradeTimestampOffset
    | .networkFeeAccount => root.mapAddress networkFeeAccountOffset
    | .l1Pricing k => (L1Pricing.layout (l1PricingSpace root)).slot k
    | .l2Pricing k => (L2Pricing.layout (l2PricingSpace root)).slot k
    | .multiGasFees k =>
        (MultiGasFees.layout ((l2PricingSpace root).openSubStorage multiGasBaseFeesKey)).slot k

/-- The strings that are hashed to reach the slot. -/
def hashed (root : Storage) (k : ArbosKey) : List Bytes := root.hashedBy k.place.path k.place.key

/-- The strings that are hashed to reach a slot, all but the ones of the accounts outside
`A`, do not collide with each other or with those of any slot of the state. -/
def NoCollisions (root : Storage) (A : Set Address) : Prop :=
  ∀ k k', k.Among A → NoCollision (hashed root k ++ hashed root k')

/-- A slot of the state is reached over the spaces of its place. -/
theorem slot_eq (root : Storage) (k : ArbosKey) :
    (layout root).slot k = (root.openPath k.place.path).mapAddressByKey k.place.key := by
  rcases k with _ | _ | _ | k | k | k
  · rfl
  · rfl
  · rfl
  · rcases k with s | _ | ⟨i | a⟩ | p | p <;> rfl
  · cases k <;> rfl
  · rfl

omit [Keccak] in
/-- The first id of a path is one byte. -/
theorem firstIdShort_place (k : ArbosKey) : FirstIdShort k.place.path := by
  intro c hc
  cases k <;> simp [ArbosKey.place, Place.within] at hc <;> subst hc <;> decide

/-- Different names have different slots. -/
theorem slot_apart {root : Storage} {A : Set Address} (hroot : root.storageKey = [])
    (hcoll : NoCollisions root A) : (layout root).Apart (ArbosKey.Among A) := by
  intro k hk k' h
  rw [slot_eq, slot_eq] at h
  obtain ⟨hids, hkey⟩ := (Storage.mapAddressByKey_openPath_eq_iff hroot hroot k.place.path
    k'.place.path k.place.key k'.place.key (firstIdShort_place k) (firstIdShort_place k')
    (hcoll k k' hk)).mp h.symm
  exact (ArbosKey.eq_of_place hids hkey).symm

/-! ### The slots of one component -/

section
variable {root : Storage} {A : Set Address} (hslots : (layout root).Apart (ArbosKey.Among A))
include hslots

/-- No slot of the L1 pricer in use is that of another key of it. -/
theorem l1Pricing_apart : (L1Pricing.layout (l1PricingSpace root)).Apart (L1Key.Among A) :=
  hslots.of_part ArbosKey.l1Pricing (fun _ _ h => ArbosKey.l1Pricing.inj h) (fun _ hk => hk)
    fun _ => rfl

/-- The slots of the L2 pricer are apart. -/
theorem l2Pricing_injective :
    Function.Injective (L2Pricing.layout (l2PricingSpace root)).slot := by
  intro k k' h
  have hkey : ArbosKey.l2Pricing k = .l2Pricing k' := hslots (.l2Pricing k') trivial _ h
  injection hkey

/-- The slots of the multi-gas fees are apart. -/
theorem multiGasFees_injective :
    Function.Injective (MultiGasFees.layout
      ((l2PricingSpace root).openSubStorage multiGasBaseFeesKey)).slot := by
  intro k k' h
  have hkey : ArbosKey.multiGasFees k = .multiGasFees k' := hslots (.multiGasFees k') trivial _ h
  injection hkey

end

end ArbosState

/-- The slots of a component. The L1 pricer reads and moves balances as well. -/
def Component.footprint [Keccak] (root : Storage) (c : Component) : Footprint where
  slots account slot :=
    account = root.account
      ∧ ∃ k : ArbosKey, k.component = c ∧ slot = (ArbosState.layout root).slot k
  balances := c = .l1Pricing

/-- The footprints of two components are disjoint. -/
theorem Component.disjoint [Keccak] {root : Storage} {A : Set Address}
    (hslots : (ArbosState.layout root).Apart (ArbosKey.Among A)) {c c' : Component}
    (hne : c ≠ c') : (c.footprint root).Disjoint (c'.footprint root) where
  slots := by
    rintro a slot ⟨-, k, rfl, rfl⟩ ⟨-, k', rfl, hslot⟩
    -- one of the two is no slot of the L1 pricer, so it is the slot of no other key
    by_cases hk : k.component = .l1Pricing
    · have hk' : k'.component ≠ .l1Pricing := fun h => hne (hk.trans h.symm)
      have hkey := hslots k' (ArbosKey.among_of_component hk') k hslot
      exact hne (congrArg ArbosKey.component hkey)
    · have hkey := hslots k (ArbosKey.among_of_component hk) k' hslot.symm
      exact hne (congrArg ArbosKey.component hkey.symm)
  balances := by
    rintro rfl rfl
    exact hne rfl

end ArbReth
