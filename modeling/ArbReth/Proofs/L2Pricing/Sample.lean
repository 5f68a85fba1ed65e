import ArbReth.Proofs.L2Pricing.Represents
import ArbReth.Storage.SampleHash

/-!
# `ArbReth.Proofs.L2Pricing.Sample`: a hash that keeps the slots of the L2 pricer apart

The theorems about the L2 pricer assume that its layout is injective. `indexDigest` keeps
the length of a string, its last eight bytes and its first 22, so it keeps the index of an
element, which the digest of the posters' layout loses. With it the 31 bytes that a page
keeps name the space (`pageTag`), and the last byte of a slot is its offset.
-/

set_option autoImplicit false

namespace ArbReth.L2Pricing

open ArbReth.BigEndian

/-- The first `n` bytes of the string, with zeros after a shorter one. -/
def firstBytes (n : Nat) (x : Bytes) : Bytes := x.take n ++ List.replicate (n - x.length) 0

/-- Shorter strings are filled up with zeros. -/
@[simp] theorem length_firstBytes (n : Nat) (x : Bytes) : (firstBytes n x).length = n := by
  simp only [firstBytes, List.length_append, List.length_take, List.length_replicate]
  omega

/-- The first bytes of a longer string are its own. -/
theorem firstBytes_append {n : Nat} (x y : Bytes) (h : n ≤ x.length) :
    firstBytes n (x ++ y) = x.take n := by
  rw [firstBytes, List.take_append_of_le_length h, List.length_append,
    Nat.sub_eq_zero_of_le (by omega)]
  simp

/-- The length, the last eight bytes and the first 22 bytes of the string. -/
def indexDigest (x : Bytes) : Bytes :=
  UInt8.ofNat x.length :: (lastBytes 8 x ++ firstBytes 22 x ++ [0])

/-- The digest has the length of a hash. -/
@[simp] theorem length_indexDigest (x : Bytes) : (indexDigest x).length = 32 := by
  simp [indexDigest]

/-- The digest as a hash function. -/
@[reducible] def indexHash : Keccak where
  keccak256 x := ⟨(indexDigest x).toArray, by simp⟩

/-- A long enough string is cut at its two ends. -/
theorem indexDigest_append (x y : Bytes) (hx : 22 ≤ x.length) (hy : 8 ≤ y.length) :
    indexDigest (x ++ y)
      = UInt8.ofNat (x.length + y.length) :: (y.drop (y.length - 8) ++ x.take 22 ++ [0]) := by
  rw [indexDigest, lastBytes_append x y hy, firstBytes_append x y hx, List.length_append]

attribute [local instance] indexHash

/-- The storage key of an element of the vector with the key `t`. -/
theorem elementKey_eq (t : UInt8) (i : U64) :
    ((sampleRoot.openSubStorage [t]).openSubStorage i.toBeBytes).storageKey
      = 40 :: (i.toBeBytes ++ (indexDigest [t]).take 22 ++ [0]) := by
  have hindex : i.toBeBytes.length = 8 := length_beBytes _ _
  show (indexDigest [(indexDigest [[], [t]].flatten).toArray.toList, _].flatten).toArray.toList = _
  simp only [List.flatten_cons, List.flatten_nil, List.nil_append, List.append_nil]
  -- The digest takes the index from the end and the vector from the start.
  rw [indexDigest_append _ _ (by simp) (by omega), hindex]
  simp

/-- The space of the slot. -/
def pageSpace : L2Key → Storage
  | .scalar _ => sampleRoot
  | .gasLength => gasSpace sampleRoot
  | .gas i _ => (gasSpace sampleRoot).openSubStorage i.toBeBytes
  | .multiGasLength => multiGasSpace sampleRoot
  | .multiGas i _ => (multiGasSpace sampleRoot).openSubStorage i.toBeBytes

/-- The offset of the slot in its space. -/
def pageOffset : L2Key → U64
  | .scalar s => s.offset
  | .gasLength => subStorageVectorLengthOffset
  | .gas _ f => f.offset
  | .multiGasLength => subStorageVectorLengthOffset
  | .multiGas _ f => f.offset

/-- A slot of the pricer lies in the page space of its key. -/
theorem slot_eq (k : L2Key) :
    (layout sampleRoot).slot k = (pageSpace k).mapAddressByKey (U256.ofU64 (pageOffset k)) := by
  cases k <;> rfl

/-- The offsets are small: the page of a slot is the first one of its space. -/
theorem pageOffset_lt (k : L2Key) : (pageOffset k).toNat < 12 := by
  cases k with
  | scalar s => cases s <;> decide
  | gasLength => decide
  | gas i f =>
      show f.offset.toNat < 12
      cases f <;> decide
  | multiGasLength => decide
  | multiGas i f =>
      show f.offset.toNat < 12
      cases f with
      -- the last weight is at the offset 11
      | weight kind => cases kind <;> decide
      | _ => decide

/-- The bytes of a small word: a page of zeros and the offset. -/
theorem toBeBytes_small {i : U64} (hi : i.toNat < 12) :
    (U256.ofU64 i).toBeBytes = List.replicate 31 0 ++ [UInt8.ofNat i.toNat] := by
  have hzero : beBytes 31 0 = List.replicate 31 0 := by decide
  have hone : beBytes 1 i.toNat = [UInt8.ofNat i.toNat] := by
    simp [beBytes]
  have hsplit := beBytes_add 31 1 i.toNat
  rw [U256.toBeBytes, U256.toNat_ofU64, hsplit, Nat.div_eq_of_lt (by omega), hzero,
    Nat.mod_eq_of_lt (by omega), hone]

/-- What the page of a slot keeps of the storage key of its space. -/
def pageTag : L2Key → Bytes
  | .scalar _ => 31 :: List.replicate 30 0
  | .gasLength => 63 :: (List.replicate 8 0 ++ (indexDigest [0]).take 22)
  | .gas i _ =>
      63 :: (List.replicate 8 0 ++ 40 :: (i.toBeBytes ++ (indexDigest [0]).take 13))
  | .multiGasLength => 63 :: (List.replicate 8 0 ++ (indexDigest [1]).take 22)
  | .multiGas i _ =>
      63 :: (List.replicate 8 0 ++ 40 :: (i.toBeBytes ++ (indexDigest [1]).take 13))

/-- The page of a space with a storage key of 32 bytes. -/
theorem indexDigest_page (key : Bytes) (hkey : key.length = 32) :
    (indexDigest (key ++ List.replicate 31 0)).take 31
      = 63 :: (List.replicate 8 0 ++ key.take 22) := by
  rw [indexDigest_append _ _ (by omega) (by simp), hkey]
  simp [hkey]

/-- The tag of a key is what the digest of its page starts with. -/
theorem page_eq (k : L2Key) :
    (indexDigest ((pageSpace k).storageKey ++ List.replicate 31 0)).take 31 = pageTag k := by
  have helement : ∀ (t : UInt8) (i : U64),
      (indexDigest (((sampleRoot.openSubStorage [t]).openSubStorage i.toBeBytes).storageKey
          ++ List.replicate 31 0)).take 31
        = 63 :: (List.replicate 8 0 ++ 40 :: (i.toBeBytes ++ (indexDigest [t]).take 13)) := by
    intro t i
    have hindex : i.toBeBytes.length = 8 := length_beBytes _ _
    rw [elementKey_eq, indexDigest_page _ (by simp [hindex])]
    simp [hindex, List.take_append, List.take_take]
  cases k with
  | scalar s => simp only [pageSpace, pageTag]; decide
  | gasLength => exact indexDigest_page _ (by decide)
  | gas i f => exact helement 0 i
  | multiGasLength => exact indexDigest_page _ (by decide)
  | multiGas i f => exact helement 1 i

/-- The scalars have offsets of their own. -/
theorem L2Scalar.offset_injective : Function.Injective L2Scalar.offset := by
  intro s s' h
  cases s <;> cases s' <;> first | rfl | exact absurd h (by decide)

/-- The fields of a gas constraint have offsets of their own. -/
theorem GasField.offset_injective : Function.Injective GasField.offset := by
  intro f f' h
  cases f <;> cases f' <;> first | rfl | exact absurd h (by decide)

/-- The fields of a multi-gas constraint have offsets of their own, the weights included. -/
theorem MultiGasField.offset_injective : Function.Injective MultiGasField.offset := by
  intro f f' h
  cases f with
  | weight kind =>
      cases f' with
      | weight kind' => cases kind <;> cases kind' <;> first | rfl | exact absurd h (by decide)
      | _ => cases kind <;> exact absurd h (by decide)
  | _ =>
      cases f' with
      | weight kind' => cases kind' <;> exact absurd h (by decide)
      | _ => first | rfl | exact absurd h (by decide)

/-- The tags of two elements give the index and the vector. -/
theorem elementTag_inj {t t' : UInt8} {i i' : U64}
    (h : 63 :: (List.replicate 8 0 ++ 40 :: (i.toBeBytes ++ (indexDigest [t]).take 13))
      = 63 :: (List.replicate 8 0 ++ 40 :: (i'.toBeBytes ++ (indexDigest [t']).take 13))) :
    i = i' ∧ (indexDigest [t]).take 13 = (indexDigest [t']).take 13 := by
  have hlen : i.toBeBytes.length = i'.toBeBytes.length :=
    (length_beBytes _ _).trans (length_beBytes _ _).symm
  have htail := List.append_cancel_left (List.cons.inj h).2
  obtain ⟨hindex, hvec⟩ := List.append_inj (List.cons.inj htail).2 hlen
  refine ⟨BitVec.eq_of_toNat_eq ?_, hvec⟩
  exact (beBytes_inj (by simpa using i.isLt) (by simpa using i'.isLt)).mp hindex

/-- The first byte of the storage key of the space: the length of the string that it
hashes. -/
def keyByte : L2Key → UInt8
  | .scalar _ => 0
  | .gasLength => 1
  | .gas _ _ => 40
  | .multiGasLength => 1
  | .multiGas _ _ => 40

/-- The tenth byte of a tag tells the kinds of keys apart. -/
theorem getD_pageTag (k : L2Key) : (pageTag k).getD 9 0 = keyByte k := by
  -- The byte after the length and the zeros of the page.
  cases k <;> rfl

/-- The tag of the space and the offset name the slot. -/
theorem key_eq_of_tag {k k' : L2Key} (htag : pageTag k = pageTag k')
    (hoffset : pageOffset k = pageOffset k') : k = k' := by
  have hbyte : keyByte k = keyByte k' := by
    rw [← getD_pageTag, ← getD_pageTag, htag]
  cases k <;> cases k'
  case scalar.scalar s s' => rw [L2Scalar.offset_injective hoffset]
  case gasLength.gasLength => rfl
  case gasLength.multiGasLength => exact absurd htag (by decide)
  case multiGasLength.gasLength => exact absurd htag (by decide)
  case multiGasLength.multiGasLength => rfl
  case gas.gas i f i' f' => rw [(elementTag_inj htag).1, GasField.offset_injective hoffset]
  case gas.multiGas i f i' f' => exact absurd (elementTag_inj htag).2 (by decide)
  case multiGas.gas i f i' f' => exact absurd (elementTag_inj htag).2 (by decide)
  case multiGas.multiGas i f i' f' =>
    rw [(elementTag_inj htag).1, MultiGasField.offset_injective hoffset]
  -- the length of the hashed string tells the other pairs apart
  all_goals simp [keyByte] at hbyte

/-- The digest keeps the slots of the L2 pricer in the root apart. -/
theorem sampleRoot_layout_injective : Function.Injective (layout sampleRoot).slot := by
  have htake : ∀ b : UInt8, (List.replicate 31 (0 : UInt8) ++ [b]).take 31 = List.replicate 31 0 :=
    fun _ => List.take_left' (by simp)
  have hdrop : ∀ b : UInt8, (List.replicate 31 (0 : UInt8) ++ [b]).drop 31 = [b] :=
    fun _ => List.drop_left' (by simp)
  intro k k' h
  rw [slot_eq, slot_eq, Storage.mapAddressByKey_eq_iff_page, toBeBytes_small (pageOffset_lt k),
    toBeBytes_small (pageOffset_lt k'), htake, htake, hdrop, hdrop] at h
  obtain ⟨hpage, hlast⟩ := h
  refine key_eq_of_tag ?_ (BitVec.eq_of_toNat_eq ?_)
  · rw [← page_eq, ← page_eq]
    exact hpage
  · have h := pageOffset_lt k
    have h' := pageOffset_lt k'
    have hbyte := congrArg UInt8.toNat (List.head_eq_of_cons_eq hlast)
    rwa [UInt8.toNat_ofNat_of_lt' (Nat.lt_trans h (by decide)),
      UInt8.toNat_ofNat_of_lt' (Nat.lt_trans h' (by decide))] at hbyte

end ArbReth.L2Pricing
