import ArbReth.Storage.Storage

/-!
# `ArbReth.Storage.SampleHash`: a hash that keeps a small layout apart

The theorems about storage assume that the hash does not collide on the strings
that a layout hashes. This module shows that the assumption can be met. The digest
`sampleDigest` keeps the length of the string, its first two bytes, and 20 bytes of
its payload. It separates the pages and the sub-spaces of the layouts of this
development when their root space is the root of the account, and when a page key
is below `2 ^ 160`, as the words of a `u64` and of an address are.

The payload of a string is its last 20 bytes. The page of a space that is named by
20 bytes of its own is the exception: there the payload is the name.
-/

set_option autoImplicit false

namespace ArbReth

open ArbReth.BigEndian

/-- The last `n` bytes of the string, with zeros in front of a shorter one. -/
def lastBytes (n : Nat) (x : Bytes) : Bytes :=
  List.replicate (n - x.length) 0 ++ x.drop (x.length - n)

/-- Shorter strings are filled up with zeros. -/
@[simp] theorem length_lastBytes (n : Nat) (x : Bytes) : (lastBytes n x).length = n := by
  simp only [lastBytes, List.length_append, List.length_replicate, List.length_drop]
  omega

/-- Where the end is long enough, the last bytes are those of the end. -/
theorem lastBytes_append {n : Nat} (x y : Bytes) (h : n ≤ y.length) :
    lastBytes n (x ++ y) = y.drop (y.length - n) := by
  have h1 : x.length + y.length - n = x.length + (y.length - n) := by omega
  rw [lastBytes, List.length_append, h1, List.drop_append, Nat.sub_eq_zero_of_le (by omega)]
  simp

/-- The string is the page of a space named by 20 bytes. -/
def IsNamedPage (x : Bytes) : Prop := x.length = 63 ∧ x.headD 0 = 52

instance (x : Bytes) : Decidable (IsNamedPage x) := inferInstanceAs (Decidable (_ ∧ _))

/-- The 20 bytes that the digest keeps of a string. -/
def samplePayload (x : Bytes) : Bytes :=
  if IsNamedPage x then (x.take 31).drop 11 else lastBytes 20 x

/-- Every payload has twenty bytes. -/
@[simp] theorem length_samplePayload (x : Bytes) : (samplePayload x).length = 20 := by
  unfold samplePayload
  split
  · rename_i h
    simp [h.1]
  · exact length_lastBytes _ _

/-- The length, the first two bytes, and the payload of the string. -/
def sampleDigest (x : Bytes) : Bytes :=
  UInt8.ofNat x.length :: x.headD 0 :: x.tail.headD 0 ::
    (List.replicate 8 0 ++ samplePayload x ++ [0])

/-- The digest has the length of a hash. -/
@[simp] theorem length_sampleDigest (x : Bytes) : (sampleDigest x).length = 32 := by
  simp [sampleDigest]

/-- The sample digest as a hash function. -/
@[reducible] def sampleHash : Keccak where
  keccak256 x := ⟨(sampleDigest x).toArray, by simp⟩

/-- The root space of an account. -/
def sampleRoot : Storage := { account := 0xA4, storageKey := [], hashCache := true }

/-- The first 31 bytes of the digest determine all that it keeps. -/
theorem sampleDigest_take_inj {x y : Bytes}
    (h : (sampleDigest x).take 31 = (sampleDigest y).take 31) :
    UInt8.ofNat x.length = UInt8.ofNat y.length ∧ x.headD 0 = y.headD 0
      ∧ x.tail.headD 0 = y.tail.headD 0 ∧ samplePayload x = samplePayload y := by
  have htake : ∀ z : Bytes, (sampleDigest z).take 31
      = UInt8.ofNat z.length :: z.headD 0 :: z.tail.headD 0 ::
          (List.replicate 8 0 ++ samplePayload z) := by
    intro z
    have hlen : (UInt8.ofNat z.length :: z.headD 0 :: z.tail.headD 0 ::
        (List.replicate 8 0 ++ samplePayload z)).length = 31 := by simp
    rw [sampleDigest, ← List.cons_append, ← List.cons_append, ← List.cons_append, ← hlen,
      List.take_left]
  rw [htake, htake] at h
  simp only [List.cons.injEq] at h
  exact ⟨h.1, h.2.1, h.2.2.1, List.append_cancel_left h.2.2.2⟩

/-- A page key below `2 ^ 160` is determined by the last 21 bytes of the key. -/
theorem key_eq_of_drop {k k' : StorageKey} (hk : k.toNat < 2 ^ 160) (hk' : k'.toNat < 2 ^ 160)
    (hmid : (k.toBeBytes.take 31).drop 11 = (k'.toBeBytes.take 31).drop 11)
    (hlast : k.toBeBytes.drop 31 = k'.toBeBytes.drop 31) : k = k' := by
  have hjoin : ∀ l : Bytes, l.drop 11 = (l.take 31).drop 11 ++ l.drop 31 := by
    intro l
    rw [List.drop_take, ← List.drop_drop (i := 20) (j := 11) (l := l), List.take_append_drop]
  have hdrop : ∀ x : StorageKey, x.toNat < 2 ^ 160 → x.toBeBytes.drop 11 = beBytes 21 x.toNat :=
    fun x hx => by
      have hsplit := beBytes_add 11 21 x.toNat
      have hlen : (beBytes 11 (x.toNat / 256 ^ 21)).length = 11 := length_beBytes _ _
      rw [U256.toBeBytes, hsplit, Nat.mod_eq_of_lt (lt_trans hx (by norm_num)),
        List.drop_append, hlen]
      simp
  have h : beBytes 21 k.toNat = beBytes 21 k'.toNat := by
    rw [← hdrop k hk, ← hdrop k' hk', hjoin, hjoin k'.toBeBytes, hmid, hlast]
  exact BitVec.eq_of_toNat_eq
    ((beBytes_inj (lt_trans hk (by norm_num)) (lt_trans hk' (by norm_num))).mp h)

section
attribute [local instance] sampleHash

/-- Two pages of spaces that are not named by 20 bytes share a slot only when their
storage keys have the same length and the same first two bytes, and the keys agree. -/
theorem samplePage_inj {s t : Storage} {k k' : StorageKey} (hk : k.toNat < 2 ^ 160)
    (hk' : k'.toNat < 2 ^ 160) (hs : s.storageKey.headD 0 ≠ 52) (ht : t.storageKey.headD 0 ≠ 52)
    (hslen : s.storageKey.length = 0 ∨ s.storageKey.length = 32)
    (htlen : t.storageKey.length = 0 ∨ t.storageKey.length = 32)
    (h : s.mapAddressByKey k = t.mapAddressByKey k') :
    s.storageKey.length = t.storageKey.length ∧ s.storageKey.take 2 = t.storageKey.take 2
      ∧ k = k' := by
  have hpage : ∀ (u : Storage) (x : StorageKey), u.storageKey.headD 0 ≠ 52 →
      u.storageKey.length = 0 ∨ u.storageKey.length = 32 →
      samplePayload (u.storageKey ++ x.toBeBytes.take 31) = (x.toBeBytes.take 31).drop 11 := by
    intro u x hu hlen
    have hnot : ¬IsNamedPage (u.storageKey ++ x.toBeBytes.take 31) := by
      rintro ⟨hlen63, hhead⟩
      rcases hlen with hlen | hlen
      · simp [hlen] at hlen63
      · obtain ⟨b, bs, hb⟩ := List.exists_cons_of_length_pos (l := u.storageKey) (by omega)
        rw [hb] at hhead hu
        exact hu hhead
    rw [samplePayload, if_neg hnot, lastBytes_append _ _ (by simp)]
    simp
  obtain ⟨hdigest, hlast⟩ := (Storage.mapAddressByKey_eq_iff_page s t k k').mp h
  obtain ⟨hlen, hhead, hsecond, hpayload⟩ := sampleDigest_take_inj hdigest
  rw [hpage s k hs hslen, hpage t k' ht htlen] at hpayload
  have hlen' : s.storageKey.length = t.storageKey.length := by
    rcases hslen with h1 | h1 <;> rcases htlen with h2 | h2 <;>
      simp [h1, h2] at hlen ⊢
  refine ⟨hlen', ?_, key_eq_of_drop hk hk' hpayload hlast⟩
  rcases hslen with h1 | h1
  · have h2 : t.storageKey.length = 0 := hlen' ▸ h1
    rw [List.length_eq_zero_iff.mp h1, List.length_eq_zero_iff.mp h2]
  · obtain ⟨a, as, ha⟩ := List.exists_cons_of_length_pos (l := s.storageKey) (by omega)
    obtain ⟨a', as', ha'⟩ := List.exists_cons_of_length_pos (l := as) (by
      rw [ha] at h1; simp at h1; omega)
    obtain ⟨b, bs, hb⟩ := List.exists_cons_of_length_pos (l := t.storageKey) (by omega)
    obtain ⟨b', bs', hb'⟩ := List.exists_cons_of_length_pos (l := bs) (by
      rw [hlen', hb] at h1; simp at h1; omega)
    rw [ha, ha', hb, hb'] at hhead hsecond ⊢
    simp only [List.cons_append, List.headD_cons, List.tail_cons] at hhead hsecond
    simp [hhead, hsecond]

/-- A 64-bit key is a word of 160 bits. -/
theorem toNat_ofU64_lt (i : U64) : (U256.ofU64 i).toNat < 2 ^ 160 := by
  have := i.isLt
  rw [U256.toNat_ofU64]
  omega

/-- The key of an address is a word of 160 bits. -/
theorem toNat_intoWord_lt (a : Address) : a.intoWord.toNat < 2 ^ 160 := by
  rw [Address.toNat_intoWord]
  exact a.isLt

/-- The sample hash keeps the numbered slots of the root apart. -/
theorem sampleRoot_mapAddress_injective : Function.Injective sampleRoot.mapAddress := by
  intro i j h
  have hinj := samplePage_inj (toNat_ofU64_lt i) (toNat_ofU64_lt j) (by decide) (by decide)
    (Or.inl rfl) (Or.inl rfl) (s := sampleRoot) (t := sampleRoot) h
  exact U256.ofU64_injective hinj.2.2

end

end ArbReth
