import ArbReth.Proofs.L1Pricing.Represents
import ArbReth.Storage.SampleHash

/-!
# `ArbReth.Proofs.L1Pricing.Sample`: the sample hash keeps the slots of the pricer apart

The theorems about the pricer assume that the slots that are used are apart from all others.
Here all slots are, whatever accounts are used: the layout of the pricer in the root space is
injective for the sample hash. `page` gives the space and the key of each slot. The spaces
other than the records of the posters are told apart by the length and the first two bytes of
their storage keys, and two records by the address.
-/

set_option autoImplicit false

namespace ArbReth.L1Pricing

open ArbReth.BigEndian

attribute [local instance] sampleHash

/-- The storage key of the record of a poster. -/
theorem recordSpace_storageKey (p : Address) :
    (recordSpace sampleRoot p).storageKey
      = 52 :: 33 :: 1 :: (List.replicate 8 0 ++ p.asSlice ++ [0]) := by
  have hparent : ((tableSpace sampleRoot).openSubStorage posterInfoKey).storageKey.length = 32 := by
    decide
  have hslice : p.asSlice.length = 20 := length_beBytes _ _
  have hkey : (recordSpace sampleRoot p).storageKey
      = sampleDigest (((tableSpace sampleRoot).openSubStorage posterInfoKey).storageKey
          ++ p.asSlice) := by
    show (sampleDigest [_, p.asSlice].flatten).toArray.toList = _
    simp
  have hcons : ((tableSpace sampleRoot).openSubStorage posterInfoKey).storageKey
      = 33 :: 1 :: (((tableSpace sampleRoot).openSubStorage posterInfoKey).storageKey.drop 2) := by
    decide
  have hpayload : ∀ s : Bytes, s.length = 32 → samplePayload (s ++ p.asSlice) = p.asSlice := by
    intro s hs
    have hnot : ¬IsNamedPage (s ++ p.asSlice) := by
      intro h
      have := h.1
      simp [hs, hslice] at this
    rw [samplePayload, if_neg hnot, lastBytes_append _ _ (by omega), hslice]
    rfl
  rw [hkey, sampleDigest, hpayload _ hparent, List.length_append, hparent, hslice, hcons]
  rfl

/-- The space of the slot. -/
def pageSpace : L1Key → Storage
  | .scalar _ => sampleRoot
  | .totalFundsDue => tableSpace sampleRoot
  | .posters (.list _) => posterSpace sampleRoot
  | .posters (.index _) => (posterSpace sampleRoot).openSubStorage [0]
  | .fundsDue p => recordSpace sampleRoot p
  | .payTo p => recordSpace sampleRoot p

/-- The key of the slot in its space. -/
def pageKey : L1Key → StorageKey
  | .scalar s => U256.ofU64 s.offset
  | .totalFundsDue => U256.ofU64 totalFundsDueOffset
  | .posters (.list i) => U256.ofU64 i
  | .posters (.index a) => a.intoWord
  | .fundsDue _ => U256.ofU64 0
  | .payTo _ => U256.ofU64 1

/-- A slot of the pricer lies in the page space of its key. -/
theorem slot_eq (k : L1Key) :
    (layout sampleRoot).slot k = (pageSpace k).mapAddressByKey (pageKey k) := by
  rcases k with s | _ | (i | a) | p | p <;> rfl

/-- The poster whose record holds the slot. -/
def recordOf : L1Key → Option Address
  | .fundsDue p => some p
  | .payTo p => some p
  | _ => none

/-- The keys within a page space are words of 160 bits. -/
theorem pageKey_lt (k : L1Key) : (pageKey k).toNat < 2 ^ 160 := by
  rcases k with s | _ | (i | a) | p | p
  case posters.index => exact toNat_intoWord_lt a
  all_goals exact toNat_ofU64_lt _

/-- The length and the first two bytes of the storage key of the space. -/
def pageTag : L1Key → Nat × Bytes
  | .scalar _ => (0, [])
  | .totalFundsDue => (32, [1, 0])
  | .posters (.list _) => (32, [33, 1])
  | .posters (.index _) => (32, [33, 33])
  | .fundsDue _ => (32, [52, 33])
  | .payTo _ => (32, [52, 33])

/-- Outside the records, the tag is right, and no storage key starts with the byte 52. -/
theorem pageSpace_of_not_record {k : L1Key} (h : recordOf k = none) :
    ((pageSpace k).storageKey.length, (pageSpace k).storageKey.take 2) = pageTag k
      ∧ (pageSpace k).storageKey.headD 0 ≠ 52
      ∧ ((pageSpace k).storageKey.length = 0 ∨ (pageSpace k).storageKey.length = 32) := by
  rcases k with s | _ | (i | a) | p | p <;>
    first
    | exact absurd h (Option.some_ne_none _)
    | simp only [pageSpace, pageTag]; decide

/-- Outside the records, the tag of the space and the key of a slot name it. -/
theorem key_eq_of_page {k k' : L1Key} (h : recordOf k = none) (h' : recordOf k' = none)
    (htag : pageTag k = pageTag k') (hkey : pageKey k = pageKey k') : k = k' := by
  rcases k with s | _ | (i | a) | p | p <;> rcases k' with s' | _ | (i' | a') | p' | p' <;>
    first
    | exact absurd h (Option.some_ne_none _)
    | exact absurd h' (Option.some_ne_none _)
    | rfl
    | (revert htag; simp [pageTag]; done)
    | skip
  · have hoffset : s.offset = s'.offset := U256.ofU64_injective hkey
    cases s <;> cases s' <;> first | rfl | exact absurd hoffset (by decide)
  · rw [U256.ofU64_injective hkey]
  · rw [Address.intoWord_injective hkey]

/-- The page of a record is named by the poster. -/
theorem recordPage (p : Address) (x : StorageKey) :
    IsNamedPage ((recordSpace sampleRoot p).storageKey ++ x.toBeBytes.take 31)
      ∧ samplePayload ((recordSpace sampleRoot p).storageKey ++ x.toBeBytes.take 31)
        = p.asSlice := by
  have hslice : p.asSlice.length = 20 := length_beBytes _ _
  have hnamed : IsNamedPage ((recordSpace sampleRoot p).storageKey ++ x.toBeBytes.take 31) := by
    rw [recordSpace_storageKey]
    exact ⟨by simp [hslice], rfl⟩
  refine ⟨hnamed, ?_⟩
  rw [samplePayload, if_pos hnamed, recordSpace_storageKey]
  simp [hslice]

/-- The slots of a record lie in the space of its poster. -/
theorem pageSpace_of_record {k : L1Key} {p : Address} (h : recordOf k = some p) :
    pageSpace k = recordSpace sampleRoot p := by
  rcases k with s | _ | (i | a) | q | q <;> cases h <;> rfl

/-- A page of a record is no other page. -/
theorem page_ne_record {k k' : L1Key} {p : Address} (h : recordOf k = none)
    (h' : recordOf k' = some p) :
    (pageSpace k).mapAddressByKey (pageKey k) ≠ (pageSpace k').mapAddressByKey (pageKey k') := by
  intro heq
  obtain ⟨-, hhead, hlen⟩ := pageSpace_of_not_record h
  rw [pageSpace_of_record h'] at heq
  obtain ⟨hdigest, -⟩ := (Storage.mapAddressByKey_eq_iff_page _ _ _ _).mp heq
  obtain ⟨hlength, hhead', -, -⟩ := sampleDigest_take_inj hdigest
  obtain ⟨hlen63, hhead52⟩ := (recordPage p (pageKey k')).1
  rw [hlen63] at hlength
  rw [hhead52] at hhead'
  rcases hlen with hzero | hfull
  · rw [List.length_append, hzero] at hlength
    simp at hlength
  · obtain ⟨b, bs, hb⟩ := List.exists_cons_of_length_pos (l := (pageSpace k).storageKey) (by omega)
    rw [hb] at hhead hhead'
    exact hhead hhead'

/-- A page of a record names the poster, and the last byte of the key the slot. -/
theorem key_eq_of_recordPage {k k' : L1Key} {p p' : Address} (h : recordOf k = some p)
    (h' : recordOf k' = some p')
    (heq : (pageSpace k).mapAddressByKey (pageKey k)
      = (pageSpace k').mapAddressByKey (pageKey k')) : k = k' := by
  rw [pageSpace_of_record h, pageSpace_of_record h'] at heq
  obtain ⟨hdigest, hlast⟩ := (Storage.mapAddressByKey_eq_iff_page _ _ _ _).mp heq
  obtain ⟨-, -, -, hpayload⟩ := sampleDigest_take_inj hdigest
  rw [(recordPage p _).2, (recordPage p' _).2] at hpayload
  have hp : p = p' := BitVec.eq_of_toNat_eq
    ((beBytes_inj (by simpa using p.isLt) (by simpa using p'.isLt)).mp hpayload)
  subst hp
  have hne : (U256.ofU64 0).toBeBytes.drop 31 ≠ (U256.ofU64 1).toBeBytes.drop 31 := by decide
  rcases k with s | _ | (i | a) | q | q <;> cases h <;>
    rcases k' with s' | _ | (i' | a') | q' | q' <;> cases h' <;>
    first
    | rfl
    | exact absurd hlast hne
    | exact absurd hlast.symm hne

/-- The sample hash gives all slots of the pricer in the root space different words. -/
theorem sampleRoot_layout_injective : Function.Injective (layout sampleRoot).slot := by
  intro k k' h
  rw [slot_eq, slot_eq] at h
  cases hk : recordOf k with
  | none =>
      obtain ⟨htag, hhead, hlen⟩ := pageSpace_of_not_record hk
      cases hk' : recordOf k' with
      | none =>
          obtain ⟨htag', hhead', hlen'⟩ := pageSpace_of_not_record hk'
          obtain ⟨h₁, h₂, h₃⟩ :=
            samplePage_inj (pageKey_lt k) (pageKey_lt k') hhead hhead' hlen hlen' h
          rw [← h₁, ← h₂, htag] at htag'
          exact key_eq_of_page hk hk' htag' h₃
      | some p' => exact absurd h (page_ne_record hk hk')
  | some p =>
      cases hk' : recordOf k' with
      | none => exact absurd h.symm (page_ne_record hk' hk)
      | some p' => exact key_eq_of_recordPage hk hk' h

/-- The sample hash keeps all accounts apart. -/
theorem sampleRoot_layout_apart : (layout sampleRoot).Apart (L1Key.Among Set.univ) :=
  .of_injective sampleRoot_layout_injective _

end ArbReth.L1Pricing
