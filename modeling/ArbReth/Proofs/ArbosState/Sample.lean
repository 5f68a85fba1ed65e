import ArbReth.Proofs.ArbosState.Placement

/-!
# `ArbReth.Proofs.ArbosState.Sample`: a hash without collisions on the state

The theorems about the state assume that the strings it hashes for the slots in use do not
collide with others. Here no two strings of the state collide, whatever accounts are in use.
`spaceDigest` keeps the length of a string, a tag of nine bytes and a payload of twenty bytes.
The tag lists the ids on the way to a space, and the payload is the id of a record or of an
element, or the bytes of a page. No space has both, so the payload of a page of a record is
that of the record (`Space.eq_of_code`, `sampleRoot_noCollisions`).
-/

set_option autoImplicit false

namespace ArbReth

open ArbReth.BigEndian

/-- An address has twenty bytes. -/
theorem Address.length_asSlice (a : Address) : a.asSlice.length = 20 := length_beBytes _ _

/-- A 64-bit word has eight bytes. -/
theorem U64.length_toBeBytes (i : U64) : i.toBeBytes.length = 8 := length_beBytes _ _

namespace ArbosState

/-! ### The digest -/

/-- The ids on the way to the space that the string names. A page has the tag of its space. -/
def spaceTag (x : Bytes) : Bytes :=
  match x.length with
  | 1 => (x.headD 0 + 1) :: List.replicate 8 0
  | 33 => ((x.drop 32).headD 0 + 1) :: (x.drop 1).take 8
  | 40 => 201 :: (x.drop 1).take 8
  | 52 => 200 :: (x.drop 1).take 8
  | 63 => (x.drop 1).take 9
  | _ => List.replicate 9 0

/-- The id of an element or of a record, or the bytes of a page over that of its space. -/
def spacePayload (x : Bytes) : Bytes :=
  match x.length with
  | 40 => List.replicate 12 0 ++ x.drop 32
  | 52 => x.drop 32
  | 63 => List.zipWith (· ||| ·) ((x.drop 10).take 20) (x.drop 43)
  | _ => List.replicate 20 0

/-- Every tag has nine bytes. -/
theorem length_spaceTag (x : Bytes) : (spaceTag x).length = 9 := by
  unfold spaceTag
  split <;> simp <;> omega

/-- Every payload has twenty bytes. -/
theorem length_spacePayload (x : Bytes) : (spacePayload x).length = 20 := by
  unfold spacePayload
  split <;> simp <;> omega

/-- The length, the tag and the payload of a string. -/
def spaceDigest (x : Bytes) : Bytes :=
  UInt8.ofNat x.length :: (spaceTag x ++ (spacePayload x ++ [0, 0]))

/-- The digest has the length of a hash. -/
theorem length_spaceDigest (x : Bytes) : (spaceDigest x).length = 32 := by
  simp [spaceDigest, length_spaceTag, length_spacePayload]

/-- The digest as a hash function. -/
@[reducible] def spaceHash : Keccak where
  keccak256 x := ⟨(spaceDigest x).toArray, by simp [length_spaceDigest]⟩

/-- The first 31 bytes of the digest determine all that it keeps. -/
theorem spaceDigest_take_inj {x y : Bytes}
    (h : (spaceDigest x).take 31 = (spaceDigest y).take 31) :
    UInt8.ofNat x.length = UInt8.ofNat y.length ∧ spaceTag x = spaceTag y
      ∧ spacePayload x = spacePayload y := by
  have htake : ∀ z : Bytes, (spaceDigest z).take 31
      = UInt8.ofNat z.length :: (spaceTag z ++ (spacePayload z ++ [0])) := by
    intro z
    have hsplit : spaceDigest z
        = (UInt8.ofNat z.length :: (spaceTag z ++ (spacePayload z ++ [0]))) ++ [0] := by
      simp [spaceDigest]
    rw [hsplit]
    exact List.take_left' (by simp [length_spaceTag, length_spacePayload])
  rw [htake, htake] at h
  obtain ⟨hlen, hrest⟩ := List.cons.inj h
  obtain ⟨htag, hpayload⟩ := List.append_inj hrest
    ((length_spaceTag x).trans (length_spaceTag y).symm)
  exact ⟨hlen, htag, List.append_cancel_right hpayload⟩

/-! ### The spaces -/

/-- The spaces of the state below the root. -/
inductive Space where
  | l1
  | table
  | posters
  | index
  | info
  | l2
  | gas
  | multiGas
  | fees
  | record (p : Address)
  | element (multi : Bool) (i : U64)

namespace Space

/-- The tag of the space. -/
def tag : Space → Bytes
  | .l1 => [1, 0, 0, 0, 0, 0, 0, 0, 0]
  | .table => [1, 1, 0, 0, 0, 0, 0, 0, 0]
  | .posters => [1, 1, 1, 0, 0, 0, 0, 0, 0]
  | .index => [1, 1, 1, 1, 0, 0, 0, 0, 0]
  | .info => [2, 1, 1, 0, 0, 0, 0, 0, 0]
  | .l2 => [2, 0, 0, 0, 0, 0, 0, 0, 0]
  | .gas => [1, 2, 0, 0, 0, 0, 0, 0, 0]
  | .multiGas => [2, 2, 0, 0, 0, 0, 0, 0, 0]
  | .fees => [3, 2, 0, 0, 0, 0, 0, 0, 0]
  | .record _ => [200, 2, 1, 1, 0, 0, 0, 0, 0]
  | .element multi _ => [201, if multi then 2 else 1, 2, 0, 0, 0, 0, 0, 0]

/-- The payload of the space. -/
def payload : Space → Bytes
  | .record p => p.asSlice
  | .element _ i => List.replicate 12 0 ++ i.toBeBytes
  | _ => List.replicate 20 0

/-- The length of the string that names the space. -/
def size : Space → UInt8
  | .l1 => 1
  | .l2 => 1
  | .record _ => 52
  | .element _ _ => 40
  | _ => 33

/-- The storage key of the space. -/
def key (s : Space) : Bytes := s.size :: (s.tag ++ (s.payload ++ [0, 0]))

/-- The string that names the space. -/
def name : Space → Bytes
  | .l1 => [0]
  | .table => l1.key ++ [0]
  | .posters => table.key ++ [0]
  | .index => posters.key ++ [0]
  | .info => table.key ++ [1]
  | .l2 => [1]
  | .gas => l2.key ++ [0]
  | .multiGas => l2.key ++ [1]
  | .fees => l2.key ++ [2]
  | .record p => info.key ++ p.asSlice
  | .element multi i => (if multi then multiGas.key else gas.key) ++ i.toBeBytes

/-- The tag of a space has nine bytes. -/
theorem length_tag (s : Space) : s.tag.length = 9 := by
  cases s <;> rfl

/-- The payload of a space has twenty bytes. -/
theorem length_payload (s : Space) : s.payload.length = 20 := by
  cases s with
  | record p => exact Address.length_asSlice p
  | element multi i => simp [payload, U64.length_toBeBytes]
  | _ => rfl

/-- A storage key has the length of a hash. -/
theorem length_key (s : Space) : s.key.length = 32 := by
  simp [key, length_tag, length_payload]

/-- The tag and the payload name the space. -/
theorem eq_of_code {s s' : Space} (htag : s.tag = s'.tag) (hpayload : s.payload = s'.payload) :
    s = s' := by
  cases s <;> cases s' <;> simp [tag] at htag <;> try rfl
  case record.record p p' => rw [Address.asSlice_inj.mp hpayload]
  case element.element multi i multi' i' =>
      have hi : i = i' := U64.toBeBytes_injective (List.append_cancel_left hpayload)
      cases multi <;> cases multi' <;> simp at htag <;> rw [hi]

/-- The space is not a record or an element. -/
def Plain : Space → Prop
  | .record _ => False
  | .element _ _ => False
  | _ => True

/-- The payload of a plain space is left to its pages. -/
theorem Plain.payload_eq {s : Space} (h : s.Plain) : s.payload = List.replicate 20 0 := by
  cases s <;> first | rfl | exact h.elim

/-- The tag names a plain space. -/
theorem Plain.eq_of_tag {s s' : Space} (h : s.Plain) (htag : s.tag = s'.tag) : s = s' := by
  cases s <;> cases s' <;> first | rfl | exact h.elim | simp [tag] at htag

/-- The digest of the string that names a space. -/
theorem digest_name (s : Space) : spaceDigest s.name = s.key := by
  cases s with
  | record p =>
      have hlen : (info.key ++ p.asSlice).length = 52 := by
        simp [length_key, Address.length_asSlice]
      simp only [spaceDigest, spaceTag, spacePayload, name, hlen, List.drop_left' (length_key info)]
      rfl
  | element multi i =>
      have hlen (s : Space) : (s.key ++ i.toBeBytes).length = 40 := by
        simp [length_key, U64.length_toBeBytes]
      cases multi with
      | false =>
          show spaceDigest (gas.key ++ i.toBeBytes) = _
          simp only [spaceDigest, spaceTag, spacePayload, hlen, List.drop_left' (length_key gas)]
          rfl
      | true =>
          show spaceDigest (multiGas.key ++ i.toBeBytes) = _
          simp only [spaceDigest, spaceTag, spacePayload, hlen,
            List.drop_left' (length_key multiGas)]
          rfl
  | _ => decide

end Space

/-! ### The hashed strings -/

/-- The first 31 bytes of a small word. -/
structure IsPage (page : Bytes) : Prop where
  length_eq : page.length = 31
  take_eq : page.take 11 = List.replicate 11 0

/-- The strings that are hashed to reach the slots of the state. -/
inductive Hashed : Bytes → Prop where
  | name (s : Space) : Hashed s.name
  | page (s : Space) (bytes : Bytes) (hbytes : IsPage bytes)
      (hplain : s.Plain ∨ bytes = List.replicate 31 0) :
      Hashed (s.key ++ bytes)
  | rootPage : Hashed (List.replicate 31 0)

/-- Zeros in front change nothing in a disjunction of bytes. -/
theorem zipWith_or_zeros_left (l : Bytes) :
    List.zipWith (· ||| ·) (List.replicate l.length 0) l = l := by
  induction l with
  | nil => rfl
  | cons b l ih =>
      rw [List.length_cons, List.replicate_succ, List.zipWith_cons_cons, ih]
      simp

/-- Zeros behind change nothing in a disjunction of bytes. -/
theorem zipWith_or_zeros_right (l : Bytes) :
    List.zipWith (· ||| ·) l (List.replicate l.length 0) = l := by
  induction l with
  | nil => rfl
  | cons b l ih =>
      rw [List.length_cons, List.replicate_succ, List.zipWith_cons_cons, ih]
      simp

section
variable {bytes : Bytes} (s : Space) (h : IsPage bytes)
include h

/-- A page has the tag of its space. -/
theorem spaceTag_page : spaceTag (s.key ++ bytes) = s.tag := by
  have hlen : (s.key ++ bytes).length = 63 := by simp [Space.length_key, h.length_eq]
  have hdrop : (s.key ++ bytes).drop 1 = s.tag ++ ((s.payload ++ [0, 0]) ++ bytes) := by
    simp [Space.key]
  simp only [spaceTag, hlen, hdrop]
  exact List.take_left' s.length_tag

/-- The payload of a page lies over that of its space. -/
theorem spacePayload_page :
    spacePayload (s.key ++ bytes) = List.zipWith (· ||| ·) s.payload (bytes.drop 11) := by
  have hlen : (s.key ++ bytes).length = 63 := by simp [Space.length_key, h.length_eq]
  have hmid : (s.key ++ bytes).drop 10 = s.payload ++ ([0, 0] ++ bytes) := by
    have hkey : s.key ++ bytes = (s.size :: s.tag) ++ (s.payload ++ ([0, 0] ++ bytes)) := by
      simp [Space.key]
    rw [hkey]
    exact List.drop_left' (by simp [Space.length_tag])
  have hend : (s.key ++ bytes).drop 43 = bytes.drop 11 := by
    rw [List.drop_append, s.length_key]
    simp [Space.length_key]
  simp only [spacePayload, hlen, hmid, hend]
  rw [List.take_left' s.length_payload]

end

/-- A page is its last twenty bytes. -/
theorem IsPage.ext {bytes bytes' : Bytes} (h : IsPage bytes) (h' : IsPage bytes')
    (hdrop : bytes.drop 11 = bytes'.drop 11) : bytes = bytes' := by
  rw [← List.take_append_drop 11 bytes, ← List.take_append_drop 11 bytes', h.take_eq, h'.take_eq,
    hdrop]

/-- The pages of one plain space. -/
theorem page_eq_of_plain {s : Space} {bytes bytes' : Bytes} (h : IsPage bytes) (h' : IsPage bytes')
    (hs : s.Plain) (hpayload : List.zipWith (· ||| ·) s.payload (bytes.drop 11)
      = List.zipWith (· ||| ·) s.payload (bytes'.drop 11)) : bytes = bytes' := by
  have hzeros : ∀ b : Bytes, IsPage b →
      List.zipWith (· ||| ·) s.payload (b.drop 11) = b.drop 11 := by
    intro b hb
    have hlen : (b.drop 11).length = 20 := by simp [hb.length_eq]
    rw [hs.payload_eq, ← hlen]
    exact zipWith_or_zeros_left _
  rw [hzeros bytes h, hzeros bytes' h'] at hpayload
  exact h.ext h' hpayload

/-- Two pages with one code. -/
theorem page_eq {s s' : Space} {bytes bytes' : Bytes} (h : IsPage bytes) (h' : IsPage bytes')
    (hplain : s.Plain ∨ bytes = List.replicate 31 0)
    (hplain' : s'.Plain ∨ bytes' = List.replicate 31 0) (htag : s.tag = s'.tag)
    (hpayload : List.zipWith (· ||| ·) s.payload (bytes.drop 11)
      = List.zipWith (· ||| ·) s'.payload (bytes'.drop 11)) :
    s.key ++ bytes = s'.key ++ bytes' := by
  by_cases hs : s.Plain
  · obtain rfl := hs.eq_of_tag htag
    rw [page_eq_of_plain h h' hs hpayload]
  by_cases hs' : s'.Plain
  · obtain rfl := hs'.eq_of_tag htag.symm
    rw [page_eq_of_plain h h' hs' hpayload]
  · -- the pages of records and elements are zeros
    obtain rfl := hplain.resolve_left hs
    obtain rfl := hplain'.resolve_left hs'
    have hzeros : ∀ t : Space,
        List.zipWith (· ||| ·) t.payload ((List.replicate 31 0).drop 11) = t.payload := by
      intro t
      have hdrop : (List.replicate 31 (0 : UInt8)).drop 11
          = List.replicate t.payload.length 0 := by
        rw [t.length_payload]
        rfl
      rw [hdrop]
      exact zipWith_or_zeros_right _
    rw [hzeros, hzeros] at hpayload
    rw [Space.eq_of_code htag hpayload]

/-- The length of a string that names a space. -/
theorem ofNat_length_name (s : Space) : UInt8.ofNat s.name.length = s.size := by
  have hhead := congrArg (fun x : Bytes => x.headD 0) s.digest_name
  exact hhead

/-- The strings do not collide. -/
theorem Hashed.eq_of_digest {x y : Bytes} (hx : Hashed x) (hy : Hashed y)
    (h : (spaceDigest x).take 31 = (spaceDigest y).take 31) : x = y := by
  obtain ⟨hlen, htag, hpayload⟩ := spaceDigest_take_inj h
  have hname : ∀ s : Space, spaceTag s.name = s.tag ∧ spacePayload s.name = s.payload := by
    intro s
    have hdigest := (List.cons.inj s.digest_name).2
    obtain ⟨ht, hp⟩ := List.append_inj hdigest ((length_spaceTag _).trans s.length_tag.symm)
    exact ⟨ht, List.append_cancel_right hp⟩
  have hpage : ∀ (s : Space) (bytes : Bytes), IsPage bytes → (s.key ++ bytes).length = 63 := by
    intro s bytes hbytes
    simp [Space.length_key, hbytes.length_eq]
  have hsize : ∀ s : Space, s.size ≠ 63 ∧ s.size ≠ 31 := by
    intro s
    cases s <;> simp [Space.size]
  -- the length tells a name, a page of a space and a page of the root apart
  cases hx with
  | name s =>
      rw [ofNat_length_name] at hlen
      cases hy with
      | name s' =>
          rw [(hname s).1, (hname s').1] at htag
          rw [(hname s).2, (hname s').2] at hpayload
          rw [Space.eq_of_code htag hpayload]
      | page s' bytes' hbytes' _ =>
          rw [hpage s' bytes' hbytes'] at hlen
          exact absurd hlen (hsize s).1
      | rootPage => exact absurd hlen (hsize s).2
  | page s bytes hbytes hplain =>
      rw [hpage s bytes hbytes] at hlen
      cases hy with
      | name s' =>
          rw [ofNat_length_name] at hlen
          exact absurd hlen.symm (hsize s').1
      | page s' bytes' hbytes' hplain' =>
          rw [spaceTag_page s hbytes, spaceTag_page s' hbytes'] at htag
          rw [spacePayload_page s hbytes, spacePayload_page s' hbytes'] at hpayload
          exact page_eq hbytes hbytes' hplain hplain' htag hpayload
      | rootPage => exact absurd hlen (by decide)
  | rootPage =>
      cases hy with
      | name s' =>
          rw [ofNat_length_name] at hlen
          exact absurd hlen.symm (hsize s').2
      | page s' bytes' hbytes' _ =>
          rw [hpage s' bytes' hbytes'] at hlen
          exact absurd hlen (by decide)
      | rootPage => rfl

/-! ### The strings of a slot -/

/-- The page of a word of 160 bits. -/
theorem isPage_take {k : StorageKey} (hk : k.toNat < 2 ^ 160) : IsPage (k.toBeBytes.take 31) where
  length_eq := by simp
  take_eq := by
    have hsplit := beBytes_add 11 21 k.toNat
    have hzero : beBytes 11 0 = List.replicate 11 0 := by decide
    rw [List.take_take, U256.toBeBytes, hsplit, Nat.div_eq_of_lt (lt_trans hk (by norm_num)), hzero]
    exact List.take_left' (by simp)

/-- The page of a small number is zero. -/
theorem take_toBeBytes_small {i : U64} (hi : i.toNat < 12) :
    (U256.ofU64 i).toBeBytes.take 31 = List.replicate 31 0 := by
  rw [L2Pricing.toBeBytes_small hi]
  exact List.take_left' (by simp)

section
attribute [local instance] spaceHash

/-- The string of a word of 160 bits in a plain space. -/
theorem hashedBy_page {t : Storage} {s : Space} (ht : t.storageKey = s.key) {key : StorageKey}
    (hkey : key.toNat < 2 ^ 160) (hplain : s.Plain) : ∀ x ∈ t.hashedBy [] key, Hashed x := by
  intro x hx
  obtain rfl := List.mem_singleton.mp hx
  rw [ht]
  exact .page s _ (isPage_take hkey) (.inl hplain)

/-- The string of a small number, in any space. -/
theorem hashedBy_zeroPage {t : Storage} {s : Space} (ht : t.storageKey = s.key) {i : U64}
    (hi : i.toNat < 12) : ∀ x ∈ t.hashedBy [] (U256.ofU64 i), Hashed x := by
  intro x hx
  obtain rfl := List.mem_singleton.mp hx
  rw [ht]
  exact .page s _ (isPage_take (toNat_ofU64_lt i)) (.inr (take_toBeBytes_small hi))

/-- One call on the way to a space. -/
theorem hashedBy_cons {t : Storage} {c : OpenCall} {path : List OpenCall} {key : StorageKey}
    (s : Space) (hname : t.storageKey ++ c.id = s.name)
    (hrest : ∀ u : Storage, u.storageKey = s.key → ∀ x ∈ u.hashedBy path key, Hashed x) :
    ∀ x ∈ t.hashedBy (c :: path) key, Hashed x := by
  intro x hx
  rcases List.mem_cons.mp hx with rfl | hx
  · rw [hname]
    exact .name s
  · refine hrest _ ?_ x hx
    rw [Storage.storageKey_openCall, hname]
    exact s.digest_name

/-- Every string that the state hashes for a slot is one of `Hashed`. -/
theorem hashed_of_mem (k : ArbosKey) : ∀ x ∈ hashed sampleRoot k, Hashed x := by
  have hroot : ∀ i : U64, i.toNat < 12 → ∀ x ∈ sampleRoot.hashedBy [] (U256.ofU64 i), Hashed x := by
    intro i hi x hx
    obtain rfl := List.mem_singleton.mp hx
    rw [take_toBeBytes_small hi]
    exact .rootPage
  cases k with
  | upgradeVersion => exact hroot _ (by decide)
  | upgradeTimestamp => exact hroot _ (by decide)
  | networkFeeAccount => exact hroot _ (by decide)
  | l1Pricing k =>
      refine hashedBy_cons .l1 rfl fun u hu => ?_
      rcases k with s | _ | ⟨i | a⟩ | p | p
      · exact hashedBy_page hu (toNat_ofU64_lt _) trivial
      · refine hashedBy_cons .table (congrArg (· ++ _) hu) fun u hu => ?_
        exact hashedBy_page hu (toNat_ofU64_lt _) trivial
      · refine hashedBy_cons .table (congrArg (· ++ _) hu) fun u hu => ?_
        refine hashedBy_cons .posters (congrArg (· ++ _) hu) fun u hu => ?_
        exact hashedBy_page hu (toNat_ofU64_lt _) trivial
      · refine hashedBy_cons .table (congrArg (· ++ _) hu) fun u hu => ?_
        refine hashedBy_cons .posters (congrArg (· ++ _) hu) fun u hu => ?_
        refine hashedBy_cons .index (congrArg (· ++ _) hu) fun u hu => ?_
        exact hashedBy_page hu (toNat_intoWord_lt _) trivial
      all_goals
        refine hashedBy_cons .table (congrArg (· ++ _) hu) fun u hu => ?_
        refine hashedBy_cons .info (congrArg (· ++ _) hu) fun u hu => ?_
        refine hashedBy_cons (.record p) (congrArg (· ++ _) hu) fun u hu => ?_
        exact hashedBy_zeroPage hu (by decide)
  | l2Pricing k =>
      refine hashedBy_cons .l2 rfl fun u hu => ?_
      cases k with
      | scalar s => exact hashedBy_page hu (toNat_ofU64_lt _) trivial
      | gasLength =>
          refine hashedBy_cons .gas (congrArg (· ++ _) hu) fun u hu => ?_
          exact hashedBy_page hu (toNat_ofU64_lt _) trivial
      | gas i f =>
          refine hashedBy_cons .gas (congrArg (· ++ _) hu) fun u hu => ?_
          refine hashedBy_cons (.element false i) (congrArg (· ++ _) hu) fun u hu => ?_
          exact hashedBy_zeroPage hu (L2Pricing.pageOffset_lt (.gas i f))
      | multiGasLength =>
          refine hashedBy_cons .multiGas (congrArg (· ++ _) hu) fun u hu => ?_
          exact hashedBy_page hu (toNat_ofU64_lt _) trivial
      | multiGas i f =>
          refine hashedBy_cons .multiGas (congrArg (· ++ _) hu) fun u hu => ?_
          refine hashedBy_cons (.element true i) (congrArg (· ++ _) hu) fun u hu => ?_
          exact hashedBy_zeroPage hu (L2Pricing.pageOffset_lt (.multiGas i f))
  | multiGasFees k =>
      refine hashedBy_cons .l2 rfl fun u hu => ?_
      refine hashedBy_cons .fees (congrArg (· ++ _) hu) fun u hu => ?_
      exact hashedBy_page hu (toNat_ofU64_lt _) trivial

/-- No two strings of the state collide under this hash, for any set of accounts in use. -/
theorem sampleRoot_noCollisions (A : Set Address) : NoCollisions sampleRoot A := by
  intro k k' _ x hx y hy h
  have hmem : ∀ z ∈ hashed sampleRoot k ++ hashed sampleRoot k', Hashed z := by
    intro z hz
    rcases List.mem_append.mp hz with hz | hz
    · exact hashed_of_mem k z hz
    · exact hashed_of_mem k' z hz
  exact (hmem x hx).eq_of_digest (hmem y hy) h

end

end ArbosState

end ArbReth
