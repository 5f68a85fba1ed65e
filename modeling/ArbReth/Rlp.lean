import ArbReth.BigEndian

/-!
# `ArbReth.Rlp`: the recursive length prefix

An item is a byte string or a list of items. A single byte below `0x80` is its own encoding.
Any other string, and every list, is a header and a payload. The header of a payload of
fewer than 56 bytes is one byte. The header of a longer one gives the number of the bytes of
the length, and the length without leading zeros.

`decode` reads one item and accepts no bytes after it. It refuses a header that is longer than
necessary, so an item has one encoding. `decode_encode` is the round trip, and `encode_decode`
says that nothing else is accepted.

`decodeAll` reads a sequence of items. Its argument `fuel` bounds the number of the items and
their depth together, and the number of the bytes is always enough of it.
-/

set_option autoImplicit false

namespace ArbReth.Rlp

open ArbReth.BigEndian

/-- A byte string or a list of items. -/
inductive Item where
  | str (bytes : List UInt8)
  | list (items : List Item)

/-! ### Encoding -/

/-- The length of a long payload, with at most eight bytes. -/
def sizeBytes (length : Nat) : List UInt8 := minimalBytes 8 length

/-- The header of a payload. `offset` is `0x80` for a string and `0xc0` for a list. -/
def header (offset length : Nat) : List UInt8 :=
  if length < 56 then [UInt8.ofNat (offset + length)]
  else UInt8.ofNat (offset + 55 + (sizeBytes length).length) :: sizeBytes length

/-- The byte string is its own encoding. -/
def IsPlain (bytes : List UInt8) : Prop := bytes.length = 1 ∧ beValue bytes < 0x80

instance (bytes : List UInt8) : Decidable (IsPlain bytes) := inferInstanceAs (Decidable (_ ∧ _))

/-- The encoding of a byte string. -/
def encodeString (bytes : List UInt8) : List UInt8 :=
  if IsPlain bytes then bytes else header 0x80 bytes.length ++ bytes

/-- The encoding of a list of items with this payload. -/
def encodeList (payload : List UInt8) : List UInt8 := header 0xc0 payload.length ++ payload

mutual

/-- The encoding of an item. -/
def encode : Item → List UInt8
  | .str bytes => encodeString bytes
  | .list items => encodeList (encodeAll items)

/-- The encodings of some items, one after another. -/
def encodeAll : List Item → List UInt8
  | [] => []
  | item :: items => encode item ++ encodeAll items

end

/-- The items made from a list are encoded one after another. -/
theorem encodeAll_map {ι : Type} (f : ι → Item) (l : List ι) :
    encodeAll (l.map f) = l.flatMap fun i => encode (f i) := by
  induction l with
  | nil => rfl
  | cons i l ih => rw [List.map_cons, encodeAll, ih, List.flatMap_cons]

/-! ### Decoding -/

/-- The next `n` bytes and the rest. -/
def readBytes (n : Nat) (bytes : List UInt8) : Option (List UInt8 × List UInt8) :=
  if n ≤ bytes.length then some (bytes.take n, bytes.drop n) else none

/-- A payload after its length, which has `k` bytes. A length with a leading zero, or one for
which a short header would do, is refused. -/
def readLong (k : Nat) (bytes : List UInt8) : Option (List UInt8 × List UInt8) := do
  let (size, rest) ← readBytes k bytes
  if size.head? = some 0 ∨ beValue size < 56 then none
  else readBytes (beValue size) rest

/-- The first item of the bytes: whether it is a list, its payload and the rest. -/
def readItem : List UInt8 → Option (Bool × List UInt8 × List UInt8)
  | [] => none
  | b :: bytes =>
      if b.toNat < 0x80 then some (false, [b], bytes)
      else if b.toNat < 0xb8 then do
        let (payload, rest) ← readBytes (b.toNat - 0x80) bytes
        if IsPlain payload then none else some (false, payload, rest)
      else if b.toNat < 0xc0 then (readLong (b.toNat - 0xb7) bytes).map (false, ·)
      else if b.toNat < 0xf8 then (readBytes (b.toNat - 0xc0) bytes).map (true, ·)
      else (readLong (b.toNat - 0xf7) bytes).map (true, ·)

/-- The items that the bytes encode one after another. -/
def decodeAll : (fuel : Nat) → List UInt8 → Option (List Item)
  | 0, _ => none
  | _ + 1, [] => some []
  | fuel + 1, b :: bytes => do
      let (isList, payload, rest) ← readItem (b :: bytes)
      let item ← if isList then (decodeAll fuel payload).map .list else some (.str payload)
      let items ← decodeAll fuel rest
      some (item :: items)

/-- The item that the bytes encode, with no bytes after it. -/
def decode (bytes : List UInt8) : Option Item :=
  match decodeAll (bytes.length + 1) bytes with
  | some [item] => some item
  | _ => none

/-! ### The parts of the decoder -/

/-- Reading a number of bytes takes them off the front. -/
theorem readBytes_append (bytes rest : List UInt8) :
    readBytes bytes.length (bytes ++ rest) = some (bytes, rest) := by
  simp [readBytes]

/-- The length of a long payload is read back. -/
theorem readLong_append {payload : List UInt8} (hlong : 56 ≤ payload.length)
    (hlt : payload.length < 2 ^ 64) (rest : List UInt8) :
    readLong (sizeBytes payload.length).length (sizeBytes payload.length ++ payload ++ rest)
      = some (payload, rest) := by
  have hvalue : beValue (sizeBytes payload.length) = payload.length :=
    beValue_minimalBytes (show payload.length < 256 ^ 8 from hlt)
  have hhead : (sizeBytes payload.length).head? ≠ some 0 := head?_minimalBytes 8 _
  unfold readLong
  rw [List.append_assoc, readBytes_append]
  simp only [Option.bind_eq_bind, Option.bind_some, hvalue]
  rw [if_neg (by rintro (h | h); exacts [hhead h, by omega]), readBytes_append]

/-- The first byte of a long header. -/
theorem length_sizeBytes {length : Nat} (hlong : 56 ≤ length) (hlt : length < 2 ^ 64) :
    1 ≤ (sizeBytes length).length ∧ (sizeBytes length).length ≤ 8 := by
  have hne := minimalBytes_ne_nil (n := 8) (v := length) (by omega) hlt
  exact ⟨List.length_pos_iff.mpr hne, length_minimalBytes_le 8 length⟩

/-- An encoded string is read back, with the rest behind it. -/
theorem readItem_encodeString {bytes : List UInt8} (hlt : bytes.length < 2 ^ 64)
    (rest : List UInt8) :
    readItem (encodeString bytes ++ rest) = some (false, bytes, rest) := by
  unfold encodeString
  by_cases hplain : IsPlain bytes
  · rw [if_pos hplain]
    obtain ⟨hone, hvalue⟩ := hplain
    obtain ⟨b, rfl⟩ := List.length_eq_one_iff.mp hone
    rw [beValue_cons] at hvalue
    simp at hvalue
    simp [readItem, hvalue]
  rw [if_neg hplain, header]
  by_cases hshort : bytes.length < 56
  · rw [if_pos hshort]
    have hbyte : (UInt8.ofNat (0x80 + bytes.length)).toNat = 0x80 + bytes.length := by
      rw [UInt8.toNat_ofNat', Nat.mod_eq_of_lt (by omega)]
    simp only [List.cons_append, List.nil_append, readItem, hbyte]
    rw [if_neg (by omega), if_pos (by omega), Nat.add_sub_cancel_left, readBytes_append]
    simp [hplain]
  · rw [if_neg hshort]
    obtain ⟨hpos, hle⟩ := length_sizeBytes (not_lt.mp hshort) hlt
    have hbyte : (UInt8.ofNat (0x80 + 55 + (sizeBytes bytes.length).length)).toNat
        = 0xb7 + (sizeBytes bytes.length).length := by
      rw [UInt8.toNat_ofNat', Nat.mod_eq_of_lt (by omega)]
    simp only [List.cons_append, readItem, hbyte]
    rw [if_neg (by omega), if_neg (by omega), if_pos (by omega), Nat.add_sub_cancel_left,
      readLong_append (not_lt.mp hshort) hlt]
    rfl

/-- An encoded list is read back as its payload, with the rest behind it. -/
theorem readItem_encodeList {payload : List UInt8} (hlt : payload.length < 2 ^ 64)
    (rest : List UInt8) :
    readItem (encodeList payload ++ rest) = some (true, payload, rest) := by
  rw [encodeList, header]
  by_cases hshort : payload.length < 56
  · rw [if_pos hshort]
    have hbyte : (UInt8.ofNat (0xc0 + payload.length)).toNat = 0xc0 + payload.length := by
      rw [UInt8.toNat_ofNat', Nat.mod_eq_of_lt (by omega)]
    simp only [List.cons_append, List.nil_append, readItem, hbyte]
    rw [if_neg (by omega), if_neg (by omega), if_neg (by omega), if_pos (by omega),
      Nat.add_sub_cancel_left, readBytes_append]
    rfl
  · rw [if_neg hshort]
    obtain ⟨hpos, hle⟩ := length_sizeBytes (not_lt.mp hshort) hlt
    have hbyte : (UInt8.ofNat (0xc0 + 55 + (sizeBytes payload.length).length)).toNat
        = 0xf7 + (sizeBytes payload.length).length := by
      rw [UInt8.toNat_ofNat', Nat.mod_eq_of_lt (by omega)]
    simp only [List.cons_append, readItem, hbyte]
    rw [if_neg (by omega), if_neg (by omega), if_neg (by omega), if_neg (by omega),
      Nat.add_sub_cancel_left, readLong_append (not_lt.mp hshort) hlt]
    rfl

/-! ### The round trip -/

/-- A header has at least one byte. -/
theorem header_ne_nil (offset length : Nat) : header offset length ≠ [] := by
  unfold header
  split <;> simp

/-- The encoding of a string has at least one byte, also for the empty string. -/
theorem encodeString_ne_nil (bytes : List UInt8) : encodeString bytes ≠ [] := by
  unfold encodeString
  split
  · rename_i hplain
    intro h
    rw [h] at hplain
    exact absurd hplain.1 (by simp)
  · simp [header_ne_nil]

/-- The encoding of a list is longer than its payload. -/
theorem length_lt_encodeList (payload : List UInt8) :
    payload.length < (encodeList payload).length := by
  have h := List.length_pos_iff.mpr (header_ne_nil 0xc0 payload.length)
  rw [encodeList, List.length_append]
  omega

/-- The encoding of a string is no shorter than the string. -/
theorem length_le_encodeString (bytes : List UInt8) :
    bytes.length ≤ (encodeString bytes).length := by
  unfold encodeString
  split <;> simp

/-- One round of the decoder, on bytes that are not empty. -/
theorem decodeAll_succ {bytes payload rest : List UInt8} {isList : Bool}
    (h : readItem bytes = some (isList, payload, rest)) (fuel : Nat) :
    decodeAll (fuel + 1) bytes
      = (if isList then (decodeAll fuel payload).map .list else some (.str payload)).bind
          fun item => (decodeAll fuel rest).bind fun items => some (item :: items) := by
  cases bytes with
  | nil => cases h
  | cons b bytes =>
      rw [decodeAll, h]
      cases isList <;> rfl

/-- A sequence of items is read back, when its bytes have a length. -/
theorem decodeAll_encodeAll (fuel : Nat) (items : List Item)
    (hlt : (encodeAll items).length < 2 ^ 64) (hfuel : (encodeAll items).length < fuel) :
    decodeAll fuel (encodeAll items) = some items := by
  induction fuel generalizing items with
  | zero => omega
  | succ fuel ih =>
      cases items with
      | nil => rfl
      | cons item items =>
          rw [encodeAll] at hlt hfuel ⊢
          rw [List.length_append] at hlt hfuel
          cases item with
          | str bytes =>
              rw [encode] at hlt hfuel ⊢
              have hbytes := length_le_encodeString bytes
              have hpos := List.length_pos_iff.mpr (encodeString_ne_nil bytes)
              rw [decodeAll_succ (readItem_encodeString (by omega) _),
                ih items (by omega) (by omega)]
              rfl
          | list inner =>
              rw [encode] at hlt hfuel ⊢
              have hpayload := length_lt_encodeList (encodeAll inner)
              -- the payload is shorter than the item, and so is what comes after it
              rw [decodeAll_succ (readItem_encodeList (by omega) _), ih inner (by omega) (by omega),
                ih items (by omega) (by omega)]
              rfl

/-- An item is read back. -/
theorem decode_encode {item : Item} (hlt : (encode item).length < 2 ^ 64) :
    decode (encode item) = some item := by
  have hall : encodeAll [item] = encode item := by simp [encodeAll]
  have h := decodeAll_encodeAll ((encode item).length + 1) [item] (by rwa [hall])
    (by rw [hall]; omega)
  rw [hall] at h
  rw [decode, h]

/-! ### Only encodings are accepted -/

/-- What is read is the front of the input, of the length that was asked for. -/
theorem readBytes_sound {n : Nat} {bytes payload rest : List UInt8}
    (h : readBytes n bytes = some (payload, rest)) :
    bytes = payload ++ rest ∧ payload.length = n := by
  unfold readBytes at h
  split at h
  · rename_i hle
    cases h
    exact ⟨(List.take_append_drop n bytes).symm, by simpa using hle⟩
  · cases h

/-- The length that was read is the shortest one of the payload. -/
theorem readLong_sound {k : Nat} (hk : k ≤ 8) {bytes payload rest : List UInt8}
    (h : readLong k bytes = some (payload, rest)) :
    56 ≤ payload.length ∧ (sizeBytes payload.length).length = k
      ∧ bytes = sizeBytes payload.length ++ payload ++ rest := by
  unfold readLong at h
  simp only [Option.bind_eq_bind, Option.bind_eq_some_iff] at h
  obtain ⟨⟨size, rest'⟩, hsize, h⟩ := h
  obtain ⟨rfl, hlen⟩ := readBytes_sound hsize
  split at h
  · cases h
  · rename_i hshort
    rw [not_or, not_lt] at hshort
    obtain ⟨rfl, hpayload⟩ := readBytes_sound h
    have hminimal : sizeBytes (beValue size) = size :=
      minimalBytes_beValue (hlen ▸ hk) hshort.1
    rw [hpayload, hminimal]
    exact ⟨hshort.2, hlen, by rw [List.append_assoc]⟩

/-- The byte of a number that is read off it. -/
theorem eq_ofNat {b : UInt8} {n : Nat} (h : b.toNat = n) : b = UInt8.ofNat n := by
  rw [← h, UInt8.ofNat_toNat]

/-- What is read off the bytes as an item is the encoding of the item. -/
theorem readItem_sound {bytes payload rest : List UInt8} {isList : Bool}
    (h : readItem bytes = some (isList, payload, rest)) :
    bytes = (if isList then encodeList payload else encodeString payload) ++ rest := by
  cases bytes with
  | nil => cases h
  | cons b bytes =>
      simp only [readItem] at h
      split at h
      · -- a single byte
        rename_i hplain
        cases h
        have hone : IsPlain [b] := ⟨rfl, by simpa [beValue_cons] using hplain⟩
        simp [encodeString, hone]
      split at h
      · -- a short string
        simp only [Option.bind_eq_bind, Option.bind_eq_some_iff] at h
        obtain ⟨⟨payload', rest'⟩, hread, h⟩ := h
        obtain ⟨rfl, hlen⟩ := readBytes_sound hread
        split at h
        · cases h
        · rename_i hplain
          cases h
          have hb : b = UInt8.ofNat (0x80 + payload'.length) := eq_ofNat (by omega)
          simp [encodeString, hplain, header, show payload'.length < 56 by omega, hb]
      split at h
      · -- a long string
        rw [Option.map_eq_some_iff] at h
        obtain ⟨⟨payload', rest'⟩, hread, h⟩ := h
        cases h
        obtain ⟨hlong, hlen, rfl⟩ := readLong_sound (by omega) hread
        have hb : b = UInt8.ofNat (0x80 + 55 + (sizeBytes payload.length).length) :=
          eq_ofNat (by omega)
        have hplain : ¬IsPlain payload := by
          rintro ⟨hone, -⟩
          omega
        simp [encodeString, hplain, header, show ¬payload.length < 56 by omega, hb]
      split at h
      · -- a short list
        rw [Option.map_eq_some_iff] at h
        obtain ⟨⟨payload', rest'⟩, hread, h⟩ := h
        cases h
        obtain ⟨rfl, hlen⟩ := readBytes_sound hread
        have hb : b = UInt8.ofNat (0xc0 + payload.length) := eq_ofNat (by omega)
        simp [encodeList, header, show payload.length < 56 by omega, hb]
      · -- a long list
        rw [Option.map_eq_some_iff] at h
        obtain ⟨⟨payload', rest'⟩, hread, h⟩ := h
        cases h
        have hlt := b.toNat_lt
        obtain ⟨hlong, hlen, rfl⟩ := readLong_sound (by omega) hread
        have hb : b = UInt8.ofNat (0xc0 + 55 + (sizeBytes payload.length).length) :=
          eq_ofNat (by omega)
        simp [encodeList, header, show ¬payload.length < 56 by omega, hb]

/-- The bytes of a sequence of items are its encoding. -/
theorem decodeAll_sound {fuel : Nat} {bytes : List UInt8} {items : List Item}
    (h : decodeAll fuel bytes = some items) : encodeAll items = bytes := by
  induction fuel generalizing bytes items with
  | zero => cases h
  | succ fuel ih =>
      cases bytes with
      | nil =>
          cases h
          rfl
      | cons b bytes =>
          rcases hread : readItem (b :: bytes) with _ | ⟨isList, payload, rest⟩
          · rw [decodeAll, hread] at h
            cases h
          rw [decodeAll_succ hread] at h
          simp only [Option.bind_eq_some_iff] at h
          obtain ⟨item, hitem, items', hitems, h⟩ := h
          cases h
          have hrest := ih hitems
          rw [readItem_sound hread, encodeAll, hrest]
          cases isList with
          | true =>
              simp only [if_true, Option.map_eq_some_iff] at hitem
              obtain ⟨inner, hinner, rfl⟩ := hitem
              rw [encode, ih hinner]
              rfl
          | false =>
              cases hitem
              rw [encode]
              rfl

/-- Bytes that are accepted are the encoding of the item. -/
theorem encode_decode {bytes : List UInt8} {item : Item} (h : decode bytes = some item) :
    encode item = bytes := by
  unfold decode at h
  split at h
  · rename_i hall
    cases h
    have hbytes := decodeAll_sound hall
    rwa [encodeAll, encodeAll, List.append_nil] at hbytes
  · cases h

/-- The encoding names the item. -/
theorem encode_inj {item item' : Item} (hlt : (encode item).length < 2 ^ 64)
    (h : encode item = encode item') : item = item' := by
  have h₁ := decode_encode hlt
  have h₂ : decode (encode item') = some item' := decode_encode (h ▸ hlt)
  rw [h, h₂] at h₁
  exact (Option.some.inj h₁).symm

end ArbReth.Rlp
