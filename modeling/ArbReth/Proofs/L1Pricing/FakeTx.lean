import ArbReth.L1Pricing.FakeTx
import ArbReth.Rlp
import ArbReth.Storage.SampleHash
import Mathlib.Algebra.Order.BigOperators.Group.List

/-!
# `ArbReth.Proofs.L1Pricing.FakeTx`: the fake transaction decodes back

`AlloyRlp.Conforms` says that the encoders of `alloy_rlp` follow the RLP specification. Then
the fake transaction is the byte `0x02` and the encoding of one list of twelve items
(`Message.Sized.fakeEncoding_eq`): each header that is computed by hand is the header of its
payload, for any number of addresses and keys. A `Vec` has fewer than `2 ^ 64` bytes, so each
of these lengths is exact (`Message.Sized`).

The items are those of `FakeFields`, the fields of the message with the constants in the
place of the zeros. They determine the fields, so the encoding does (`fake_tx_decodes`).
-/

set_option autoImplicit false

namespace ArbReth

open ArbReth.BigEndian ArbReth.Rlp

/-- The encoders follow the RLP specification. -/
structure AlloyRlp.Conforms [AlloyRlp] : Prop where
  u64 : ∀ x, AlloyRlp.encodeU64 x = encodeString (minimalBytes 8 x.toNat)
  u256 : ∀ x, AlloyRlp.encodeU256 x = encodeString (minimalBytes 32 x.toNat)
  slice : ∀ bytes, bytes.length < 2 ^ 64 → AlloyRlp.encodeSlice bytes = encodeString bytes
  address : ∀ a, AlloyRlp.encodeAddress a = encodeString a.asSlice
  b256 : ∀ x, AlloyRlp.encodeB256 x = encodeString x.toBeBytes
  listHeader : ∀ payloadLength,
    AlloyRlp.encodeListHeader payloadLength = header 0xc0 payloadLength.toNat

/-! ### The items of the fake transaction -/

/-- The fields of the fake transaction that depend on the message. -/
@[ext] structure FakeFields where
  nonce : U64
  gasTipCap : U256
  gasFeeCap : U256
  gas : U64
  «to» : Option Address
  value : U256
  data : Bytes
  accessList : List (Address × List B256)

/-- The fields of the message, with the constants in the place of the zeros. -/
def Message.fakeFields [Keccak] {T : Type} (message : Message T) : FakeFields where
  nonce := if message.nonce = 0 then randomNonce else message.nonce
  gasTipCap := if message.gasTipCap = 0 then randomGasTipCap else message.gasTipCap
  gasFeeCap := if message.gasFeeCap = 0 then randomGasFeeCap else message.gasFeeCap
  gas := if message.gasLimit = 0 ∨ message.isGasEstimation then randomGas else message.gasLimit
  «to» := message.«to»
  value := message.value
  data := message.data
  accessList := message.accessList

/-- The item of a number of `w` bits: its bytes without leading zeros. -/
def wordItem {w : Nat} (x : BitVec w) : Item := .str (minimalBytes (w / 8) x.toNat)

/-- The item of an optional address: no bytes for none. -/
def toItem : Option Address → Item
  | none => .str []
  | some addr => .str addr.asSlice

/-- The item of an entry of the access list: the address and all its keys. -/
def accessItem (entry : Address × List B256) : Item :=
  .list [.str entry.1.asSlice, .list (entry.2.map fun key => .str key.toBeBytes)]

/-- The twelve items of the fake transaction. -/
def FakeFields.items [Keccak] (F : FakeFields) : List Item :=
  [.str [], wordItem F.nonce, wordItem F.gasTipCap, wordItem F.gasFeeCap, wordItem F.gas,
    toItem F.«to», wordItem F.value, .str F.data, .list (F.accessList.map accessItem),
    wordItem randV, wordItem randR, wordItem randS]

/-! ### The items determine the fields -/

/-- A word can be read back from its item. -/
theorem wordItem_inj {w : Nat} (hw : 256 ^ (w / 8) = 2 ^ w) {x y : BitVec w} :
    wordItem x = wordItem y ↔ x = y := by
  have hx : x.toNat < 256 ^ (w / 8) := by
    rw [hw]
    exact x.isLt
  have hy : y.toNat < 256 ^ (w / 8) := by
    rw [hw]
    exact y.isLt
  rw [wordItem, wordItem, Item.str.injEq, minimalBytes_inj hx hy]
  exact BitVec.toNat_inj

/-- An address can be read back from its bytes. -/
theorem Address.asSlice_inj {a b : Address} : a.asSlice = b.asSlice ↔ a = b := by
  rw [Address.asSlice, Address.asSlice, beBytes_inj (by simpa using a.isLt) (by simpa using b.isLt)]
  exact BitVec.toNat_inj

/-- A recipient can be read back from its item, which is empty for a creation. -/
theorem toItem_inj {a b : Option Address} : toItem a = toItem b ↔ a = b := by
  -- an address has twenty bytes, so it is not the empty string
  have hne : ∀ addr : Address, addr.asSlice ≠ [] := by
    intro addr h
    have hlen : addr.asSlice.length = 20 := length_beBytes 20 addr.toNat
    rw [h] at hlen
    cases hlen
  cases a with
  | none =>
      cases b with
      | none => simp
      | some b => simp [toItem, (hne b).symm]
  | some a =>
      cases b with
      | none => simp [toItem, hne a]
      | some b => rw [toItem, toItem, Item.str.injEq, Address.asSlice_inj, Option.some.injEq]

/-- An entry of the access list can be read back from its item. -/
theorem accessItem_injective : Function.Injective accessItem := by
  rintro ⟨a, keys⟩ ⟨b, keys'⟩ h
  simp only [accessItem, Item.list.injEq, List.cons.injEq, Item.str.injEq, and_true] at h
  obtain ⟨haddr, hkeys⟩ := h
  have hkey : Function.Injective fun key : B256 => Item.str key.toBeBytes :=
    fun x y hxy => U256.toBeBytes_inj.mp (Item.str.inj hxy)
  rw [Address.asSlice_inj.mp haddr, List.map_injective_iff.mpr hkey hkeys]

/-- The fields can be read back from the list of the items. -/
theorem items_inj [Keccak] {F F' : FakeFields} : F.items = F'.items ↔ F = F' := by
  constructor
  · intro h
    simp only [FakeFields.items, List.cons.injEq, Item.str.injEq, Item.list.injEq, and_true,
      true_and] at h
    obtain ⟨hnonce, htip, hcap, hgas, hto, hvalue, hdata, haccess⟩ := h
    exact FakeFields.ext ((wordItem_inj rfl).mp hnonce) ((wordItem_inj rfl).mp htip)
      ((wordItem_inj rfl).mp hcap) ((wordItem_inj rfl).mp hgas) (toItem_inj.mp hto)
      ((wordItem_inj rfl).mp hvalue) hdata
      (List.map_injective_iff.mpr accessItem_injective haccess)
  · rintro rfl
    rfl

/-! ### The encoding -/

/-- A part of a concatenation is no longer than all of it. -/
theorem length_le_flatMap {ι : Type} (f : ι → Bytes) {l : List ι} {i : ι} (hi : i ∈ l) :
    (f i).length ≤ (l.flatMap f).length := by
  rw [List.length_flatMap]
  exact List.le_sum_of_mem (List.mem_map_of_mem hi)

section
variable [AlloyRlp]

/-- The recipient as the fake transaction encodes it. -/
def encodeTo : Option Address → Bytes
  | none => AlloyRlp.encodeSlice []
  | some addr => AlloyRlp.encodeAddress addr

/-- The payload of the list that the fake transaction consists of. -/
def FakeFields.payload [Keccak] (F : FakeFields) : Bytes :=
  encodeAccessList F.accessList
    (AlloyRlp.encodeU64 0 ++ AlloyRlp.encodeU64 F.nonce ++ AlloyRlp.encodeU256 F.gasTipCap
      ++ AlloyRlp.encodeU256 F.gasFeeCap ++ AlloyRlp.encodeU64 F.gas ++ encodeTo F.«to»
      ++ AlloyRlp.encodeU256 F.value ++ AlloyRlp.encodeSlice F.data)
    ++ AlloyRlp.encodeU256 randV ++ AlloyRlp.encodeU256 randR ++ AlloyRlp.encodeU256 randS

/-- The encoding is the type byte, the header of the list and the payload. -/
theorem encode_makeFakeTxForMessage [Keccak] {T : Type} (message : Message T) :
    PosterTransaction.encode (makeFakeTxForMessage message)
      = 0x02 :: (AlloyRlp.encodeListHeader (vecLen message.fakeFields.payload)
          ++ message.fakeFields.payload) := by
  rfl

namespace AlloyRlp.Conforms
variable (h : AlloyRlp.Conforms)
include h

/-- A header that is computed from the length of the payload is the header of the payload. -/
theorem list_eq {payload : Bytes} (hlt : payload.length < 2 ^ 64) :
    AlloyRlp.encodeListHeader (vecLen payload) ++ payload = encodeList payload := by
  have hlen : (vecLen payload).toNat = payload.length := by
    rw [vecLen, BitVec.toNat_ofNat, Nat.mod_eq_of_lt hlt]
  rw [h.listHeader, hlen, encodeList]

/-- The encoder of an entry writes the encoding of its item. -/
theorem accessEntry_eq {addr : Address} {keys : List B256}
    (hlt : (encodeAccessEntry addr keys).length < 2 ^ 64) :
    encodeAccessEntry addr keys = Rlp.encode (accessItem (addr, keys)) := by
  have hkeys : keys.flatMap AlloyRlp.encodeB256
      = encodeAll (keys.map fun key => .str key.toBeBytes) := by
    rw [encodeAll_map]
    exact congrArg keys.flatMap (funext fun key => by rw [h.b256, Rlp.encode])
  simp only [encodeAccessEntry, List.length_append] at hlt
  unfold encodeAccessEntry
  -- the header of the entry counts the header of the keys
  rw [h.list_eq (by simp only [List.length_append]; omega), List.append_assoc,
    h.list_eq (by omega), h.address, hkeys]
  simp [accessItem, Rlp.encode, encodeAll]

/-- The encoder of the access list appends the encoding of its item. -/
theorem accessList_eq {list : List (Address × List B256)} {out : Bytes}
    (hlt : (encodeAccessList list out).length < 2 ^ 64) :
    encodeAccessList list out = out ++ Rlp.encode (.list (list.map accessItem)) := by
  simp only [encodeAccessList, List.length_append] at hlt ⊢
  have hentries : (list.flatMap fun x => encodeAccessEntry x.1 x.2)
      = encodeAll (list.map accessItem) := by
    rw [encodeAll_map]
    refine List.flatMap_congr fun entry hentry => ?_
    -- each entry is shorter than the list
    have hle := length_le_flatMap (fun x => encodeAccessEntry x.1 x.2) hentry
    exact h.accessEntry_eq (lt_of_le_of_lt hle (by omega))
  rw [List.append_assoc, h.list_eq (by omega), hentries, Rlp.encode]

variable [Keccak]

/-- The payload of the fake transaction is the encodings of its items. -/
theorem payload_eq {F : FakeFields} (hdata : F.data.length < 2 ^ 64)
    (hlt : F.payload.length < 2 ^ 64) : F.payload = encodeAll F.items := by
  have hto : encodeTo F.«to» = Rlp.encode (toItem F.«to») := by
    cases F.«to» with
    | none => simp [encodeTo, toItem, Rlp.encode, h.slice]
    | some addr => simp [encodeTo, toItem, Rlp.encode, h.address]
  unfold FakeFields.payload at hlt ⊢
  simp only [List.length_append] at hlt
  have hzero : AlloyRlp.encodeU64 0 = Rlp.encode (.str []) := h.u64 0
  have hu64 : ∀ x, AlloyRlp.encodeU64 x = Rlp.encode (wordItem x) := h.u64
  have hu256 : ∀ x, AlloyRlp.encodeU256 x = Rlp.encode (wordItem x) := h.u256
  have hslice : AlloyRlp.encodeSlice F.data = Rlp.encode (.str F.data) := h.slice _ hdata
  -- the zero in front is the chain id, which the fake transaction leaves out
  rw [h.accessList_eq (by omega), hto, hzero, hslice]
  simp only [hu64, hu256, FakeFields.items, encodeAll, List.append_assoc, List.append_nil]

end AlloyRlp.Conforms

/-! ### The fake transaction -/

section
variable [Keccak] {T : Type}

/-- The encoding of the fake transaction of a message. -/
def Message.fakeEncoding (message : Message T) : Bytes :=
  PosterTransaction.encode (makeFakeTxForMessage message)

/-- The data and the encoding are vectors of bytes, so their lengths are numbers of 64 bits. -/
structure Message.Sized (message : Message T) : Prop where
  data : message.data.length < 2 ^ 64
  fakeEncoding : message.fakeEncoding.length < 2 ^ 64

/-- The encoding is the type and one list. -/
theorem Message.Sized.fakeEncoding_eq {message : Message T} (hsized : message.Sized)
    (h : AlloyRlp.Conforms) :
    message.fakeEncoding = 0x02 :: Rlp.encode (.list message.fakeFields.items) := by
  have hlt := hsized.fakeEncoding
  rw [Message.fakeEncoding, encode_makeFakeTxForMessage] at hlt ⊢
  rw [List.length_cons, List.length_append] at hlt
  have hpayload := h.payload_eq (F := message.fakeFields) hsized.data (by omega)
  rw [h.list_eq (by omega), hpayload, Rlp.encode]

/-- The list of the fields of a message that fits in memory has a length in range. -/
theorem Message.Sized.length_encode_lt {message : Message T} (hsized : message.Sized)
    (h : AlloyRlp.Conforms) :
    (Rlp.encode (.list message.fakeFields.items)).length < 2 ^ 64 := by
  have hlt := hsized.fakeEncoding
  rw [hsized.fakeEncoding_eq h, List.length_cons] at hlt
  omega

/-- The fake transaction is the byte `0x02` and the encoding of one list. It decodes to the
twelve items, with no bytes left, and no other bytes do. The encoding determines the fields
of the message with the constants in the place of the zeros. It ignores the gas limit of an
estimation. -/
theorem fake_tx_decodes (h : AlloyRlp.Conforms) :
    (∀ message : Message T, message.Sized → ∃ bytes,
      message.fakeEncoding = 0x02 :: bytes
        ∧ bytes = Rlp.encode (.list message.fakeFields.items)
        ∧ Rlp.decode bytes = some (.list message.fakeFields.items)
        ∧ ∀ bytes', Rlp.decode bytes' = some (.list message.fakeFields.items) → bytes' = bytes)
      ∧ (∀ message message' : Message T, message.Sized → message'.Sized →
          (message.fakeEncoding = message'.fakeEncoding
            ↔ message.fakeFields = message'.fakeFields))
      ∧ ∀ (message : Message T) (gasLimit : U64), message.isGasEstimation →
          Message.fakeEncoding { message with gasLimit } = message.fakeEncoding := by
  refine ⟨?_, ?_, ?_⟩
  · intro message hsized
    exact ⟨_, hsized.fakeEncoding_eq h, rfl, decode_encode (hsized.length_encode_lt h),
      fun _ h' => (encode_decode h').symm⟩
  · intro message message' hsized hsized'
    rw [hsized.fakeEncoding_eq h, hsized'.fakeEncoding_eq h]
    constructor
    · intro heq
      have hlist := encode_inj (hsized.length_encode_lt h) (List.cons.inj heq).2
      exact items_inj.mp (Item.list.inj hlist)
    · intro hfields
      rw [hfields]
  · intro message gasLimit hestimation
    simp only [Message.fakeEncoding, makeFakeTxForMessage, hestimation, or_true, if_true]

end

end

/-! ### An estimation with an access list -/

/-- The encoders of the specification. -/
@[reducible] def specRlp : AlloyRlp where
  encodeU64 x := encodeString (minimalBytes 8 x.toNat)
  encodeU256 x := encodeString (minimalBytes 32 x.toNat)
  encodeSlice := encodeString
  encodeAddress a := encodeString a.asSlice
  encodeB256 x := encodeString x.toBeBytes
  encodeListHeader payloadLength := header 0xc0 payloadLength.toNat

attribute [local instance] sampleHash specRlp

/-- The encoding of the specification meets what is assumed of the library. -/
theorem specRlp_conforms : AlloyRlp.Conforms where
  u64 _ := rfl
  u256 _ := rfl
  slice _ _ := rfl
  address _ := rfl
  b256 _ := rfl
  listHeader _ := rfl

/-- An estimation without a nonce. Its data is longer than a short string. -/
def sampleMessage : Message FakeTx where
  nonce := 0
  gasTipCap := 5
  gasFeeCap := 0
  gasLimit := 30000
  isGasEstimation := true
  «to» := some 0xA4B05
  value := 1000
  data := List.replicate 60 7
  accessList := [(0xAA, [1, 2]), (0xBB, [])]
  tx := none

/-- The same with no keys for the first address. -/
def otherMessage : Message FakeTx :=
  { sampleMessage with accessList := [(0xAA, []), (0xBB, [])] }

/-- The sample message fits in memory. -/
theorem sampleMessage_sized : sampleMessage.Sized where
  data := by decide
  fakeEncoding := by decide +kernel

/-- The other message fits in memory. -/
theorem otherMessage_sized : otherMessage.Sized where
  data := by decide
  fakeEncoding := by decide +kernel

/-- A key more or less changes the encoding, the gas limit does not. -/
theorem fake_tx_decodes_sample :
    (∃ bytes, sampleMessage.fakeEncoding = 0x02 :: bytes
        ∧ bytes = Rlp.encode (.list sampleMessage.fakeFields.items)
        ∧ Rlp.decode bytes = some (.list sampleMessage.fakeFields.items)
        ∧ ∀ bytes',
          Rlp.decode bytes' = some (.list sampleMessage.fakeFields.items) → bytes' = bytes)
      ∧ sampleMessage.fakeEncoding ≠ otherMessage.fakeEncoding
      ∧ Message.fakeEncoding { sampleMessage with gasLimit := 7 } = sampleMessage.fakeEncoding := by
  obtain ⟨hdecode, hinj, hgas⟩ := fake_tx_decodes (T := FakeTx) specRlp_conforms
  refine ⟨hdecode sampleMessage sampleMessage_sized, ?_, hgas sampleMessage 7 rfl⟩
  intro heq
  have hfields := (hinj _ _ sampleMessage_sized otherMessage_sized).mp heq
  exact absurd (congrArg FakeFields.accessList hfields) (by decide)

end ArbReth
