import ArbReth.Storage.Storage

/-!
# `ArbReth.L1Pricing.FakeTx`: the transactions whose L1 cost is computed

`PosterTransaction` is what the pricer needs of a transaction: its bytes, its type and a
cache of its calldata units. `Message` holds the transaction, if there is one. For a message
without one the pricer encodes a fake transaction of type 2 with the fields of the message.
Its signature is a constant, and so are the fields that the message leaves at zero.

The source encodes with the crate `alloy_rlp`, which is the parameter `AlloyRlp`. The list
headers are computed by hand from the lengths of the payloads.
-/

set_option autoImplicit false

namespace ArbReth

open ArbReth.BigEndian

/-- `PosterTransaction`: the part of a transaction that its L1 cost depends on. -/
class PosterTransaction (T : Type) where
  encode : T → Bytes
  txType : T → U8
  getCachedCalldataUnits : T → (brotliCompressionLevel : U64) → Option U64
  setCachedCalldataUnits : T → (brotliCompressionLevel units : U64) → T

/-- `B256`: a word of 32 bytes, as its big-endian value. -/
abbrev B256 : Type := U256

/-- The encoders of `alloy_rlp`. Each gives the bytes that it appends to its output. -/
class AlloyRlp where
  encodeU64 : U64 → Bytes
  encodeU256 : U256 → Bytes
  encodeSlice : Bytes → Bytes
  encodeAddress : Address → Bytes
  encodeB256 : B256 → Bytes
  /-- `Header { list: true, payload_length }`. -/
  encodeListHeader : (payloadLength : U64) → Bytes

/-- `Vec::len`, as a `usize`. -/
def vecLen (bytes : Bytes) : U64 := BitVec.ofNat 64 bytes.length

/-! ### The constants of the fake transaction -/

section
variable [Keccak]

/-- The first bytes of the digest of a name, as a number. -/
def randomPrefix (count : Nat) (name : String) : Nat :=
  beValue ((Keccak.keccak256 name.toUTF8.toList).toList.take count)

/-- `RANDOM_NONCE`. -/
def randomNonce : U64 := BitVec.ofNat 64 (randomPrefix 8 "Nonce")

/-- `RANDOM_GAS_TIP_CAP`. -/
def randomGasTipCap : U256 := BitVec.ofNat 256 (randomPrefix 4 "GasTipCap")

/-- `RANDOM_GAS_FEE_CAP`. -/
def randomGasFeeCap : U256 := BitVec.ofNat 256 (randomPrefix 4 "GasFeeCap")

/-- `RANDOM_GAS`. -/
def randomGas : U64 := (BitVec.ofNat 32 (randomPrefix 4 "Gas")).setWidth 64

/-- `RAND_V`: three times the chain id of Arbitrum One. -/
def randV : U256 := 126483

/-- `RAND_R`. -/
def randR : U256 := U256.fromBeBytes (Keccak.keccak256 "R".toUTF8.toList).toList

/-- `RAND_S`. -/
def randS : U256 := U256.fromBeBytes (Keccak.keccak256 "S".toUTF8.toList).toList

end

/-- `Message`: the fields of a message that its L1 cost depends on. -/
structure Message (T : Type) where
  nonce : U64
  gasTipCap : U256
  gasFeeCap : U256
  gasLimit : U64
  isGasEstimation : Bool
  «to» : Option Address
  value : U256
  data : Bytes
  accessList : List (Address × List B256)
  tx : Option T

/-- `FakeTx`. -/
structure FakeTx where
  encoded : Bytes

instance : PosterTransaction FakeTx where
  encode self := self.encoded
  txType _ := 2
  getCachedCalldataUnits _ _ := none
  setCachedCalldataUnits self _ _ := self

section
variable [AlloyRlp]

/-- One entry of the access list: the address and the list of its keys. -/
def encodeAccessEntry (addr : Address) (keys : List B256) : Bytes :=
  let keysPayload := keys.flatMap AlloyRlp.encodeB256
  let entryPayload := AlloyRlp.encodeAddress addr
    ++ AlloyRlp.encodeListHeader (vecLen keysPayload) ++ keysPayload
  AlloyRlp.encodeListHeader (vecLen entryPayload) ++ entryPayload

/-- `encode_access_list`. -/
def encodeAccessList (list : List (Address × List B256)) (out : Bytes) : Bytes :=
  let listPayload := list.flatMap fun (addr, keys) => encodeAccessEntry addr keys
  out ++ AlloyRlp.encodeListHeader (vecLen listPayload) ++ listPayload

variable [Keccak]

/-- `fake_eip1559_bytes`. -/
def fakeEip1559Bytes (nonce : U64) (gasTipCap gasFeeCap : U256) (gas : U64)
    («to» : Option Address) (value : U256) (data : Bytes)
    (accessList : List (Address × List B256)) : Bytes :=
  let payload := AlloyRlp.encodeU64 0 ++ AlloyRlp.encodeU64 nonce ++ AlloyRlp.encodeU256 gasTipCap
    ++ AlloyRlp.encodeU256 gasFeeCap ++ AlloyRlp.encodeU64 gas
  let payload := payload ++
    match «to» with
    | none => AlloyRlp.encodeSlice []
    | some addr => AlloyRlp.encodeAddress addr
  let payload := payload ++ AlloyRlp.encodeU256 value ++ AlloyRlp.encodeSlice data
  let payload := encodeAccessList accessList payload
  let payload := payload ++ AlloyRlp.encodeU256 randV ++ AlloyRlp.encodeU256 randR
    ++ AlloyRlp.encodeU256 randS
  -- the byte before the list is the type of the transaction
  [0x02] ++ AlloyRlp.encodeListHeader (vecLen payload) ++ payload

/-- `make_fake_tx_for_message`. -/
def makeFakeTxForMessage {T : Type} (message : Message T) : FakeTx :=
  let nonce := if message.nonce = 0 then randomNonce else message.nonce
  let gasTipCap := if message.gasTipCap = 0 then randomGasTipCap else message.gasTipCap
  let gasFeeCap := if message.gasFeeCap = 0 then randomGasFeeCap else message.gasFeeCap
  -- the gas limit of an estimation varies, and the cost should not
  let gas :=
    if message.gasLimit = 0 ∨ message.isGasEstimation then randomGas else message.gasLimit
  { encoded := fakeEip1559Bytes nonce gasTipCap gasFeeCap gas message.«to» message.value
      message.data message.accessList }

end

end ArbReth
