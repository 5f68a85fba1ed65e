import ArbReth.Precompiles.ArbSys

/-!
# `ArbReth.Precompiles.Dispatch`: the ArbSys precompile

The input of the precompile is a selector of four bytes and the arguments. `ArbSys.run` finds
the method by the selector, and each method checks the gas limit and decodes its arguments
itself. Five methods need state that the precompile cannot reach yet, and always fail.

A selector is the head of the hash of the signature in the interface. The hash is a parameter
here, as it is for the storage.

`ArbSysCall` is the interface without bytes and branches: the calls that can have an answer,
their encoding, their cost and the number that they return.
-/

set_option autoImplicit false

namespace ArbReth

open ArbReth.Program ArbReth.BigEndian

/-- What the methods read of the context. The hash of a block is a word of 32 bytes, as its
big-endian value, and may be missing. -/
structure ArbSysContext where
  blockNumber : U256
  chainId : U64
  depth : U64
  blockHash : U64 → Option U256

/-! ### Selectors -/

/-- The methods of the interface. -/
inductive ArbSysMethod where
  | arbBlockNumber
  | arbBlockHash
  | arbChainID
  | arbOSVersion
  | getStorageGasAvailable
  | isTopLevelCall
  | mapL1SenderContractAddressToL2Alias
  | wasMyCallersAddressAliased
  | myCallersAddressWithoutAliasing
  | sendTxToL1
  | sendMerkleTreeState
  | withdrawEth
deriving DecidableEq, Repr

namespace ArbSysMethod

/-- The signature in the interface. -/
def signature : ArbSysMethod → String
  | .arbBlockNumber => "arbBlockNumber()"
  | .arbBlockHash => "arbBlockHash(uint256)"
  | .arbChainID => "arbChainID()"
  | .arbOSVersion => "arbOSVersion()"
  | .getStorageGasAvailable => "getStorageGasAvailable()"
  | .isTopLevelCall => "isTopLevelCall()"
  | .mapL1SenderContractAddressToL2Alias => "mapL1SenderContractAddressToL2Alias(address,address)"
  | .wasMyCallersAddressAliased => "wasMyCallersAddressAliased()"
  | .myCallersAddressWithoutAliasing => "myCallersAddressWithoutAliasing()"
  | .sendTxToL1 => "sendTxToL1(address,bytes)"
  | .sendMerkleTreeState => "sendMerkleTreeState()"
  | .withdrawEth => "withdrawEth(address)"

/-- The bytes of the signature, which has only ASCII characters. -/
def signatureBytes (m : ArbSysMethod) : Bytes :=
  m.signature.toList.map fun c => UInt8.ofNat c.toNat

/-- `SELECTOR`: the first four bytes of the hash of the signature. -/
def selector [Keccak] (m : ArbSysMethod) : Bytes :=
  (Keccak.keccak256 m.signatureBytes).toList.take 4

end ArbSysMethod

namespace ArbSys

/-! ### Encoding -/

/-- `decode_u256`. -/
def decodeU256 (data : Bytes) : Exec PrecompileError U256 :=
  if data.length < 32 then .fail (.other "invalid input length")
  else pure (U256.fromBeBytes (data.take 32))

/-- `encode_u256`. -/
def encodeU256 (val : U256) : Bytes := val.toBeBytes

/-- `encode_bool`. -/
def encodeBool (val : Bool) : Bytes := List.replicate 31 0 ++ [if val then 1 else 0]

/-- `encode_b256`. -/
def encodeB256 (val : U256) : Bytes := val.toBeBytes

/-- `u256_to_u64`: the lowest limb, when the others are zero. -/
def u256ToU64 (val : U256) : Exec PrecompileError U64 :=
  if val.extractLsb' 64 64 ≠ 0 ∨ val.extractLsb' 128 64 ≠ 0 ∨ val.extractLsb' 192 64 ≠ 0 then
    .fail (.other "block number out of u64 range")
  else pure (val.extractLsb' 0 64)

/-! ### Methods -/

/-- A method without arguments: the gas is checked, and the output is computed from the
context. -/
def respond (gas gasLimit : U64) (bytes : Bytes) : Exec PrecompileError PrecompileOutput :=
  if gasLimit < gas then .fail .outOfGas
  else pure { gasUsed := gas, bytes := bytes }

/-- The number of the L2 block. -/
def arbBlockNumber (ctx : ArbSysContext) (gasLimit : U64) : Exec PrecompileError PrecompileOutput :=
  respond 0 gasLimit (encodeU256 ctx.blockNumber)

/-- `arb_block_hash`: the block is one of the last 256. -/
def arbBlockHash (ctx : ArbSysContext) (args : Bytes) (gasLimit : U64) :
    Exec PrecompileError PrecompileOutput := do
  let gas : U64 := 20
  if gasLimit < gas then .fail .outOfGas
  else
    let requested ← decodeU256 args
    let current := ctx.blockNumber
    if current ≤ requested ∨ 256 < current - requested then
      .fail (.other "invalid block number for ArbBlockHash")
    else
      let reqU64 ← u256ToU64 requested
      let hash := (ctx.blockHash reqU64).getD 0
      pure { gasUsed := gas, bytes := encodeB256 hash }

/-- The id of the chain. -/
def arbChainId (ctx : ArbSysContext) (gasLimit : U64) : Exec PrecompileError PrecompileOutput :=
  respond 0 gasLimit (encodeU256 (U256.ofU64 ctx.chainId))

/-- The stub of the source: the version is always zero. -/
def arbOsVersion (gasLimit : U64) : Exec PrecompileError PrecompileOutput :=
  respond 0 gasLimit (encodeU256 0)

/-- The stub of the source: there is no storage gas. -/
def getStorageGasAvailable (gasLimit : U64) : Exec PrecompileError PrecompileOutput :=
  respond 0 gasLimit (encodeU256 0)

/-- The call is a top-level one when its depth is at most 2. -/
def isTopLevelCall (ctx : ArbSysContext) (gasLimit : U64) :
    Exec PrecompileError PrecompileOutput :=
  respond 0 gasLimit (encodeBool (decide (ctx.depth ≤ 2)))

/-- Not implemented in the source: an error, whatever the gas. -/
def wasMyCallersAliased : Exec PrecompileError PrecompileOutput :=
  .fail (.other "wasMyCallersAddressAliased requires ArbOS tx-processor state")

/-- Not implemented in the source: an error, whatever the gas. -/
def myCallersWithoutAliasing : Exec PrecompileError PrecompileOutput :=
  .fail (.other "myCallersAddressWithoutAliasing requires ArbOS tx-processor state")

/-- Not implemented in the source: an error, whatever the gas. -/
def sendTxToL1 : Exec PrecompileError PrecompileOutput :=
  .fail (.other "sendTxToL1 requires ArbOS state (outbox Merkle accumulator)")

/-- Not implemented in the source: an error, whatever the gas. -/
def sendMerkleTreeState : Exec PrecompileError PrecompileOutput :=
  .fail (.other "sendMerkleTreeState requires ArbOS state (Merkle accumulator)")

/-- `withdraw_eth`: the destination is decoded, and the call is passed on. -/
def withdrawEth (args : Bytes) : Exec PrecompileError PrecompileOutput := do
  let _ ← decodeAddress args
  sendTxToL1

/-! ### Dispatch -/

/-- `run`. -/
def run [Keccak] (ctx : ArbSysContext) (input : Bytes) (gasLimit : U64) :
    Exec PrecompileError PrecompileOutput :=
  if input.length < 4 then .fail (.other "calldata too short")
  else
    let sel := input.take 4
    let args := input.drop 4
    if sel = ArbSysMethod.arbBlockNumber.selector then arbBlockNumber ctx gasLimit
    else if sel = ArbSysMethod.arbBlockHash.selector then arbBlockHash ctx args gasLimit
    else if sel = ArbSysMethod.arbChainID.selector then arbChainId ctx gasLimit
    else if sel = ArbSysMethod.arbOSVersion.selector then arbOsVersion gasLimit
    else if sel = ArbSysMethod.getStorageGasAvailable.selector then getStorageGasAvailable gasLimit
    else if sel = ArbSysMethod.isTopLevelCall.selector then isTopLevelCall ctx gasLimit
    else if sel = ArbSysMethod.mapL1SenderContractAddressToL2Alias.selector then
      mapL1SenderToL2Alias args gasLimit
    else if sel = ArbSysMethod.wasMyCallersAddressAliased.selector then wasMyCallersAliased
    else if sel = ArbSysMethod.myCallersAddressWithoutAliasing.selector then
      myCallersWithoutAliasing
    else if sel = ArbSysMethod.sendTxToL1.selector then sendTxToL1
    else if sel = ArbSysMethod.sendMerkleTreeState.selector then sendMerkleTreeState
    else if sel = ArbSysMethod.withdrawEth.selector then withdrawEth args
    else .fail (.other "unknown selector")

end ArbSys

/-! ### The interface -/

/-- A call that can have an answer. The padding of an address is any twelve bytes, and the
second argument of the alias is not part of the call. -/
inductive ArbSysCall where
  | arbBlockNumber
  | arbBlockHash (number : U256)
  | arbChainID
  | arbOSVersion
  | getStorageGasAvailable
  | isTopLevelCall
  | mapL1SenderContractAddressToL2Alias (padding : Vector UInt8 12) (sender : Address)

namespace ArbSysCall

/-- The method of the call. -/
def method : ArbSysCall → ArbSysMethod
  | .arbBlockNumber => .arbBlockNumber
  | .arbBlockHash _ => .arbBlockHash
  | .arbChainID => .arbChainID
  | .arbOSVersion => .arbOSVersion
  | .getStorageGasAvailable => .getStorageGasAvailable
  | .isTopLevelCall => .isTopLevelCall
  | .mapL1SenderContractAddressToL2Alias _ _ => .mapL1SenderContractAddressToL2Alias

/-- The arguments as words. -/
def args : ArbSysCall → Bytes
  | .arbBlockHash number => number.toBeBytes
  | .mapL1SenderContractAddressToL2Alias padding sender => padding.toList ++ sender.asSlice
  | _ => []

/-- The selector and the arguments. -/
def encode [Keccak] (c : ArbSysCall) : Bytes := c.method.selector ++ c.args

/-- The gas of the call. -/
def cost : ArbSysCall → U64
  | .arbBlockHash _ => 20
  | _ => 0

/-- The number that the call returns. A block hash has an answer for the last 256 blocks whose
number is a 64-bit one, and is zero when it is missing. -/
def value (ctx : ArbSysContext) : ArbSysCall → Option U256
  | .arbBlockNumber => some ctx.blockNumber
  | .arbBlockHash number =>
      if number.toNat < ctx.blockNumber.toNat ∧ ctx.blockNumber.toNat ≤ number.toNat + 256
          ∧ number.toNat < 2 ^ 64 then
        some ((ctx.blockHash (BitVec.ofNat 64 number.toNat)).getD 0)
      else none
  | .arbChainID => some (U256.ofU64 ctx.chainId)
  | .arbOSVersion => some 0
  | .getStorageGasAvailable => some 0
  | .isTopLevelCall => some (if ctx.depth.toNat ≤ 2 then 1 else 0)
  | .mapL1SenderContractAddressToL2Alias _ sender =>
      some (BitVec.ofNat 256
        ((sender.toNat + 0x1111000000000000000000000000000000001111) % 2 ^ 160))

end ArbSysCall

end ArbReth
