import ArbReth.L1Pricing.FakeTx
import ArbReth.L1Pricing.State

/-!
# `ArbReth.L1Pricing.PosterCost`: the L1 cost of a transaction

A transaction that the batch poster posts is charged for its compressed bytes. A byte has
sixteen units of calldata, and a unit has the price of the L1 pricer. Other posters charge
nothing, and the types that ArbOS makes itself have no cost.

The units are cached in the transaction under the level of the compression.
`getPosterInfo` reads the cache and fills it. It changes the transaction through a mutable
reference, so its model is the program together with the transaction that it leaves. The
transaction is changed before the price is read, so it is left also when the read fails.

`posterDataCost` takes a message. A message without a transaction is charged for the fake
one, with a margin.
-/

set_option autoImplicit false

namespace ArbReth

/-- `TX_DATA_NON_ZERO_GAS_EIP2028`. -/
def txDataNonZeroGasEip2028 : U64 := 16

def arbDepositTxType : U8 := 100
def arbUnsignedTxType : U8 := 101
def arbContractTxType : U8 := 102
def arbRetryTxType : U8 := 104
def arbSubmitRetryableTxType : U8 := 105
def arbInternalTxType : U8 := 106
def arbLegacyTxType : U8 := 120

/-- `ESTIMATION_PADDING_UNITS`. -/
def estimationPaddingUnits : U64 := txDataNonZeroGasEip2028 * txDataNonZeroGasEip2028

/-- `ESTIMATION_PADDING_BASIS_POINTS`. -/
def estimationPaddingBasisPoints : U64 := 100

/-- `tx_type_has_poster_costs`: false for the types that ArbOS makes itself. -/
def txTypeHasPosterCosts (txType : U8) : Bool :=
  txType ∉ [arbDepositTxType, arbUnsignedTxType, arbContractTxType, arbRetryTxType,
    arbSubmitRetryableTxType, arbInternalTxType, arbLegacyTxType]

/-- The compressor of the crate `brotli`, over a vector. A write to a vector does not
fail. -/
class Brotli where
  compress : (bufferSize : Nat) → (quality lgwin : U32) → Bytes → Bytes

/-- `byte_count_after_brotli_level`. -/
def byteCountAfterBrotliLevel [Brotli] (input : Bytes) (level : U64) : U64 :=
  let quality := (if level < 11 then level else 11).setWidth 32
  vecLen (Brotli.compress 4096 quality 22 input)

namespace L1PricingState
variable [Brotli] {T : Type} [PosterTransaction T]

/-- The units of calldata of a transaction, without the cache. -/
def getPosterUnitsWithoutCache (_self : L1PricingState) (tx : T) (posterAddr : Address)
    (brotliCompressionLevel : U64) : U64 :=
  if posterAddr ≠ batchPosterAddress then 0
  else
    let txType := PosterTransaction.txType tx
    if ¬txTypeHasPosterCosts txType then 0
    else
      let txBytes := PosterTransaction.encode tx
      let l1Bytes := byteCountAfterBrotliLevel txBytes brotliCompressionLevel
      saturatingMul txDataNonZeroGasEip2028 l1Bytes

/-- The last lines of both functions: the price is read, and the units are charged. -/
def costOfUnits (self : L1PricingState) (units : U64) : Exec DbError (U256 × U64) := do
  let pricePerUnit ← self.pricePerUnit
  pure (saturatingMul pricePerUnit (U256.ofU64 units), units)

/-- The cost and the units of a transaction, and the transaction with its cache filled. -/
def getPosterInfo (self : L1PricingState) (tx : T) (poster : Address)
    (brotliCompressionLevel : U64) : Exec DbError (U256 × U64) × T :=
  if poster ≠ batchPosterAddress then (pure (0, 0), tx)
  else
    match PosterTransaction.getCachedCalldataUnits tx brotliCompressionLevel with
    | some cached => (self.costOfUnits cached, tx)
    | none =>
        let computed := self.getPosterUnitsWithoutCache tx poster brotliCompressionLevel
        (self.costOfUnits computed,
          PosterTransaction.setCachedCalldataUnits tx brotliCompressionLevel computed)

/-- The cost and the units of a message, and the message with its transaction changed. -/
def posterDataCost [Keccak] [AlloyRlp] (self : L1PricingState) (message : Message T)
    (poster : Address) (brotliCompressionLevel : U64) :
    Exec DbError (U256 × U64) × Message T :=
  match message.tx with
  | some tx =>
      let (cost, tx) := self.getPosterInfo tx poster brotliCompressionLevel
      (cost, { message with tx := some tx })
  | none =>
      let fake := makeFakeTxForMessage message
      let units := self.getPosterUnitsWithoutCache fake poster brotliCompressionLevel
      let oneInBips : U64 := 10000
      let units := saturatingMul (saturatingAdd units estimationPaddingUnits)
        (oneInBips + estimationPaddingBasisPoints) / oneInBips
      (self.costOfUnits units, message)

end L1PricingState

end ArbReth
