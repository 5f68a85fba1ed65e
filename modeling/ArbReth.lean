import ArbReth.Program.Interleave
import ArbReth.Proofs.AddressSet.AnyMember
import ArbReth.Proofs.AddressSet.Legacy
import ArbReth.Proofs.ArbosState.History
import ArbReth.Proofs.ArbosState.Interleaved
import ArbReth.Proofs.L1Pricing.Aggregate
import ArbReth.Proofs.L1Pricing.Books
import ArbReth.Proofs.L1Pricing.Calls
import ArbReth.Proofs.L1Pricing.Continuity
import ArbReth.Proofs.L1Pricing.CostCap
import ArbReth.Proofs.L1Pricing.Effect
import ArbReth.Proofs.L1Pricing.LegacyReference
import ArbReth.Proofs.L1Pricing.LegacySettlement
import ArbReth.Proofs.L1Pricing.PosterCost
import ArbReth.Proofs.L1Pricing.PosterMap
import ArbReth.Proofs.L1Pricing.Price
import ArbReth.Proofs.L1Pricing.PriceOrder
import ArbReth.Proofs.L1Pricing.PriceSign
import ArbReth.Proofs.L1Pricing.Solvency
import ArbReth.Proofs.L1Pricing.StoredSurplus
import ArbReth.Proofs.L1Pricing.Times
import ArbReth.Proofs.L1Pricing.Transactions
import ArbReth.Proofs.L2Pricing.Calls
import ArbReth.Proofs.L2Pricing.Migration
import ArbReth.Proofs.L2Pricing.MultiGasFees
import ArbReth.Proofs.L2Pricing.Transaction
import ArbReth.Proofs.Multigas.Charges
import ArbReth.Proofs.Multigas.Saturation
import ArbReth.Proofs.Precompiles.Dispatch
import ArbReth.Proofs.Storage.Bytes
import ArbReth.Proofs.Storage.Coherence
import ArbReth.Proofs.Storage.GasUsed
import ArbReth.Proofs.Storage.HashCache
import ArbReth.Proofs.Storage.History
import ArbReth.Proofs.Storage.Isolation
import ArbReth.Proofs.Storage.Metering
import ArbReth.Proofs.Storage.Protection
import ArbReth.Proofs.Storage.History
