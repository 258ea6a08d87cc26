import ChainLedger.Main
import ChainLedger.Proofs.Wire.Record
import ChainLedger.Proofs.Wire.Size
import ChainLedger.Proofs.Wire.Extension
import ChainLedger.Proofs.Wire.Stream
import ChainLedger.Proofs.Wire.TwosComplement
import ChainLedger.Proofs.Amount.Text
import ChainLedger.Proofs.Spelling
import ChainLedger.Proofs.Store.Canonical
import ChainLedger.Proofs.Transaction.BalanceChange
import ChainLedger.Proofs.Transaction.Orphan
import ChainLedger.Proofs.Transaction.Signing
import ChainLedger.Proofs.Transaction.Involvement
import ChainLedger.Proofs.Transaction.Lifecycle
import ChainLedger.Proofs.Transaction.Independence
import ChainLedger.Proofs.Transaction.Reportable
import ChainLedger.Proofs.Transaction.Transmission
import ChainLedger.Proofs.Transaction.Affordability
import ChainLedger.Proofs.Transaction.Failure
import ChainLedger.Proofs.Run.Solvency
import ChainLedger.Proofs.Run.ReferenceChain
import ChainLedger.Proofs.Run.Deployment
import ChainLedger.Proofs.Run.Allocation
import ChainLedger.Proofs.Run.Publication
import ChainLedger.Proofs.Run.Voting
import ChainLedger.Proofs.Run.Pool
import ChainLedger.Proofs.Run.Registry
import ChainLedger.Proofs.Run.AtHistory
import ChainLedger.Proofs.Tool.Authority
import ChainLedger.Proofs.Tool.Batch
