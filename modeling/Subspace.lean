import Subspace.Lib.PerThing
import Subspace.Lib.BTree
import Subspace.Lib.Except
import Subspace.Lib.HashChain
import Subspace.Lib.IteratedMap
import Subspace.Lib.Enumerate
import Subspace.Lib.KeyedQueues
import Subspace.Lib.Runs
import Subspace.Lib.Bits
import Subspace.Lib.Rows
import Subspace.Domains.Staking.Types
import Subspace.Domains.Staking.SharePrice
import Subspace.Domains.Staking.Operations
import Subspace.Domains.Staking.Epoch
import Subspace.Domains.Staking.Spec
import Subspace.Domains.Staking.EpochSpec
import Subspace.Domains.Staking.Failures
import Subspace.Domains.Staking.Ledger
import Subspace.Domains.Staking.Solvency
import Subspace.Domains.Staking.StorageFee
import Subspace.Domains.Staking.EpochPrices
import Subspace.Domains.Staking.Withdrawals
import Subspace.Domains.Staking.Rounding
import Subspace.Domains.Staking.Rewards
import Subspace.Domains.BlockTree.Types
import Subspace.Domains.BlockTree.Operations
import Subspace.Domains.BlockTree.Spec
import Subspace.Domains.BlockTree.Chain
import Subspace.Domains.Extrinsics
import Subspace.ProofOfSpace.Verifier
import Subspace.ProofOfSpace.VerifierSpec
import Subspace.ProofOfSpace.Table
import Subspace.ProofOfSpace.TableSpec
import Subspace.ProofOfSpace.Tables
import Subspace.ProofOfSpace.TablesSpec
import Subspace.ProofOfSpace.ProofPacking
import Subspace.ProofOfSpace.Parallel
import Subspace.ProofOfSpace.ParallelSpec
import Subspace.Archiving.Codec
import Subspace.Archiving.Archiver
import Subspace.Archiving.Reconstructor
import Subspace.Archiving.ArchiverSpec
import Subspace.Archiving.Reconstruction
import Subspace.Archiving.Incremental
import Subspace.Archiving.Buffer
import Subspace.Consensus.TransactionFees
import Subspace.Consensus.Rewards
import Subspace.Consensus.SegmentHeaders
import Subspace.ProofOfTime.Aes
import Subspace.ProofOfTime.Justification
import Subspace.FarmerComponents.Sector
import Subspace.FarmerComponents.SectorSpec
import Subspace.Farmer.PieceCache
import Subspace.Farmer.PieceCacheSpec
import Subspace.Domains.Messenger.Bookkeeping
import Subspace.Domains.Messenger.Failures
import Subspace.Domains.Messenger.Relaying
