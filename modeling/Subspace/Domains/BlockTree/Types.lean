import Mathlib.Logic.Function.Basic
import Mathlib.Data.Nat.Notation

/-!
# The domain block tree: data

The storage of `pallet-domains` that the block tree reads and writes
(`block_tree.rs` and the receipt part of `submit_bundle`, `submit_receipt` and
`submit_fraud_proof` in `lib.rs`), for every domain at once: `BlockTree` and
`HeadReceiptNumber` are keyed by domain, `BlockTreeNodes` by receipt hash
alone, so the domains share one node map.

All hashes of a receipt are values of one type `H` with decidable equality;
`Default::default()` is `default`. Block numbers are `ℕ`.
-/

namespace Subspace.BlockTree

/-- `ExecutionReceiptV0`: what an operator claims a domain block did. The
inboxed bundles, the block fees and the transfers are left out. -/
structure ExecutionReceipt (H : Type) where
  domainBlockNumber : ℕ
  domainBlockHash : H
  domainBlockExtrinsicRoot : H
  parentDomainBlockReceiptHash : H
  consensusBlockNumber : ℕ
  consensusBlockHash : H
  finalStateRoot : H
  executionTrace : List H
  executionTraceRoot : H
deriving DecidableEq, Repr

/-- `ExecutionReceipt::genesis`: the receipt of a domain's block 0. -/
def ExecutionReceipt.genesis {H : Type} [Inhabited H]
    (genesisStateRoot genesisExtrinsicRoot genesisDomainBlockHash : H) : ExecutionReceipt H where
  domainBlockNumber := 0
  domainBlockHash := genesisDomainBlockHash
  domainBlockExtrinsicRoot := genesisExtrinsicRoot
  parentDomainBlockReceiptHash := default
  consensusBlockNumber := 0
  consensusBlockHash := default
  finalStateRoot := genesisStateRoot
  executionTrace := [genesisStateRoot]
  executionTraceRoot := default

/-- `BlockTreeNode`: a receipt and the operators who committed to it. -/
structure BlockTreeNode (H : Type) where
  executionReceipt : ExecutionReceipt H
  operatorIds : List ℕ
deriving DecidableEq, Repr

/-- `block_tree::Error`. -/
inductive Error where
  | invalidExtrinsicsRoots
  | unknownParentBlockReceipt
  | builtOnUnknownConsensusBlock
  | inFutureReceipt
  | prunedReceipt
  | staleReceipt
  | newBranchReceipt
  | badGenesisReceipt
  | unexpectedReceiptType
  | maxHeadDomainNumber
  | missingDomainBlock
  | invalidTraceRoot
  | invalidExecutionTrace
  | unavailableConsensusBlockHash
  | invalidStateRoot
  | balanceOverflow
  | domainTransfersTracking
  | invalidDomainTransfers
  | overwritingER
  | runtimeNotFound
  | lastBlockNotFound
  | unmatchedNewHeadReceipt
deriving DecidableEq, Repr

/-- `FraudProofError`, the variant the dispatch of a fraud proof returns. -/
inductive FraudProofError where
  | badReceiptNotFound
deriving DecidableEq, Repr

/-- The pallet's `Error`, for the calls of the model. -/
inductive PalletError where
  | blockTree (e : Error)
  | fraudProof (e : FraudProofError)
deriving DecidableEq, Repr

/-- `AcceptedReceiptType`. -/
inductive AcceptedReceiptType where
  /-- A receipt extending the head of the tree. -/
  | newHead
  /-- A receipt confirming the head receipt added in this consensus block. -/
  | currentHead
deriving DecidableEq, Repr

/-- `RejectedReceiptType`. -/
inductive RejectedReceiptType where
  | inFuture
  | pruned
  | stale
  | newBranch
deriving DecidableEq, Repr

/-- `ReceiptType`. -/
inductive ReceiptType where
  | accepted (receiptType : AcceptedReceiptType)
  | rejected (receiptType : RejectedReceiptType)
deriving DecidableEq, Repr

/-- `impl From<RejectedReceiptType> for Error`. -/
def RejectedReceiptType.toError : RejectedReceiptType → Error
  | .inFuture => .inFutureReceipt
  | .pruned => .prunedReceipt
  | .stale => .staleReceipt
  | .newBranch => .newBranchReceipt

/-- The storage of the block tree, for every domain. -/
structure State (H : Type) where
  /-- `BlockTree`: the receipt hash at each domain block number. -/
  blockTree : ℕ → ℕ → Option H
  /-- `BlockTreeNodes`, keyed by receipt hash. -/
  blockTreeNodes : H → Option (BlockTreeNode H)
  /-- `HeadReceiptNumber` (a `ValueQuery`). -/
  headReceiptNumber : ℕ → ℕ
  /-- `NewAddedHeadReceipt`: the head receipt added in this consensus block. -/
  newAddedHeadReceipt : ℕ → Option H
  /-- `LatestConfirmedDomainExecutionReceipt`. -/
  latestConfirmedDomainExecutionReceipt : ℕ → Option (ExecutionReceipt H)
  /-- `LatestSubmittedER`, keyed by domain and operator (a `ValueQuery`). -/
  latestSubmittedEr : ℕ → ℕ → ℕ
  /-- `HeadDomainNumber` (a `ValueQuery`). -/
  headDomainNumber : ℕ → ℕ
  /-- How many bundles of each domain `SuccessfulBundles` holds in this
  consensus block; only whether it is empty is read. -/
  successfulBundles : ℕ → ℕ
  /-- `NextDomainId`. -/
  nextDomainId : ℕ

/-- The storage before any domain is instantiated. -/
def State.empty {H : Type} : State H where
  blockTree := fun _ _ => none
  blockTreeNodes := fun _ => none
  headReceiptNumber := fun _ => 0
  newAddedHeadReceipt := fun _ => none
  latestConfirmedDomainExecutionReceipt := fun _ => none
  latestSubmittedEr := fun _ _ => 0
  headDomainNumber := fun _ => 0
  successfulBundles := fun _ => 0
  nextDomainId := 0

/-- The runtime constants and the hashing the block tree relies on. -/
structure BlockTreeConfig (H : Type) where
  /-- `BlockTreePruningDepth`: how far below the head a receipt is confirmed. -/
  blockTreePruningDepth : ℕ
  /-- `ExecutionReceipt::hash`. -/
  hash : ExecutionReceipt H → H
  /-- The state root of each domain's raw genesis, which holds its domain id
  (`into_complete_raw_genesis`). -/
  genesisStateRoot : ℕ → H
  /-- The hash of each domain's genesis block (`derive_domain_block_hash`). -/
  genesisDomainBlockHash : ℕ → H
  /-- `EMPTY_EXTRINSIC_ROOT`. -/
  emptyExtrinsicRoot : H

/-- The genesis receipt `do_instantiate_domain` imports for a domain. -/
def BlockTreeConfig.genesisReceipt {H : Type} [Inhabited H] (cfg : BlockTreeConfig H)
    (domainId : ℕ) : ExecutionReceipt H :=
  .genesis (cfg.genesisStateRoot domainId) cfg.emptyExtrinsicRoot
    (cfg.genesisDomainBlockHash domainId)

@[simp] theorem BlockTreeConfig.genesisReceipt_domainBlockNumber {H : Type} [Inhabited H]
    (cfg : BlockTreeConfig H) (domainId : ℕ) :
    (cfg.genesisReceipt domainId).domainBlockNumber = 0 := rfl

/-- Distinct domains have distinct genesis receipts when their genesis state
roots differ. -/
theorem BlockTreeConfig.genesisReceipt_injective {H : Type} [Inhabited H]
    {cfg : BlockTreeConfig H} (distinct : Function.Injective cfg.genesisStateRoot) :
    Function.Injective cfg.genesisReceipt := by
  intro first second same
  apply distinct
  have roots := congrArg ExecutionReceipt.finalStateRoot same
  exact roots

section Updates

variable {H : Type} (s : State H)

/-- Write `BlockTree[domainId][domainNumber]`. -/
def State.setBlockTree (domainId domainNumber : ℕ) (receiptHash : Option H) : State H :=
  let row := Function.update (s.blockTree domainId) domainNumber receiptHash
  { s with blockTree := Function.update s.blockTree domainId row }

/-- Write `BlockTreeNodes[receiptHash]`. -/
def State.setBlockTreeNode [DecidableEq H] (receiptHash : H) (node : Option (BlockTreeNode H)) :
    State H :=
  { s with blockTreeNodes := Function.update s.blockTreeNodes receiptHash node }

/-- Write `HeadReceiptNumber[domainId]`. -/
def State.setHeadReceiptNumber (domainId number : ℕ) : State H :=
  { s with headReceiptNumber := Function.update s.headReceiptNumber domainId number }

/-- Write `NewAddedHeadReceipt[domainId]`. -/
def State.setNewAddedHeadReceipt (domainId : ℕ) (receiptHash : Option H) : State H :=
  { s with newAddedHeadReceipt := Function.update s.newAddedHeadReceipt domainId receiptHash }

/-- Write `LatestConfirmedDomainExecutionReceipt[domainId]`. -/
def State.setLatestConfirmed (domainId : ℕ) (receipt : ExecutionReceipt H) : State H :=
  { s with latestConfirmedDomainExecutionReceipt :=
      Function.update s.latestConfirmedDomainExecutionReceipt domainId (some receipt) }

/-- Write `LatestSubmittedER[(domainId, operatorId)]`; `0` removes it. -/
def State.setLatestSubmittedEr (domainId operatorId number : ℕ) : State H :=
  let row := Function.update (s.latestSubmittedEr domainId) operatorId number
  { s with latestSubmittedEr := Function.update s.latestSubmittedEr domainId row }

@[simp] theorem State.setBlockTree_blockTree (d n : ℕ) (v : Option H) (d' n' : ℕ) :
    (s.setBlockTree d n v).blockTree d' n' =
      if d' = d ∧ n' = n then v else s.blockTree d' n' := by
  by_cases hd : d' = d
  · subst hd
    by_cases hn : n' = n
    · subst hn
      simp [State.setBlockTree]
    · simp [State.setBlockTree, hn]
  · simp [State.setBlockTree, hd]

@[simp] theorem State.setBlockTree_blockTreeNodes (d n : ℕ) (v : Option H) :
    (s.setBlockTree d n v).blockTreeNodes = s.blockTreeNodes := rfl

@[simp] theorem State.setBlockTree_headReceiptNumber (d n : ℕ) (v : Option H) :
    (s.setBlockTree d n v).headReceiptNumber = s.headReceiptNumber := rfl

@[simp] theorem State.setBlockTree_newAddedHeadReceipt (d n : ℕ) (v : Option H) :
    (s.setBlockTree d n v).newAddedHeadReceipt = s.newAddedHeadReceipt := rfl

@[simp] theorem State.setBlockTree_latestConfirmedDomainExecutionReceipt (d n : ℕ)
    (v : Option H) :
    (s.setBlockTree d n v).latestConfirmedDomainExecutionReceipt =
      s.latestConfirmedDomainExecutionReceipt := rfl

@[simp] theorem State.setBlockTree_headDomainNumber (d n : ℕ) (v : Option H) :
    (s.setBlockTree d n v).headDomainNumber = s.headDomainNumber := rfl

@[simp] theorem State.setBlockTree_nextDomainId (d n : ℕ) (v : Option H) :
    (s.setBlockTree d n v).nextDomainId = s.nextDomainId := rfl

@[simp] theorem State.setBlockTreeNode_blockTreeNodes [DecidableEq H]
    (h : H) (v : Option (BlockTreeNode H))
    (h' : H) : (s.setBlockTreeNode h v).blockTreeNodes h' = if h' = h then v else
      s.blockTreeNodes h' := by
  simp [State.setBlockTreeNode, Function.update_apply]

@[simp] theorem State.setBlockTreeNode_blockTree [DecidableEq H]
    (h : H) (v : Option (BlockTreeNode H)) :
    (s.setBlockTreeNode h v).blockTree = s.blockTree := rfl

@[simp] theorem State.setBlockTreeNode_headReceiptNumber [DecidableEq H]
    (h : H) (v : Option (BlockTreeNode H)) :
    (s.setBlockTreeNode h v).headReceiptNumber = s.headReceiptNumber := rfl

@[simp] theorem State.setBlockTreeNode_newAddedHeadReceipt [DecidableEq H] (h : H)
    (v : Option (BlockTreeNode H)) :
    (s.setBlockTreeNode h v).newAddedHeadReceipt = s.newAddedHeadReceipt := rfl

@[simp] theorem State.setBlockTreeNode_latestConfirmedDomainExecutionReceipt [DecidableEq H] (h : H)
    (v : Option (BlockTreeNode H)) :
    (s.setBlockTreeNode h v).latestConfirmedDomainExecutionReceipt =
      s.latestConfirmedDomainExecutionReceipt := rfl

@[simp] theorem State.setBlockTreeNode_headDomainNumber [DecidableEq H]
    (h : H) (v : Option (BlockTreeNode H)) :
    (s.setBlockTreeNode h v).headDomainNumber = s.headDomainNumber := rfl

@[simp] theorem State.setBlockTreeNode_nextDomainId [DecidableEq H]
    (h : H) (v : Option (BlockTreeNode H)) :
    (s.setBlockTreeNode h v).nextDomainId = s.nextDomainId := rfl

@[simp] theorem State.setHeadReceiptNumber_headReceiptNumber (d number d' : ℕ) :
    (s.setHeadReceiptNumber d number).headReceiptNumber d' =
      if d' = d then number else s.headReceiptNumber d' := by
  simp [State.setHeadReceiptNumber, Function.update_apply]

@[simp] theorem State.setHeadReceiptNumber_blockTree (d number : ℕ) :
    (s.setHeadReceiptNumber d number).blockTree = s.blockTree := rfl

@[simp] theorem State.setHeadReceiptNumber_blockTreeNodes (d number : ℕ) :
    (s.setHeadReceiptNumber d number).blockTreeNodes = s.blockTreeNodes := rfl

@[simp] theorem State.setHeadReceiptNumber_newAddedHeadReceipt (d number : ℕ) :
    (s.setHeadReceiptNumber d number).newAddedHeadReceipt = s.newAddedHeadReceipt := rfl

@[simp] theorem State.setHeadReceiptNumber_latestConfirmedDomainExecutionReceipt (d number : ℕ) :
    (s.setHeadReceiptNumber d number).latestConfirmedDomainExecutionReceipt =
      s.latestConfirmedDomainExecutionReceipt := rfl

@[simp] theorem State.setHeadReceiptNumber_headDomainNumber (d number : ℕ) :
    (s.setHeadReceiptNumber d number).headDomainNumber = s.headDomainNumber := rfl

@[simp] theorem State.setHeadReceiptNumber_nextDomainId (d number : ℕ) :
    (s.setHeadReceiptNumber d number).nextDomainId = s.nextDomainId := rfl

@[simp] theorem State.setNewAddedHeadReceipt_blockTree (d : ℕ) (v : Option H) :
    (s.setNewAddedHeadReceipt d v).blockTree = s.blockTree := rfl

@[simp] theorem State.setNewAddedHeadReceipt_blockTreeNodes (d : ℕ) (v : Option H) :
    (s.setNewAddedHeadReceipt d v).blockTreeNodes = s.blockTreeNodes := rfl

@[simp] theorem State.setNewAddedHeadReceipt_headReceiptNumber (d : ℕ) (v : Option H) :
    (s.setNewAddedHeadReceipt d v).headReceiptNumber = s.headReceiptNumber := rfl

@[simp] theorem State.setNewAddedHeadReceipt_latestConfirmedDomainExecutionReceipt (d : ℕ)
    (v : Option H) :
    (s.setNewAddedHeadReceipt d v).latestConfirmedDomainExecutionReceipt =
      s.latestConfirmedDomainExecutionReceipt := rfl

@[simp] theorem State.setNewAddedHeadReceipt_nextDomainId (d : ℕ) (v : Option H) :
    (s.setNewAddedHeadReceipt d v).nextDomainId = s.nextDomainId := rfl

@[simp] theorem State.setLatestConfirmed_latestConfirmedDomainExecutionReceipt (d : ℕ)
    (receipt : ExecutionReceipt H) (d' : ℕ) :
    (s.setLatestConfirmed d receipt).latestConfirmedDomainExecutionReceipt d' =
      if d' = d then some receipt else s.latestConfirmedDomainExecutionReceipt d' := by
  simp [State.setLatestConfirmed, Function.update_apply]

@[simp] theorem State.setLatestConfirmed_blockTree (d : ℕ) (receipt : ExecutionReceipt H) :
    (s.setLatestConfirmed d receipt).blockTree = s.blockTree := rfl

@[simp] theorem State.setLatestConfirmed_blockTreeNodes (d : ℕ) (receipt : ExecutionReceipt H) :
    (s.setLatestConfirmed d receipt).blockTreeNodes = s.blockTreeNodes := rfl

@[simp] theorem State.setLatestConfirmed_headReceiptNumber (d : ℕ)
    (receipt : ExecutionReceipt H) :
    (s.setLatestConfirmed d receipt).headReceiptNumber = s.headReceiptNumber := rfl

@[simp] theorem State.setLatestConfirmed_nextDomainId (d : ℕ) (receipt : ExecutionReceipt H) :
    (s.setLatestConfirmed d receipt).nextDomainId = s.nextDomainId := rfl

@[simp] theorem State.setLatestSubmittedEr_blockTree (d o number : ℕ) :
    (s.setLatestSubmittedEr d o number).blockTree = s.blockTree := rfl

@[simp] theorem State.setLatestSubmittedEr_blockTreeNodes (d o number : ℕ) :
    (s.setLatestSubmittedEr d o number).blockTreeNodes = s.blockTreeNodes := rfl

@[simp] theorem State.setLatestSubmittedEr_headReceiptNumber (d o number : ℕ) :
    (s.setLatestSubmittedEr d o number).headReceiptNumber = s.headReceiptNumber := rfl

@[simp] theorem State.setLatestSubmittedEr_newAddedHeadReceipt (d o number : ℕ) :
    (s.setLatestSubmittedEr d o number).newAddedHeadReceipt = s.newAddedHeadReceipt := rfl

@[simp] theorem State.setLatestSubmittedEr_latestConfirmedDomainExecutionReceipt
    (d o number : ℕ) :
    (s.setLatestSubmittedEr d o number).latestConfirmedDomainExecutionReceipt =
      s.latestConfirmedDomainExecutionReceipt := rfl

@[simp] theorem State.setLatestSubmittedEr_headDomainNumber (d o number : ℕ) :
    (s.setLatestSubmittedEr d o number).headDomainNumber = s.headDomainNumber := rfl

@[simp] theorem State.setLatestSubmittedEr_nextDomainId (d o number : ℕ) :
    (s.setLatestSubmittedEr d o number).nextDomainId = s.nextDomainId := rfl

end Updates

end Subspace.BlockTree
