import Subspace.Domains.BlockTree.Types
import Subspace.Lib.Except

/-!
# The domain block tree: operations

`block_tree.rs` and the calls of `lib.rs` that write the tree, in the order
of the source: the receipt type, its verification, pruning, adding a receipt,
the genesis import, and `process_execution_receipt`; then the calls
`submit_bundle`, `submit_receipt` and `submit_fraud_proof`, domain
instantiation and the end of a consensus block.

A call that fails leaves storage unchanged, so a failed call returns only
its error. What the tree does not read is left out: the staking calls that
`submit_bundle` makes (slashing the submitters of a pruned receipt, rewards,
the epoch transition), the execution inbox, the transfers and the runtime
upgrade records. They can only make a call fail, which the model covers by
the calls that succeed. The checks of `verify_execution_receipt` against
consensus storage the tree does not hold (`ConsensusBlockHash`,
`ExecutionInbox`, the runtime upgrade records and the Merkle root of the
trace) are one outcome `consensusChecks` that the caller supplies, and so is
the number of missed runtime upgrades `HeadDomainNumber` advances by.
-/

namespace Subspace.BlockTree

section Reads

variable {H : Type}

/-- `latest_confirmed_domain_block_number`: zero before any block is confirmed. -/
def State.latestConfirmedDomainBlockNumber (s : State H) (domainId : ℕ) : ℕ :=
  ((s.latestConfirmedDomainExecutionReceipt domainId).map ExecutionReceipt.domainBlockNumber).getD 0

/-- `does_receipt_exists`. -/
def doesReceiptExists [DecidableEq H] (s : State H) (domainId domainNumber : ℕ)
    (receiptHash : H) : Bool :=
  ((s.blockTree domainId domainNumber).map (· == receiptHash)).getD false

@[simp] theorem doesReceiptExists_eq_true [DecidableEq H] {s : State H}
    {domainId domainNumber : ℕ} {receiptHash : H} :
    doesReceiptExists s domainId domainNumber receiptHash = true ↔
      s.blockTree domainId domainNumber = some receiptHash := by
  unfold doesReceiptExists
  cases s.blockTree domainId domainNumber <;> simp

end Reads

variable {H : Type} [DecidableEq H] (cfg : BlockTreeConfig H)

/-- `execution_receipt_type`: where a receipt stands against the head of its
domain's tree. -/
def executionReceiptType (s : State H) (domainId : ℕ) (receipt : ExecutionReceipt H) :
    ReceiptType :=
  let receiptNumber := receipt.domainBlockNumber
  let headReceiptNumber := s.headReceiptNumber domainId
  let headReceiptExtended := (s.newAddedHeadReceipt domainId).isSome
  let nextReceiptNumber := headReceiptNumber + 1
  let latestConfirmedDomainBlockNumber := s.latestConfirmedDomainBlockNumber domainId
  match compare receiptNumber nextReceiptNumber with
  | .gt => .rejected .inFuture
  | .eq =>
    -- no two consecutive receipts in one consensus block
    if headReceiptExtended then .rejected .inFuture else .accepted .newHead
  | .lt =>
    if latestConfirmedDomainBlockNumber ≠ 0 ∧ receiptNumber ≤ latestConfirmedDomainBlockNumber then
      .rejected .pruned
    else if !doesReceiptExists s domainId receiptNumber (cfg.hash receipt) then
      .rejected .newBranch
    else
      let isFirstGenesisReceipt := receiptNumber = 0 ∧ s.headDomainNumber domainId = 0
      if receiptNumber = headReceiptNumber ∧ (headReceiptExtended ∨ isFirstGenesisReceipt) then
        .accepted .currentHead
      else .rejected .stale

/-- The checks of `verify_execution_receipt` for a receipt that is neither a
genesis receipt nor the head receipt added in this consensus block. The checks
against consensus storage that the model does not hold come in as
`consensusChecks`, at the place of the source where they stand. -/
def verifyDerivedReceipt (s : State H) (domainId : ℕ) (receipt : ExecutionReceipt H)
    (consensusChecks : Except Error Unit) : Except Error Unit := do
  if receipt.executionTrace.length < 2 then throw Error.invalidExecutionTrace
  consensusChecks
  match receipt.executionTrace.getLast? with
  | some expectedFinalStateRoot =>
    ensure (receipt.finalStateRoot = expectedFinalStateRoot) Error.invalidStateRoot
  | none => pure ()
  match receipt.domainBlockNumber with
  | 0 => pure ()
  | parentBlockNumber + 1 =>
    ensure (doesReceiptExists s domainId parentBlockNumber receipt.parentDomainBlockReceiptHash)
      Error.unknownParentBlockReceipt

/-- `verify_execution_receipt`. -/
def verifyExecutionReceipt (s : State H) (domainId : ℕ) (receipt : ExecutionReceipt H)
    (consensusChecks : Except Error Unit) : Except Error Unit :=
  match executionReceiptType cfg s domainId receipt with
  | .rejected rejectedReceiptType => throw rejectedReceiptType.toError
  | .accepted _ =>
    match s.newAddedHeadReceipt domainId with
    -- a receipt matching the head receipt added in this consensus block is not checked again
    | some newAddedHeadReceipt =>
      ensure (newAddedHeadReceipt = cfg.hash receipt) Error.unmatchedNewHeadReceipt
    | none =>
      -- the genesis receipt only has to be the one in the tree
      if receipt.domainBlockNumber = 0 then
        ensure (doesReceiptExists s domainId 0 (cfg.hash receipt)) Error.badGenesisReceipt
      else verifyDerivedReceipt s domainId receipt consensusChecks

/-- The loop of `prune_receipt` over the operators of a pruned node: the
operators whose latest submitted receipt it was lose their
`LatestSubmittedER`. -/
def removeLatestSubmittedErs (s : State H) (domainId : ℕ) (node : BlockTreeNode H) : State H :=
  node.operatorIds.foldl (fun s operatorId =>
    if node.executionReceipt.domainBlockNumber = s.latestSubmittedEr domainId operatorId then
      s.setLatestSubmittedEr domainId operatorId 0
    else s) s

/-- `prune_receipt`: take the receipt at a domain block number out of the
tree and its node out of `BlockTreeNodes`. -/
def pruneReceipt (s : State H) (domainId receiptNumber : ℕ) :
    Except Error (State H × Option (BlockTreeNode H)) := do
  let some receiptHash := s.blockTree domainId receiptNumber | return (s, none)
  let s := s.setBlockTree domainId receiptNumber none
  let some blockTreeNode := s.blockTreeNodes receiptHash | throw Error.missingDomainBlock
  let s := s.setBlockTreeNode receiptHash none
  return (removeLatestSubmittedErs s domainId blockTreeNode, some blockTreeNode)

/-- `add_new_receipt_to_block_tree`. -/
def addNewReceiptToBlockTree (s : State H) (domainId submitter : ℕ)
    (executionReceipt : ExecutionReceipt H) : Except Error (State H) := do
  let erHash := cfg.hash executionReceipt
  let domainBlockNumber := executionReceipt.domainBlockNumber
  ensure (s.blockTree domainId domainBlockNumber).isNone Error.overwritingER
  let s := s.setBlockTree domainId domainBlockNumber (some erHash)
  return s.setBlockTreeNode erHash (some ⟨executionReceipt, [submitter]⟩)

/-- `import_genesis_receipt`. -/
def importGenesisReceipt (s : State H) (domainId : ℕ) (genesisReceipt : ExecutionReceipt H) :
    State H :=
  let erHash := cfg.hash genesisReceipt
  let s := s.setLatestConfirmed domainId genesisReceipt
  let s := s.setBlockTree domainId genesisReceipt.domainBlockNumber (some erHash)
  s.setBlockTreeNode erHash (some ⟨genesisReceipt, []⟩)

/-- `ConfirmedDomainBlockInfo`, without the fees and the storage fee refunds. -/
structure ConfirmedDomainBlockInfo where
  consensusBlockNumber : ℕ
  domainBlockNumber : ℕ
  operatorIds : List ℕ
deriving DecidableEq, Repr

/-- The update of `LatestSubmittedER` at the end of `process_execution_receipt`. -/
def noteLatestSubmittedEr (s : State H) (domainId submitter receiptBlockNumber : ℕ) : State H :=
  if s.latestSubmittedEr domainId submitter < receiptBlockNumber then
    s.setLatestSubmittedEr domainId submitter receiptBlockNumber
  else s

/-- `process_execution_receipt`. A new head is added and the receipt the
pruning depth below it is confirmed; a receipt for the current head adds its
submitter to the node. The source returns early when the new head confirms
a block, and when the block to confirm is gone, skipping the update of
`LatestSubmittedER`. -/
def processExecutionReceipt (s : State H) (domainId submitter : ℕ)
    (executionReceipt : ExecutionReceipt H) (receiptType : AcceptedReceiptType) :
    Except Error (State H × Option ConfirmedDomainBlockInfo) := do
  let erHash := cfg.hash executionReceipt
  let receiptBlockNumber := executionReceipt.domainBlockNumber
  match receiptType with
  | .newHead =>
    let s ← addNewReceiptToBlockTree cfg s domainId submitter executionReceipt
    let s := s.setHeadReceiptNumber domainId receiptBlockNumber
    let s := s.setNewAddedHeadReceipt domainId (some erHash)
    if cfg.blockTreePruningDepth ≤ receiptBlockNumber then
      let toPrune := receiptBlockNumber - cfg.blockTreePruningDepth
      let (s, pruned) ← pruneReceipt s domainId toPrune
      match pruned with
      -- the block may be gone already, after a fraud proof reverted the head
      | none => return (s, none)
      | some ⟨confirmedReceipt, operatorIds⟩ =>
        let s := s.setLatestConfirmed domainId confirmedReceipt
        return (s, some ⟨confirmedReceipt.consensusBlockNumber, toPrune, operatorIds⟩)
    else
      return (noteLatestSubmittedEr s domainId submitter receiptBlockNumber, none)
  | .currentHead =>
    -- `BlockTreeNodes::mutate` with an `expect`: the node exists for a current head receipt
    let s := match s.blockTreeNodes erHash with
      | some node => s.setBlockTreeNode erHash (some { node with operatorIds := node.operatorIds ++ [submitter] })
      | none => s
    return (noteLatestSubmittedEr s domainId submitter receiptBlockNumber, none)

/-- The receipt part that `submit_bundle` and `submit_receipt` share: the
receipt type, the pruning of an earlier receipt at the height of a new head,
and `process_execution_receipt`. -/
def acceptReceipt (s : State H) (domainId operatorId : ℕ) (receipt : ExecutionReceipt H) :
    Except Error (State H × Option ConfirmedDomainBlockInfo) := do
  match executionReceiptType cfg s domainId receipt with
  | .rejected rejectedReceiptType => throw rejectedReceiptType.toError
  | .accepted acceptedReceiptType =>
    let s ← match acceptedReceiptType with
      | .newHead => do
        let (s, _) ← pruneReceipt s domainId receipt.domainBlockNumber
        pure s
      | .currentHead => pure s
    processExecutionReceipt cfg s domainId operatorId receipt acceptedReceiptType

/-- `submit_bundle`, after `validate_submit_bundle` has verified its receipt.
The first bundle of a domain in a consensus block advances
`HeadDomainNumber` by one and by the runtime upgrades missed since. -/
def submitBundle (s : State H) (domainId operatorId : ℕ) (receipt : ExecutionReceipt H)
    (consensusChecks : Except Error Unit) (missedUpgrade : ℕ) : Except Error (State H) := do
  verifyExecutionReceipt cfg s domainId receipt consensusChecks
  let (s, _) ← acceptReceipt cfg s domainId operatorId receipt
  let nextNumber := s.headDomainNumber domainId + 1 + missedUpgrade
  let s := if s.successfulBundles domainId = 0 then
      { s with headDomainNumber := Function.update s.headDomainNumber domainId nextNumber }
    else s
  let bundles := s.successfulBundles domainId + 1
  return { s with successfulBundles := Function.update s.successfulBundles domainId bundles }

/-- `submit_receipt`, after `validate_singleton_receipt` has verified it. -/
def submitReceipt (s : State H) (domainId operatorId : ℕ) (receipt : ExecutionReceipt H)
    (consensusChecks : Except Error Unit) : Except Error (State H) := do
  verifyExecutionReceipt cfg s domainId receipt consensusChecks
  let (s, _) ← acceptReceipt cfg s domainId operatorId receipt
  return s

/-- `submit_fraud_proof` for a proof that verified, and the sudo call
`prune_domain_execution_receipt`: the bad receipt is pruned and the head
goes back to the block before it. -/
def submitFraudProof (s : State H) (domainId : ℕ) (badReceiptHash : H) :
    Except PalletError (State H) := do
  let headReceiptNumber := s.headReceiptNumber domainId
  let some badNode := s.blockTreeNodes badReceiptHash
    | throw (PalletError.fraudProof .badReceiptNotFound)
  let badReceiptNumber := badNode.executionReceipt.domainBlockNumber
  ensure (badReceiptNumber ≤ headReceiptNumber) (PalletError.fraudProof .badReceiptNotFound)
  let (s, pruned) ← (pruneReceipt s domainId badReceiptNumber).mapError PalletError.blockTree
  let some _ := pruned | throw (PalletError.fraudProof .badReceiptNotFound)
  return s.setHeadReceiptNumber domainId (badReceiptNumber - 1)

/-- `do_instantiate_domain`: the next domain id is taken and the domain's
genesis receipt imported. -/
def instantiateDomain [Inhabited H] (s : State H) : State H :=
  let domainId := s.nextDomainId
  let s := { s with nextDomainId := domainId + 1 }
  importGenesisReceipt cfg s domainId (cfg.genesisReceipt domainId)

/-- The end of a consensus block and the start of the next: `on_finalize`
clears `NewAddedHeadReceipt`, `on_initialize` drains `SuccessfulBundles`. -/
def finalizeBlock (s : State H) : State H :=
  { s with newAddedHeadReceipt := fun _ => none, successfulBundles := fun _ => 0 }

/-- What can happen to the block tree. -/
inductive Action (H : Type) where
  | instantiateDomain
  | submitBundle (domainId operatorId : ℕ) (receipt : ExecutionReceipt H)
      (consensusChecks : Except Error Unit) (missedUpgrade : ℕ)
  | submitReceipt (domainId operatorId : ℕ) (receipt : ExecutionReceipt H)
      (consensusChecks : Except Error Unit)
  | submitFraudProof (domainId : ℕ) (badReceiptHash : H)
  | finalizeBlock

/-- One call; `none` for a call that fails. -/
def step [Inhabited H] (s : State H) : Action H → Option (State H)
  | .instantiateDomain => some (instantiateDomain cfg s)
  | .submitBundle domainId operatorId receipt consensusChecks missedUpgrade =>
    (submitBundle cfg s domainId operatorId receipt consensusChecks missedUpgrade).toOption
  | .submitReceipt domainId operatorId receipt consensusChecks =>
    (submitReceipt cfg s domainId operatorId receipt consensusChecks).toOption
  | .submitFraudProof domainId badReceiptHash =>
    (submitFraudProof s domainId badReceiptHash).toOption
  | .finalizeBlock => some (finalizeBlock s)

/-- The states reachable from genesis by any sequence of calls. -/
inductive Reachable [Inhabited H] : State H → Prop
  | empty : Reachable .empty
  | step {s s' : State H} (action : Action H) :
      Reachable s → step cfg s action = some s' → Reachable s'

/-- Run a list of calls, stopping at the first that fails. -/
def run [Inhabited H] : List (Action H) → State H → Option (State H)
  | [], s => some s
  | action :: rest, s => (step cfg s action).bind (run rest)

theorem reachable_of_run [Inhabited H] {actions : List (Action H)} {s s' : State H}
    (ran : run cfg actions s = some s') (start : Reachable cfg s) : Reachable cfg s' := by
  induction actions generalizing s with
  | nil =>
    cases ran
    exact start
  | cons action rest ih =>
    obtain ⟨next, stepped, ranRest⟩ := Option.bind_eq_some_iff.mp ran
    exact ih ranRest (.step action start stepped)

/-- A run from genesis that ends in a state with a decidable property
exhibits a reachable state with it. -/
theorem exists_reachable_of_run [Inhabited H] (actions : List (Action H)) {P : State H → Prop}
    [DecidablePred P] (ends : (run cfg actions .empty).any (fun s => decide (P s)) = true) :
    ∃ s, Reachable cfg s ∧ P s := by
  cases ran : run cfg actions .empty with
  | none =>
    rw [ran] at ends
    cases ends
  | some s =>
    rw [ran, Option.any_some, decide_eq_true_eq] at ends
    exact ⟨s, reachable_of_run cfg ran .empty, ends⟩

end Subspace.BlockTree
