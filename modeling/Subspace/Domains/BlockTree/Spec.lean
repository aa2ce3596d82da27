import Subspace.Domains.BlockTree.Operations

/-!
# The domain block tree: what each call does

One lemma for each function of `Operations`, saying what a successful call
wrote. The invariant proofs take a call apart with these and never unfold it.

1. `SameTree`: the writes of `NewAddedHeadReceipt`, `LatestSubmittedER`,
   `HeadDomainNumber` and `SuccessfulBundles` leave the storage that the
   tree's invariants read; `Untouched d` says a write to domain `d` leaves
   the rows, heads and confirmed receipts of the other domains.
2. `executionReceiptType_eq_newHead`, `executionReceiptType_eq_currentHead`:
   what the receipt type says of the receipt's number and of the tree.
3. `verifyExecutionReceipt_accepted`, `verifyExecutionReceipt_parent`: a
   verified receipt is accepted, and a new head's parent is in the tree.
4. `pruneReceipt_eq_ok`, `pruneReceipt_eq_error`,
   `addNewReceiptToBlockTree_eq_ok`, `processExecutionReceipt_newHead`,
   `processExecutionReceipt_currentHead`, `acceptReceipt_eq_ok`, and the calls
   `submitBundle_eq_ok`, `submitReceipt_eq_ok`, `submitFraudProof_eq_ok`.
-/

namespace Subspace.BlockTree

section Frame

variable {H : Type}

/-- Two states agree on the storage the block tree's invariants read: all
but `NewAddedHeadReceipt`, `LatestSubmittedER`, `HeadDomainNumber` and
`SuccessfulBundles`. -/
structure SameTree (s s' : State H) : Prop where
  blockTree : s'.blockTree = s.blockTree
  blockTreeNodes : s'.blockTreeNodes = s.blockTreeNodes
  headReceiptNumber : s'.headReceiptNumber = s.headReceiptNumber
  latestConfirmed : s'.latestConfirmedDomainExecutionReceipt =
    s.latestConfirmedDomainExecutionReceipt
  nextDomainId : s'.nextDomainId = s.nextDomainId

namespace SameTree

theorem refl (s : State H) : SameTree s s := ⟨rfl, rfl, rfl, rfl, rfl⟩

theorem trans {s₁ s₂ s₃ : State H} (first : SameTree s₁ s₂) (second : SameTree s₂ s₃) :
    SameTree s₁ s₃ where
  blockTree := second.blockTree.trans first.blockTree
  blockTreeNodes := second.blockTreeNodes.trans first.blockTreeNodes
  headReceiptNumber := second.headReceiptNumber.trans first.headReceiptNumber
  latestConfirmed := second.latestConfirmed.trans first.latestConfirmed
  nextDomainId := second.nextDomainId.trans first.nextDomainId

theorem setLatestSubmittedEr (s : State H) (d o n : ℕ) :
    SameTree s (s.setLatestSubmittedEr d o n) := ⟨rfl, rfl, rfl, rfl, rfl⟩

theorem setNewAddedHeadReceipt (s : State H) (d : ℕ) (v : Option H) :
    SameTree s (s.setNewAddedHeadReceipt d v) := ⟨rfl, rfl, rfl, rfl, rfl⟩

/-- Confirming the same receipt in two states that agree keeps them agreeing. -/
theorem setLatestConfirmed {s s' : State H} (same : SameTree s s') (d : ℕ)
    (receipt : ExecutionReceipt H) :
    SameTree (s.setLatestConfirmed d receipt) (s'.setLatestConfirmed d receipt) where
  blockTree := same.blockTree
  blockTreeNodes := same.blockTreeNodes
  headReceiptNumber := same.headReceiptNumber
  latestConfirmed := by
    simp only [State.setLatestConfirmed, same.latestConfirmed]
  nextDomainId := same.nextDomainId

end SameTree

theorem removeLatestSubmittedErs_sameTree [DecidableEq H] (s : State H) (d : ℕ)
    (node : BlockTreeNode H) : SameTree s (removeLatestSubmittedErs s d node) := by
  unfold removeLatestSubmittedErs
  -- each operator of the node at most loses its `LatestSubmittedER`
  refine foldl_invariant (SameTree s) (SameTree.refl s) ?_
  intro s' o _ same
  split
  · exact same.trans (SameTree.setLatestSubmittedEr s' d o 0)
  · exact same

theorem noteLatestSubmittedEr_sameTree (s : State H) (d o n : ℕ) :
    SameTree s (noteLatestSubmittedEr s d o n) := by
  unfold noteLatestSubmittedEr
  split
  · exact SameTree.setLatestSubmittedEr s d o n
  · exact SameTree.refl s

theorem finalizeBlock_sameTree (s : State H) : SameTree s (finalizeBlock s) :=
  ⟨rfl, rfl, rfl, rfl, rfl⟩

/-- The row of the written domain after a write of `BlockTree`. -/
theorem State.setBlockTree_row (s : State H) (d n : ℕ) (v : Option H) :
    (s.setBlockTree d n v).blockTree d = Function.update (s.blockTree d) n v := by
  simp [State.setBlockTree]

theorem State.setBlockTree_row_of_ne (s : State H) {d e : ℕ} (n : ℕ) (v : Option H)
    (other : e ≠ d) : (s.setBlockTree d n v).blockTree e = s.blockTree e := by
  simp [State.setBlockTree, other]

/-- What a write to domain `d` leaves of the other domains. -/
structure Untouched (d : ℕ) (s s' : State H) : Prop where
  blockTree : ∀ e, e ≠ d → s'.blockTree e = s.blockTree e
  headReceiptNumber : ∀ e, e ≠ d → s'.headReceiptNumber e = s.headReceiptNumber e
  latestConfirmed : ∀ e, e ≠ d →
    s'.latestConfirmedDomainExecutionReceipt e = s.latestConfirmedDomainExecutionReceipt e

section Untouched

variable {s s' s'' : State H} {d : ℕ}

theorem Untouched.trans (first : Untouched d s s') (second : Untouched d s' s'') :
    Untouched d s s'' where
  blockTree e other := (second.blockTree e other).trans (first.blockTree e other)
  headReceiptNumber e other :=
    (second.headReceiptNumber e other).trans (first.headReceiptNumber e other)
  latestConfirmed e other := (second.latestConfirmed e other).trans (first.latestConfirmed e other)

theorem Untouched.of_sameTree (same : SameTree s s') : Untouched d s s' where
  blockTree e _ := by rw [same.blockTree]
  headReceiptNumber e _ := by rw [same.headReceiptNumber]
  latestConfirmed e _ := by rw [same.latestConfirmed]

theorem Untouched.setBlockTree (n : ℕ) (v : Option H) : Untouched d s (s.setBlockTree d n v) where
  blockTree _ other := State.setBlockTree_row_of_ne s n v other
  headReceiptNumber _ _ := rfl
  latestConfirmed _ _ := rfl

theorem Untouched.setBlockTreeNode [DecidableEq H] (h : H) (v : Option (BlockTreeNode H)) :
    Untouched d s (s.setBlockTreeNode h v) := ⟨fun _ _ => rfl, fun _ _ => rfl, fun _ _ => rfl⟩

theorem Untouched.setHeadReceiptNumber (number : ℕ) :
    Untouched d s (s.setHeadReceiptNumber d number) where
  blockTree _ _ := rfl
  headReceiptNumber e other := by simp [other]
  latestConfirmed _ _ := rfl

theorem Untouched.setLatestConfirmed (receipt : ExecutionReceipt H) :
    Untouched d s (s.setLatestConfirmed d receipt) where
  blockTree _ _ := rfl
  headReceiptNumber _ _ := rfl
  latestConfirmed e other := by simp [other]

theorem State.latestConfirmedDomainBlockNumber_congr
    (same : s'.latestConfirmedDomainExecutionReceipt d = s.latestConfirmedDomainExecutionReceipt d) :
    s'.latestConfirmedDomainBlockNumber d = s.latestConfirmedDomainBlockNumber d := by
  unfold State.latestConfirmedDomainBlockNumber
  rw [same]

@[simp] theorem State.latestConfirmedDomainBlockNumber_setLatestConfirmed
    (receipt : ExecutionReceipt H) :
    (s.setLatestConfirmed d receipt).latestConfirmedDomainBlockNumber d =
      receipt.domainBlockNumber := by
  simp [State.latestConfirmedDomainBlockNumber]

end Untouched

end Frame

variable {H : Type} [DecidableEq H] {cfg : BlockTreeConfig H}

section ReceiptType

variable {s : State H} {d : ℕ} {r : ExecutionReceipt H}

/-- A receipt extends the head exactly when it is numbered one above it and no
head was added in this consensus block. -/
theorem executionReceiptType_eq_newHead :
    executionReceiptType cfg s d r = .accepted .newHead ↔
      r.domainBlockNumber = s.headReceiptNumber d + 1 ∧ s.newAddedHeadReceipt d = none := by
  unfold executionReceiptType
  dsimp only
  rcases Nat.lt_trichotomy r.domainBlockNumber (s.headReceiptNumber d + 1)
    with below | same | above
  · rw [Nat.compare_eq_lt.mpr below]
    simp only
    split_ifs <;> simp [Nat.ne_of_lt below]
  · rw [Nat.compare_eq_eq.mpr same]
    cases added : s.newAddedHeadReceipt d <;> simp [same]
  · rw [Nat.compare_eq_gt.mpr above]
    simp [Nat.ne_of_gt above]

/-- A receipt for the current head is the one the tree holds at the head. -/
theorem executionReceiptType_eq_currentHead
    (typed : executionReceiptType cfg s d r = .accepted .currentHead) :
    r.domainBlockNumber = s.headReceiptNumber d ∧
      s.blockTree d r.domainBlockNumber = some (cfg.hash r) := by
  unfold executionReceiptType at typed
  dsimp only at typed
  rcases Nat.lt_trichotomy r.domainBlockNumber (s.headReceiptNumber d + 1)
    with below | same | above
  · rw [Nat.compare_eq_lt.mpr below] at typed
    simp only at typed
    split_ifs at typed with pruned notHeld current
    · simp only [Bool.not_eq_true', Bool.not_eq_false] at notHeld
      exact ⟨current.1, doesReceiptExists_eq_true.mp notHeld⟩
  · rw [Nat.compare_eq_eq.mpr same] at typed
    simp only at typed
    split_ifs at typed
    cases typed
  · rw [Nat.compare_eq_gt.mpr above] at typed
    cases typed

end ReceiptType

section Verify

variable {s : State H} {d : ℕ} {r : ExecutionReceipt H} {consensusChecks : Except Error Unit}

/-- A verified receipt is of an accepted type. -/
theorem verifyExecutionReceipt_accepted
    (verified : verifyExecutionReceipt cfg s d r consensusChecks = .ok ()) :
    ∃ receiptType, executionReceiptType cfg s d r = .accepted receiptType := by
  cases typed : executionReceiptType cfg s d r with
  | accepted receiptType => exact ⟨receiptType, rfl⟩
  | rejected receiptType => simp [verifyExecutionReceipt, typed] at verified

/-- The derived checks hold only if the receipt's parent is in the tree. -/
theorem verifyDerivedReceipt_parent
    (verified : verifyDerivedReceipt s d r consensusChecks = .ok ())
    (positive : 0 < r.domainBlockNumber) :
    s.blockTree d (r.domainBlockNumber - 1) = some r.parentDomainBlockReceiptHash := by
  obtain ⟨parentNumber, numbered⟩ : ∃ p, r.domainBlockNumber = p + 1 :=
    ⟨r.domainBlockNumber - 1, by omega⟩
  rw [numbered, Nat.add_sub_cancel]
  unfold verifyDerivedReceipt at verified
  dsimp only at verified
  rw [numbered] at verified
  split_ifs at verified with short
  · simp [throw, throwThe, MonadExceptOf.throw] at verified
  · simp only [Except.bind_eq_ok] at verified
    obtain ⟨_, -, verified⟩ := verified
    -- the parent's check comes last, after the state root's if the trace has one
    split at verified
    · simp only [Except.bind_eq_ok] at verified
      obtain ⟨_, -, parent⟩ := verified
      exact doesReceiptExists_eq_true.mp (ensure_eq_ok.mp parent)
    · exact doesReceiptExists_eq_true.mp (ensure_eq_ok.mp verified)

/-- A verified receipt, when no head was added in this consensus block and
it is not a genesis receipt, has its parent in the tree. -/
theorem verifyExecutionReceipt_parent
    (verified : verifyExecutionReceipt cfg s d r consensusChecks = .ok ())
    (fresh : s.newAddedHeadReceipt d = none) (positive : 0 < r.domainBlockNumber) :
    s.blockTree d (r.domainBlockNumber - 1) = some r.parentDomainBlockReceiptHash := by
  obtain ⟨receiptType, typed⟩ := verifyExecutionReceipt_accepted verified
  simp only [verifyExecutionReceipt, typed, fresh, Nat.ne_of_gt positive, if_false] at verified
  exact verifyDerivedReceipt_parent verified positive

end Verify

section Prune

variable {s s' : State H} {d n : ℕ}

/-- `prune_receipt` either finds nothing at the number and leaves the state,
or takes out the receipt there and its node. -/
theorem pruneReceipt_eq_ok {pruned : Option (BlockTreeNode H)}
    (ok : pruneReceipt s d n = .ok (s', pruned)) :
    (s.blockTree d n = none ∧ s' = s ∧ pruned = none) ∨
      ∃ h node, s.blockTree d n = some h ∧ s.blockTreeNodes h = some node ∧
        pruned = some node ∧ SameTree ((s.setBlockTree d n none).setBlockTreeNode h none) s' := by
  unfold pruneReceipt at ok
  cases held : s.blockTree d n with
  | none =>
    simp only [held, pure, Except.pure, Except.ok.injEq, Prod.mk.injEq] at ok
    exact .inl ⟨rfl, ok.1.symm, ok.2.symm⟩
  | some h =>
    cases stored : s.blockTreeNodes h with
    | none => simp [held, stored, throw, throwThe, MonadExceptOf.throw] at ok
    | some node =>
      simp only [held, State.setBlockTree_blockTreeNodes, stored, pure, Except.pure,
        Except.ok.injEq, Prod.mk.injEq] at ok
      obtain ⟨written, rfl⟩ := ok
      exact .inr ⟨h, node, rfl, stored, rfl,
        written ▸ removeLatestSubmittedErs_sameTree _ d node⟩

/-- `prune_receipt` fails only with `MissingDomainBlock`, for a receipt in the
tree without a node. -/
theorem pruneReceipt_eq_error {e : Error} (failed : pruneReceipt s d n = .error e) :
    e = .missingDomainBlock ∧ ∃ h, s.blockTree d n = some h ∧ s.blockTreeNodes h = none := by
  unfold pruneReceipt at failed
  cases held : s.blockTree d n with
  | none => simp [held, pure, Except.pure] at failed
  | some h =>
    cases stored : s.blockTreeNodes h with
    | none =>
      simp only [held, State.setBlockTree_blockTreeNodes, stored] at failed
      exact ⟨(Except.error.inj failed).symm, h, rfl, stored⟩
    | some node => simp [held, stored, pure, Except.pure] at failed

end Prune

section Process

variable {s s' : State H} {d submitter : ℕ} {r : ExecutionReceipt H}
  {info : Option ConfirmedDomainBlockInfo}

theorem addNewReceiptToBlockTree_eq_ok
    (ok : addNewReceiptToBlockTree cfg s d submitter r = .ok s') :
    s.blockTree d r.domainBlockNumber = none ∧
      s' = (s.setBlockTree d r.domainBlockNumber (some (cfg.hash r))).setBlockTreeNode
        (cfg.hash r) (some ⟨r, [submitter]⟩) := by
  simp only [addNewReceiptToBlockTree, Except.bind_eq_ok, ensure_eq_ok, Option.isNone_iff_eq_none,
    pure, Except.pure, Except.ok.injEq] at ok
  obtain ⟨_, empty, written⟩ := ok
  exact ⟨empty, written.symm⟩

/-- A new head is added and becomes the head; below the depth nothing more
changes the tree, and at the depth the receipt the depth below is pruned and,
if it was there, confirmed. -/
theorem processExecutionReceipt_newHead
    (ok : processExecutionReceipt cfg s d submitter r .newHead = .ok (s', info)) :
    ∃ s₁ s₂, addNewReceiptToBlockTree cfg s d submitter r = .ok s₁ ∧
      s₂ = (s₁.setHeadReceiptNumber d r.domainBlockNumber).setNewAddedHeadReceipt d
        (some (cfg.hash r)) ∧
      ((r.domainBlockNumber < cfg.blockTreePruningDepth ∧ SameTree s₂ s') ∨
        (cfg.blockTreePruningDepth ≤ r.domainBlockNumber ∧
          (pruneReceipt s₂ d (r.domainBlockNumber - cfg.blockTreePruningDepth) = .ok (s', none) ∨
            ∃ s₃ node, pruneReceipt s₂ d (r.domainBlockNumber - cfg.blockTreePruningDepth) =
              .ok (s₃, some node) ∧ s' = s₃.setLatestConfirmed d node.executionReceipt))) := by
  simp only [processExecutionReceipt, Except.bind_eq_ok] at ok
  obtain ⟨s₁, added, ok⟩ := ok
  refine ⟨s₁, _, added, rfl, ?_⟩
  split_ifs at ok with reached
  · -- at the depth: the pruned receipt, if any, is the one confirmed
    simp only [Except.bind_eq_ok] at ok
    obtain ⟨⟨s₃, pruned⟩, prunedOk, ok⟩ := ok
    refine .inr ⟨reached, ?_⟩
    cases pruned with
    | none =>
      simp only [pure, Except.pure, Except.ok.injEq, Prod.mk.injEq] at ok
      exact .inl (ok.1 ▸ prunedOk)
    | some node =>
      simp only [pure, Except.pure, Except.ok.injEq, Prod.mk.injEq] at ok
      exact .inr ⟨s₃, node, prunedOk, ok.1.symm⟩
  · simp only [pure, Except.pure, Except.ok.injEq, Prod.mk.injEq] at ok
    exact .inl ⟨Nat.lt_of_not_le reached, ok.1 ▸ noteLatestSubmittedEr_sameTree _ d submitter _⟩

/-- A receipt for the current head only adds its submitter to the node. -/
theorem processExecutionReceipt_currentHead
    (ok : processExecutionReceipt cfg s d submitter r .currentHead = .ok (s', info)) :
    (s.blockTreeNodes (cfg.hash r) = none ∧ SameTree s s') ∨
      ∃ node, s.blockTreeNodes (cfg.hash r) = some node ∧
        SameTree (s.setBlockTreeNode (cfg.hash r)
          (some { node with operatorIds := node.operatorIds ++ [submitter] })) s' := by
  simp only [processExecutionReceipt, pure, Except.pure, Except.ok.injEq, Prod.mk.injEq] at ok
  obtain ⟨written, -⟩ := ok
  cases stored : s.blockTreeNodes (cfg.hash r) with
  | none =>
    simp only [stored] at written
    exact .inl ⟨rfl, written ▸ noteLatestSubmittedEr_sameTree _ d submitter _⟩
  | some node =>
    simp only [stored] at written
    exact .inr ⟨node, rfl, written ▸ noteLatestSubmittedEr_sameTree _ d submitter _⟩

/-- The receipt part of `submit_bundle` and `submit_receipt`: a new head
first prunes what the tree held at its number. -/
theorem acceptReceipt_eq_ok {o : ℕ}
    (ok : acceptReceipt cfg s d o r = .ok (s', info)) :
    (executionReceiptType cfg s d r = .accepted .newHead ∧
      ∃ s₀ pruned, pruneReceipt s d r.domainBlockNumber = .ok (s₀, pruned) ∧
        processExecutionReceipt cfg s₀ d o r .newHead = .ok (s', info)) ∨
      (executionReceiptType cfg s d r = .accepted .currentHead ∧
        processExecutionReceipt cfg s d o r .currentHead = .ok (s', info)) := by
  unfold acceptReceipt at ok
  cases typed : executionReceiptType cfg s d r with
  | rejected receiptType => simp [typed] at ok
  | accepted receiptType =>
    cases receiptType with
    | newHead =>
      simp only [typed, Except.bind_eq_ok, pure, Except.pure, Except.ok.injEq] at ok
      obtain ⟨⟨s₀, pruned⟩, prunedOk, _, rfl, processed⟩ := ok
      exact .inl ⟨rfl, s₀, pruned, prunedOk, processed⟩
    | currentHead =>
      simp only [typed, Except.bind_eq_ok, pure, Except.pure, Except.ok.injEq] at ok
      obtain ⟨_, rfl, processed⟩ := ok
      exact .inr ⟨rfl, processed⟩

end Process

section Calls

variable {s s' : State H} {d o : ℕ} {r : ExecutionReceipt H} {consensusChecks : Except Error Unit}

/-- `submit_bundle` verified its receipt and accepted it; the rest of the call
only counts the bundle. -/
theorem submitBundle_eq_ok {missedUpgrade : ℕ}
    (ok : submitBundle cfg s d o r consensusChecks missedUpgrade = .ok s') :
    verifyExecutionReceipt cfg s d r consensusChecks = .ok () ∧
      ∃ s₁ info, acceptReceipt cfg s d o r = .ok (s₁, info) ∧ SameTree s₁ s' := by
  simp only [submitBundle, Except.bind_eq_ok, pure, Except.pure, Except.ok.injEq] at ok
  obtain ⟨_, verified, ⟨s₁, info⟩, accepted, written⟩ := ok
  refine ⟨verified, s₁, info, accepted, ?_⟩
  rw [← written]
  split <;> exact ⟨rfl, rfl, rfl, rfl, rfl⟩

theorem submitReceipt_eq_ok (ok : submitReceipt cfg s d o r consensusChecks = .ok s') :
    verifyExecutionReceipt cfg s d r consensusChecks = .ok () ∧
      ∃ info, acceptReceipt cfg s d o r = .ok (s', info) := by
  simp only [submitReceipt, Except.bind_eq_ok, pure, Except.pure, Except.ok.injEq] at ok
  obtain ⟨_, verified, ⟨s₁, info⟩, accepted, rfl⟩ := ok
  exact ⟨verified, info, accepted⟩

/-- A fraud proof pruned a receipt at or below the head, at the number of the
bad receipt, and took the head back below it. -/
theorem submitFraudProof_eq_ok {badReceiptHash : H}
    (ok : submitFraudProof s d badReceiptHash = .ok s') :
    ∃ badNode, s.blockTreeNodes badReceiptHash = some badNode ∧
      badNode.executionReceipt.domainBlockNumber ≤ s.headReceiptNumber d ∧
      ∃ s₁ pruned, pruneReceipt s d badNode.executionReceipt.domainBlockNumber =
          .ok (s₁, some pruned) ∧
        s' = s₁.setHeadReceiptNumber d (badNode.executionReceipt.domainBlockNumber - 1) := by
  unfold submitFraudProof at ok
  cases stored : s.blockTreeNodes badReceiptHash with
  | none => simp [stored, throw, throwThe, MonadExceptOf.throw] at ok
  | some badNode =>
    simp only [stored, Except.bind_eq_ok, ensure_eq_ok, Except.mapError_eq_ok] at ok
    obtain ⟨_, below, ⟨s₁, pruned⟩, prunedOk, ok⟩ := ok
    cases pruned with
    | none => simp [throw, throwThe, MonadExceptOf.throw] at ok
    | some node =>
      simp only [pure, Except.pure, Except.ok.injEq] at ok
      exact ⟨badNode, rfl, below, s₁, node, prunedOk, ok.symm⟩

end Calls

end Subspace.BlockTree
