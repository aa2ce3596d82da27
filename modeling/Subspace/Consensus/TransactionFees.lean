import Mathlib

/-!
# Transaction fees

`pallet-transaction-fees` (`src/crates/pallet-transaction-fees/src/lib.rs`). A block collects
the storage fees, compute fees and tips of its transactions (`note_transaction_fees`), and
`do_finalize` credits their total to the block author, or burns it when the block has no reward
address. The author is looked up once, in `do_initialize` (`FindBlockRewardAddress` of
`pallet-subspace`: no address when the author equivocated or rewards are not enabled yet), and
kept in the storage item `BlockAuthor` until the end of the block.

`do_finalize` takes `BlockAuthor` out of storage only when the block collected fees, and
`do_initialize` writes it only when an author is found. So the author of a block without fees
stays in storage, and the fees of a later block without a reward address are paid to that
earlier author instead of being burned (`fees_paid_to_earlier_author`).

Balances are natural numbers: the `u128` sums of one block's fees do not wrap.
-/

namespace Subspace.Consensus

variable {AccountId : Type}

/-- `CollectedFees`. -/
structure CollectedFees where
  storage : ℕ
  compute : ℕ
  tips : ℕ
deriving DecidableEq, Repr

/-- The fees of a block together. -/
def CollectedFees.total (fees : CollectedFees) : ℕ := fees.storage + fees.compute + fees.tips

/-- `BlockTransactionByteFee`. -/
structure BlockTransactionByteFee where
  current : ℕ
  next : ℕ
deriving DecidableEq, Repr

/-- The constants of the pallet's `Config` that its functions read. The
replication factor is not zero: `calculate_transaction_byte_fee` divides by
it. -/
structure TransactionFeesConfig where
  minReplicationFactor : ℕ
  creditSupply : ℕ
  totalSpacePledged : ℕ
  blockchainHistorySize : ℕ
  dynamicCostOfStorage : Bool
  minReplicationFactor_pos : 0 < minReplicationFactor

/-- The pallet's storage. -/
structure TransactionFees (AccountId : Type) where
  transactionByteFee : BlockTransactionByteFee
  isDuringBlockExecution : Bool
  blockAuthor : Option AccountId
  collectedBlockFees : Option CollectedFees
deriving DecidableEq

/-- `Event`. -/
inductive TransactionFeesEvent (AccountId : Type)
  /-- `BlockFees { who, storage, compute, tips }`. -/
  | blockFees (who : AccountId) (storage compute tips : ℕ)
  /-- `BurnedBlockFees { storage, compute, tips }`. -/
  | burnedBlockFees (storage compute tips : ℕ)
deriving DecidableEq

/-- What `do_finalize` does outside the pallet's storage: the balances it credits with
`Currency::deposit_creating`, and the events it deposits. -/
structure FeeEffects (AccountId : Type) where
  credits : List (AccountId × ℕ)
  events : List (TransactionFeesEvent AccountId)
deriving DecidableEq

/-- The genesis storage: both byte fees at `Balance::max_value()`, nothing else set. -/
def TransactionFees.genesis : TransactionFees AccountId :=
  ⟨⟨2 ^ 128 - 1, 2 ^ 128 - 1⟩, false, none, none⟩

/-- `FindBlockRewardAddress::find_block_reward_address` of `pallet-subspace`: the reward
address of the block author, if the author did not equivocate (`CurrentBlockAuthorInfo` is set)
and rewards are enabled at this block. -/
def findBlockRewardAddress (currentBlockAuthorInfo : Option (Option AccountId))
    (enableRewards : Option ℕ) (currentBlockNumber : ℕ) : Option AccountId :=
  currentBlockAuthorInfo.bind fun rewardAddress =>
    match enableRewards with
    | some height => if height ≤ currentBlockNumber then rewardAddress else none
    | none => none

/-- `calculate_transaction_byte_fee`: the credit supply shared over the space that is free. -/
def calculateTransactionByteFee (config : TransactionFeesConfig) : ℕ :=
  let spacePerReplica := config.totalSpacePledged / config.minReplicationFactor
  -- `checked_sub`
  if config.blockchainHistorySize ≤ spacePerReplica then
    let freeSpace := spacePerReplica - config.blockchainHistorySize
    if 0 < freeSpace then config.creditSupply / freeSpace else config.creditSupply
  else config.creditSupply

/-- `transaction_byte_fee`: the fee of the block being executed, or the one to validate
transactions for the next block. -/
def TransactionFees.byteFee (config : TransactionFeesConfig) (pallet : TransactionFees AccountId) :
    ℕ :=
  if !config.dynamicCostOfStorage then 1
  else if pallet.isDuringBlockExecution then pallet.transactionByteFee.current
  else pallet.transactionByteFee.next

/-- `do_initialize`, with the reward address `find_block_reward_address` returned. -/
def TransactionFees.doInitialize (rewardAddress : Option AccountId)
    (pallet : TransactionFees AccountId) : TransactionFees AccountId :=
  { pallet with
    -- the author may have equivocated, and then nothing is written
    blockAuthor := match rewardAddress with
      | some blockAuthor => some blockAuthor
      | none => pallet.blockAuthor
    collectedBlockFees := some ⟨0, 0, 0⟩
    transactionByteFee := { pallet.transactionByteFee with current := pallet.transactionByteFee.next }
    isDuringBlockExecution := true }

/-- `note_transaction_fees`: nothing is collected outside a block (transaction validation). -/
def TransactionFees.noteTransactionFees (storageFee computeFee tip : ℕ)
    (pallet : TransactionFees AccountId) : TransactionFees AccountId :=
  { pallet with
    collectedBlockFees := pallet.collectedBlockFees.map fun fees =>
      ⟨fees.storage + storageFee, fees.compute + computeFee, fees.tips + tip⟩ }

/-- `do_finalize`. It is `none` where the source panics: `CollectedBlockFees` was not set by
`do_initialize`. -/
def TransactionFees.doFinalize (config : TransactionFeesConfig)
    (pallet : TransactionFees AccountId) : Option (FeeEffects AccountId × TransactionFees AccountId) :=
  let pallet := { pallet with
    transactionByteFee := { pallet.transactionByteFee with next := calculateTransactionByteFee config }
    isDuringBlockExecution := false }
  match pallet.collectedBlockFees with
  | none => none
  | some collectedFees =>
    let pallet := { pallet with collectedBlockFees := none }
    let total := collectedFees.total
    if total ≠ 0 then
      match pallet.blockAuthor with
      | some blockAuthor =>
        some (⟨[(blockAuthor, total)],
            [.blockFees blockAuthor collectedFees.storage collectedFees.compute collectedFees.tips]⟩,
          { pallet with blockAuthor := none })
      | none =>
        -- the author equivocated: the fees are burned
        some (⟨[], [.burnedBlockFees collectedFees.storage collectedFees.compute collectedFees.tips]⟩,
          pallet)
    else some (⟨[], []⟩, pallet)

/-- A consensus block as the pallet sees it: the reward address found when it is initialized,
and the fees of its transactions, in the order they are noted. -/
structure FeeBlock (AccountId : Type) where
  rewardAddress : Option AccountId
  fees : List CollectedFees

/-- The fees of a block together. -/
def FeeBlock.total (block : FeeBlock AccountId) : ℕ := (block.fees.map CollectedFees.total).sum

/-- `do_initialize`, every `note_transaction_fees` of the block, then `do_finalize`. -/
def TransactionFees.runBlock (config : TransactionFeesConfig) (pallet : TransactionFees AccountId)
    (block : FeeBlock AccountId) : Option (FeeEffects AccountId × TransactionFees AccountId) :=
  let executed := block.fees.foldl
    (fun pallet fees => pallet.noteTransactionFees fees.storage fees.compute fees.tips)
    (pallet.doInitialize block.rewardAddress)
  executed.doFinalize config

/-- Blocks one after the other: the effects of each, and the storage after the last. -/
def TransactionFees.runBlocks (config : TransactionFeesConfig) (pallet : TransactionFees AccountId) :
    List (FeeBlock AccountId) → Option (List (FeeEffects AccountId) × TransactionFees AccountId)
  | [] => some ([], pallet)
  | block :: blocks => do
    let (effects, pallet) ← pallet.runBlock config block
    let (moreEffects, pallet) ← pallet.runBlocks config blocks
    pure (effects :: moreEffects, pallet)

/-! ## One block -/

section Block

variable (config : TransactionFeesConfig) (pallet : TransactionFees AccountId)

@[simp]
theorem TransactionFees.doInitialize_blockAuthor (rewardAddress : Option AccountId) :
    (pallet.doInitialize rewardAddress).blockAuthor = rewardAddress.or pallet.blockAuthor := by
  cases rewardAddress <;> rfl

@[simp]
theorem TransactionFees.doInitialize_collectedBlockFees (rewardAddress : Option AccountId) :
    (pallet.doInitialize rewardAddress).collectedBlockFees = some ⟨0, 0, 0⟩ := rfl

@[simp]
theorem TransactionFees.noteTransactionFees_blockAuthor (storageFee computeFee tip : ℕ) :
    (pallet.noteTransactionFees storageFee computeFee tip).blockAuthor = pallet.blockAuthor := rfl

/-- Noting fees adds them to what the block collected. -/
theorem TransactionFees.total_noteTransactionFees {collected : CollectedFees}
    (set : pallet.collectedBlockFees = some collected) (storageFee computeFee tip : ℕ) :
    (pallet.noteTransactionFees storageFee computeFee tip).collectedBlockFees =
      some ⟨collected.storage + storageFee, collected.compute + computeFee, collected.tips + tip⟩ := by
  simp [TransactionFees.noteTransactionFees, set]

/-- The fees noted during a block, on top of what was collected before them. -/
theorem TransactionFees.collected_foldl_noteTransactionFees :
    ∀ (fees : List CollectedFees) {pallet : TransactionFees AccountId} {collected : CollectedFees},
      pallet.collectedBlockFees = some collected →
        ∃ noted : CollectedFees,
          (fees.foldl (fun pallet fees => pallet.noteTransactionFees fees.storage fees.compute fees.tips)
              pallet).collectedBlockFees = some noted ∧
            noted.total = collected.total + (fees.map CollectedFees.total).sum ∧
          (fees.foldl (fun pallet fees => pallet.noteTransactionFees fees.storage fees.compute fees.tips)
              pallet).blockAuthor = pallet.blockAuthor
  | [], _, collected, set => ⟨collected, set, by simp, rfl⟩
  | fee :: fees, pallet, collected, set => by
    obtain ⟨noted, notedSet, total, author⟩ := collected_foldl_noteTransactionFees fees
      (pallet.total_noteTransactionFees set fee.storage fee.compute fee.tips)
    refine ⟨noted, notedSet, ?_, author⟩
    rw [total]
    simp only [CollectedFees.total, List.map_cons, List.sum_cons]
    omega

/-- `do_finalize` on a block that collected fees with an author in storage: the author is
credited with their total, and `BlockAuthor` is taken. -/
theorem TransactionFees.doFinalize_of_author {collected : CollectedFees} {blockAuthor : AccountId}
    (set : pallet.collectedBlockFees = some collected) (author : pallet.blockAuthor = some blockAuthor)
    (nonzero : collected.total ≠ 0) :
    ∃ pallet', pallet.doFinalize config =
      some (⟨[(blockAuthor, collected.total)],
        [.blockFees blockAuthor collected.storage collected.compute collected.tips]⟩, pallet') ∧
      pallet'.blockAuthor = none := by
  simp only [TransactionFees.doFinalize, set, author, if_pos nonzero]
  exact ⟨_, rfl, rfl⟩

/-- `do_finalize` on a block that collected fees with no author in storage burns them. -/
theorem TransactionFees.doFinalize_of_no_author {collected : CollectedFees}
    (set : pallet.collectedBlockFees = some collected) (author : pallet.blockAuthor = none)
    (nonzero : collected.total ≠ 0) :
    ∃ pallet', pallet.doFinalize config =
      some (⟨[], [.burnedBlockFees collected.storage collected.compute collected.tips]⟩, pallet') ∧
      pallet'.blockAuthor = none := by
  simp only [TransactionFees.doFinalize, set, author, if_pos nonzero]
  exact ⟨_, rfl, rfl⟩

/-- `do_finalize` on a block that collected no fees does nothing outside the pallet, and leaves
`BlockAuthor` in storage. -/
theorem TransactionFees.doFinalize_of_zero {collected : CollectedFees}
    (set : pallet.collectedBlockFees = some collected) (zero : collected.total = 0) :
    ∃ pallet', pallet.doFinalize config = some (⟨[], []⟩, pallet') ∧
      pallet'.blockAuthor = pallet.blockAuthor := by
  simp only [TransactionFees.doFinalize, set, zero, ne_eq, not_true_eq_false, if_false]
  exact ⟨_, rfl, rfl⟩

/-- A block's `do_finalize` never reaches its `expect`: `do_initialize` set the fees. -/
theorem TransactionFees.runBlock_isSome (block : FeeBlock AccountId) :
    (pallet.runBlock config block).isSome := by
  obtain ⟨noted, set, -, -⟩ := TransactionFees.collected_foldl_noteTransactionFees block.fees
    (pallet.doInitialize_collectedBlockFees block.rewardAddress)
  simp only [TransactionFees.runBlock, TransactionFees.doFinalize, set]
  split_ifs
  · split <;> rfl
  · rfl

/-- A block whose author is found and that collects fees credits their total to that author. -/
theorem TransactionFees.runBlock_credits_author {blockAuthor : AccountId} {block : FeeBlock AccountId}
    (found : block.rewardAddress = some blockAuthor) (nonzero : block.total ≠ 0) :
    ∃ effects pallet', pallet.runBlock config block = some (effects, pallet') ∧
      effects.credits = [(blockAuthor, block.total)] ∧ pallet'.blockAuthor = none := by
  obtain ⟨noted, set, total, author⟩ := TransactionFees.collected_foldl_noteTransactionFees block.fees
    (pallet.doInitialize_collectedBlockFees block.rewardAddress)
  have notedTotal : noted.total = block.total := by
    rw [total]
    simp [CollectedFees.total, FeeBlock.total]
  rw [← notedTotal] at nonzero
  have initialized : (pallet.doInitialize block.rewardAddress).blockAuthor = some blockAuthor := by
    rw [TransactionFees.doInitialize_blockAuthor, found, Option.some_or]
  obtain ⟨pallet', finalized, taken⟩ :=
    TransactionFees.doFinalize_of_author config _ set (author.trans initialized) nonzero
  exact ⟨_, pallet', finalized, by rw [notedTotal], taken⟩

/-- A block that collects no fees leaves `BlockAuthor` as `do_initialize` left it. -/
theorem TransactionFees.runBlock_keeps_author {block : FeeBlock AccountId} (zero : block.total = 0) :
    ∃ pallet', pallet.runBlock config block = some (⟨[], []⟩, pallet') ∧
      pallet'.blockAuthor = block.rewardAddress.or pallet.blockAuthor := by
  obtain ⟨noted, set, total, author⟩ := TransactionFees.collected_foldl_noteTransactionFees block.fees
    (pallet.doInitialize_collectedBlockFees block.rewardAddress)
  have notedZero : noted.total = 0 := by
    rw [total]
    simpa [CollectedFees.total, FeeBlock.total] using zero
  obtain ⟨pallet', finalized, kept⟩ := TransactionFees.doFinalize_of_zero config _ set notedZero
  exact ⟨pallet', finalized, by rw [kept, author, TransactionFees.doInitialize_blockAuthor]⟩

/-- A block without a reward address that collects fees credits them to the author left in
storage, if there is one. -/
theorem TransactionFees.runBlock_credits_stored_author {blockAuthor : AccountId}
    {block : FeeBlock AccountId} (notFound : block.rewardAddress = none)
    (stored : pallet.blockAuthor = some blockAuthor) (nonzero : block.total ≠ 0) :
    ∃ effects pallet', pallet.runBlock config block = some (effects, pallet') ∧
      effects.credits = [(blockAuthor, block.total)] := by
  obtain ⟨noted, set, total, author⟩ := TransactionFees.collected_foldl_noteTransactionFees block.fees
    (pallet.doInitialize_collectedBlockFees block.rewardAddress)
  have notedTotal : noted.total = block.total := by
    rw [total]
    simp [CollectedFees.total, FeeBlock.total]
  rw [← notedTotal] at nonzero
  -- no author is found, so the one in storage stays
  have initialized : (pallet.doInitialize block.rewardAddress).blockAuthor = some blockAuthor := by
    rw [TransactionFees.doInitialize_blockAuthor, notFound, Option.none_or, stored]
  obtain ⟨pallet', finalized, -⟩ :=
    TransactionFees.doFinalize_of_author config _ set (author.trans initialized) nonzero
  exact ⟨_, pallet', finalized, by rw [notedTotal]⟩

end Block

/-- After a block by `blockAuthor` without fees, a block whose author equivocated (or that has no
reward address) and that collects fees pays them to `blockAuthor`, not burning them. -/
theorem fees_paid_to_earlier_author (config : TransactionFeesConfig)
    (pallet : TransactionFees AccountId) (blockAuthor : AccountId) (feeFree paying : FeeBlock AccountId)
    (found : feeFree.rewardAddress = some blockAuthor) (noFees : feeFree.total = 0)
    (notFound : paying.rewardAddress = none) (fees : paying.total ≠ 0) :
    (pallet.runBlocks config [feeFree, paying]).map (·.1.map FeeEffects.credits) =
      some [[], [(blockAuthor, paying.total)]] := by
  obtain ⟨afterFree, freeRun, kept⟩ := pallet.runBlock_keeps_author config noFees
  rw [found, Option.some_or] at kept
  obtain ⟨effects, afterPaying, payingRun, credited⟩ :=
    afterFree.runBlock_credits_stored_author config notFound kept fees
  simp [TransactionFees.runBlocks, freeRun, payingRun, credited]

theorem fees_paid_to_earlier_author_genesis :
    (⟨some 0, []⟩ : FeeBlock ℕ).rewardAddress = some 0 ∧ (⟨some 0, []⟩ : FeeBlock ℕ).total = 0 ∧
      (⟨none, [⟨1, 0, 0⟩]⟩ : FeeBlock ℕ).rewardAddress = none ∧
      (⟨none, [⟨1, 0, 0⟩]⟩ : FeeBlock ℕ).total ≠ 0 ∧
      (TransactionFees.genesis.runBlocks ⟨1, 1, 2, 1, true, Nat.one_pos⟩
          [⟨some 0, []⟩, ⟨none, [⟨1, 0, 0⟩]⟩]).map (·.1.map FeeEffects.credits) =
        some [[], [(0, 1)]] :=
  ⟨rfl, rfl, rfl, by decide,
    fees_paid_to_earlier_author ⟨1, 1, 2, 1, true, Nat.one_pos⟩ TransactionFees.genesis 0 ⟨some 0, []⟩
      ⟨none, [⟨1, 0, 0⟩]⟩ rfl rfl rfl (by decide)⟩

end Subspace.Consensus
