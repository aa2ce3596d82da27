import Subspace.Domains.Staking.Spec

/-!
# What the epoch transition and slashing write

The lemmas of `Spec.lean` for `staking_epoch.rs`: one per iteration of each
loop, one per loop body, and one for each of the functions that run the
loops. A loop itself is taken apart with `foldlM_invariant` by the proof that
needs it, with the iteration's lemma as its step.
-/

namespace Subspace.Staking

variable {A : Type} [DecidableEq A]

theorem depositOperatorTax_eq_ok {s s' : State A} {operatorId amount : ℕ}
    {operator operator' : Operator}
    (deposited : depositOperatorTax s operatorId operator amount = .ok (s', operator')) :
    ∃ owner, s.operatorIdOwner operatorId = some owner ∧
      doCalculatePreviousEpochDepositSharesAndAddNewDeposit
        (holdDeposit (s.setStorageFund operatorId
          (s.storageFundBalance operatorId + (NewDeposit.split amount).storageFeeDeposit))
          owner operatorId (NewDeposit.split amount).staking)
        operatorId owner s.summary.currentEpochIndex (NewDeposit.split amount) none = .ok s' ∧
      operator' = { operator with
        depositsInEpoch := operator.depositsInEpoch + (NewDeposit.split amount).staking
        totalStorageFeeDeposit :=
          operator.totalStorageFeeDeposit + (NewDeposit.split amount).storageFeeDeposit } := by
  cases hasOwner : s.operatorIdOwner operatorId with
  | none => simp [depositOperatorTax, hasOwner] at deposited
  | some owner =>
    simp only [depositOperatorTax, hasOwner, depositReserveForStorageFund_eq, Except.bind_eq_ok,
      Except.ok.injEq, Except.pure_eq_ok, Prod.mk.injEq] at deposited
    obtain ⟨_, rfl, added, calculated, rfl, rfl⟩ := deposited
    exact ⟨owner, rfl, calculated, rfl⟩

/-- One operator of the reward loop: nothing changes but the treasury amount
for an operator that is gone, slashed or pending slash; otherwise the reward is
staked, with the tax first deposited for the owner. -/
theorem operatorTakeRewardTax_eq_ok {rewardPerOperator : ℕ} {acc acc' : TaxAcc A}
    {entry : ℕ × ℕ} (taken : operatorTakeRewardTax rewardPerOperator acc entry = .ok acc') :
    acc' = { acc with toTreasury := acc.toTreasury + (entry.2 + rewardPerOperator) } ∨
    acc'.toTreasury = acc.toTreasury ∧ ∃ operator, acc.state.operators entry.1 = some operator ∧
      operator.status acc.state entry.1 ≠ .slashed ∧
      operator.status acc.state entry.1 ≠ .pendingSlash ∧
      ((operator.nominationTax.mulFloor (entry.2 + rewardPerOperator) = 0 ∧
        acc'.state = acc.state.setOperator entry.1 (some { operator with
          currentTotalStake := operator.currentTotalStake + (entry.2 + rewardPerOperator) }) ∧
        acc'.operatorsWithSelfDeposits = acc.operatorsWithSelfDeposits) ∨
      ∃ s₁ operator₁, operator.nominationTax.mulFloor (entry.2 + rewardPerOperator) ≠ 0 ∧
        depositOperatorTax acc.state entry.1 operator
          (operator.nominationTax.mulFloor (entry.2 + rewardPerOperator)) = .ok (s₁, operator₁) ∧
        acc'.state = s₁.setOperator entry.1 (some { operator₁ with
          currentTotalStake := operator₁.currentTotalStake + ((entry.2 + rewardPerOperator) -
            operator.nominationTax.mulFloor (entry.2 + rewardPerOperator)) }) ∧
        acc'.operatorsWithSelfDeposits = insert entry.1 acc.operatorsWithSelfDeposits) := by
  obtain ⟨operatorId, reward⟩ := entry
  cases present : acc.state.operators operatorId with
  | none =>
    simp only [operatorTakeRewardTax, present, Except.pure_eq_ok] at taken
    exact .inl taken.symm
  | some operator =>
    cases status : operator.status acc.state operatorId with
    | slashed =>
      simp only [operatorTakeRewardTax, present, status, Except.pure_eq_ok] at taken
      exact .inl taken.symm
    | pendingSlash =>
      simp only [operatorTakeRewardTax, present, status, Except.pure_eq_ok] at taken
      exact .inl taken.symm
    | _ =>
      by_cases noTax : operator.nominationTax.mulFloor (reward + rewardPerOperator) = 0
      · simp only [operatorTakeRewardTax, present, status, noTax, if_true, Except.bind_eq_ok,
          Except.pure_eq_ok] at taken
        obtain ⟨_, rfl, rfl⟩ := taken
        exact .inr ⟨rfl, operator, rfl, by simp [status], by simp [status], .inl ⟨noTax, rfl, rfl⟩⟩
      · simp only [operatorTakeRewardTax, present, status, noTax, if_false, Except.bind_eq_ok,
          Except.pure_eq_ok] at taken
        obtain ⟨⟨s₂, operator₂⟩, deposited, _, rfl, rfl⟩ := taken
        exact .inr ⟨rfl, operator, rfl, by simp [status], by simp [status],
          .inr ⟨s₂, operator₂, noTax, deposited, rfl, rfl⟩⟩

theorem operatorTakeRewardTaxAndStake_eq_ok {s s' : State A} {rewardedOperatorCount : ℕ}
    {operatorsWithSelfDeposits : Finset ℕ}
    (taken : operatorTakeRewardTaxAndStake s =
      .ok (s', rewardedOperatorCount, operatorsWithSelfDeposits)) :
    ∃ acc, s.summary.currentEpochRewards.entries.foldlM (operatorTakeRewardTax
        (splitDomainRewards s.summary.currentEpochRewards.keys.card s.domainChainRewards).1)
        ⟨{ s with
          domainChainRewards := 0
          summary := { s.summary with currentEpochRewards := .empty 0 } },
          (splitDomainRewards s.summary.currentEpochRewards.keys.card s.domainChainRewards).2,
          0, ∅⟩ = .ok acc ∧
      s' = { acc.state with treasury := acc.state.treasury + acc.toTreasury } ∧
      operatorsWithSelfDeposits = acc.operatorsWithSelfDeposits := by
  simp only [operatorTakeRewardTaxAndStake, Except.bind_eq_ok, Except.pure_eq_ok,
    Prod.mk.injEq] at taken
  obtain ⟨acc, ran, rfl, -, rfl⟩ := taken
  exact ⟨acc, ran, rfl, rfl⟩

/-- The epoch's withdrawals leave at most the pool's totals. -/
theorem settleEpochWithdrawals_eq_ok {sharePrice : SharePrice} {operator : Operator}
    {totalStake totalShares : ℕ}
    (settled : settleEpochWithdrawals sharePrice operator = .ok (totalStake, totalShares)) :
    (operator.withdrawalsInEpoch = 0 ∧ totalStake = operator.currentTotalStake ∧
        totalShares = operator.currentTotalShares) ∨
      (sharePrice.sharesToStake operator.withdrawalsInEpoch ≤ operator.currentTotalStake ∧
        operator.withdrawalsInEpoch ≤ operator.currentTotalShares ∧
        totalStake = operator.currentTotalStake - sharePrice.sharesToStake operator.withdrawalsInEpoch ∧
        totalShares = operator.currentTotalShares - operator.withdrawalsInEpoch) := by
  unfold settleEpochWithdrawals at settled
  split at settled
  · rename_i none
    simp only [Except.pure_eq_ok, Prod.mk.injEq] at settled
    obtain ⟨rfl, rfl⟩ := settled
    exact .inl ⟨none, rfl, rfl⟩
  · simp only [Except.bind_eq_ok, Except.pure_eq_ok, Prod.mk.injEq] at settled
    obtain ⟨stake, stakeOk, shares, sharesOk, rfl, rfl⟩ := settled
    obtain ⟨stakeWithin, rfl⟩ := checkedSub_eq_ok.mp stakeOk
    obtain ⟨sharesWithin, rfl⟩ := checkedSub_eq_ok.mp sharesOk
    exact .inr ⟨stakeWithin, sharesWithin, rfl, rfl⟩

omit [DecidableEq A] in
/-- An operator with nothing deposited or withdrawn in the epoch is left as it
is; any other is priced for the epoch, which is recorded, and its epoch's
deposits and withdrawals enter its totals. -/
theorem doFinalizeOperatorEpochStaking_eq_ok {s s' : State A} {operatorId previousEpoch : ℕ}
    {checkStatus : Bool} {totalStake : ℕ} {stakeChanged : Bool}
    (finalized : doFinalizeOperatorEpochStaking s operatorId previousEpoch checkStatus =
      .ok (s', totalStake, stakeChanged)) :
    ∃ operator, s.operators operatorId = some operator ∧
      (checkStatus = true → operator.status s operatorId = .registered) ∧
      ((operator.depositsInEpoch = 0 ∧ operator.withdrawalsInEpoch = 0 ∧ s' = s ∧
          totalStake = operator.currentTotalStake ∧ stakeChanged = false) ∨
        ∃ sharePrice settledStake settledShares,
          ¬(operator.depositsInEpoch = 0 ∧ operator.withdrawalsInEpoch = 0) ∧
          SharePrice.new operator.currentTotalShares operator.currentTotalStake = .ok sharePrice ∧
          settleEpochWithdrawals sharePrice operator = .ok (settledStake, settledShares) ∧
          totalStake = settledStake + operator.depositsInEpoch ∧ stakeChanged = true ∧
          s' = (s.setSharePrice operatorId previousEpoch sharePrice).setOperator operatorId
            (some { operator with
              currentTotalStake := settledStake + operator.depositsInEpoch
              currentTotalShares := settledShares + sharePrice.stakeToShares operator.depositsInEpoch
              depositsInEpoch := 0
              withdrawalsInEpoch := 0 })) := by
  cases present : s.operators operatorId with
  | none => simp [doFinalizeOperatorEpochStaking, present] at finalized
  | some operator =>
    refine ⟨operator, rfl, ?_⟩
    simp only [doFinalizeOperatorEpochStaking, present, Except.bind_eq_ok, ensure_eq_ok] at finalized
    obtain ⟨-, checked, finalized⟩ := finalized
    refine ⟨checked, ?_⟩
    split at finalized
    · rename_i unchanged
      simp only [Except.pure_eq_ok, Prod.mk.injEq] at finalized
      obtain ⟨rfl, rfl, rfl⟩ := finalized
      exact .inl ⟨unchanged.1, unchanged.2, rfl, rfl, rfl⟩
    · rename_i changed
      simp only [Except.bind_eq_ok, Except.pure_eq_ok, Prod.mk.injEq] at finalized
      obtain ⟨sharePrice, priced, ⟨settledStake, settledShares⟩, settled, result⟩ := finalized
      refine .inr ⟨sharePrice, settledStake, settledShares, changed, priced, settled, ?_⟩
      -- no deposit in the epoch adds nothing to the totals
      by_cases deposited : operator.depositsInEpoch = 0
      · simp only [deposited, if_true] at result
        obtain ⟨rfl, rfl, rfl⟩ := result
        simp [deposited, SharePrice.stakeToShares, PerThing.mulFloor]
      · simp only [deposited, if_false] at result
        obtain ⟨rfl, rfl, rfl⟩ := result
        exact ⟨rfl, rfl, rfl⟩

omit [DecidableEq A] in
/-- One operator of the next set: skipped when pending to slash, otherwise
finalized and carried into the new current and next sets. -/
theorem finalizeNextOperator_eq_ok {previousEpoch operatorId : ℕ} {acc acc' : FinalizeAcc A}
    (finalized : finalizeNextOperator previousEpoch acc operatorId = .ok acc') :
    (acc.state.pendingToSlash operatorId = true ∧ acc' = acc) ∨
      ∃ s' operatorStake stakeChanged, acc.state.pendingToSlash operatorId = false ∧
        doFinalizeOperatorEpochStaking acc.state operatorId previousEpoch true =
          .ok (s', operatorStake, stakeChanged) ∧
        acc' = ⟨s', acc.totalDomainStake + operatorStake,
          acc.currentOperators.insert operatorId operatorStake, insert operatorId acc.nextOperators,
          acc.finalizedOperatorCount + if stakeChanged then 1 else 0⟩ := by
  unfold finalizeNextOperator at finalized
  split at finalized
  · rename_i pending
    cases finalized
    exact .inl ⟨pending, rfl⟩
  · rename_i notPending
    simp only [Except.bind_eq_ok, Except.pure_eq_ok] at finalized
    obtain ⟨⟨s', operatorStake, stakeChanged⟩, operatorFinalized, rfl⟩ := finalized
    exact .inr ⟨s', operatorStake, stakeChanged, by simpa using notPending, operatorFinalized, rfl⟩

omit [DecidableEq A] in
/-- One operator of the second loop: skipped when gone, slashed or pending
slash, otherwise finalized without the status check. -/
theorem finalizeOtherOperator_eq_ok {previousEpoch operatorId : ℕ} {acc acc' : State A × ℕ}
    (finalized : finalizeOtherOperator previousEpoch acc operatorId = .ok acc') :
    acc' = acc ∨
      ∃ operator s' operatorStake stakeChanged, acc.1.operators operatorId = some operator ∧
        operator.status acc.1 operatorId ≠ .slashed ∧
        operator.status acc.1 operatorId ≠ .pendingSlash ∧
        doFinalizeOperatorEpochStaking acc.1 operatorId previousEpoch false =
          .ok (s', operatorStake, stakeChanged) ∧
        acc' = (s', acc.2 + if stakeChanged then 1 else 0) := by
  obtain ⟨s, finalizedOperatorCount⟩ := acc
  cases present : s.operators operatorId with
  | none =>
    simp only [finalizeOtherOperator, present, Except.pure_eq_ok] at finalized
    exact .inl finalized.symm
  | some operator =>
    cases status : operator.status s operatorId with
    | slashed =>
      simp only [finalizeOtherOperator, present, status, Except.pure_eq_ok] at finalized
      exact .inl finalized.symm
    | pendingSlash =>
      simp only [finalizeOtherOperator, present, status, Except.pure_eq_ok] at finalized
      exact .inl finalized.symm
    | _ =>
      simp only [finalizeOtherOperator, present, status, Except.bind_eq_ok,
        Except.pure_eq_ok] at finalized
      obtain ⟨⟨s', operatorStake, stakeChanged⟩, operatorFinalized, rfl⟩ := finalized
      exact .inr ⟨operator, s', operatorStake, stakeChanged, rfl, by simp [status],
        by simp [status], operatorFinalized, rfl⟩

omit [DecidableEq A] in
/-- The two loops of `do_finalize_domain_epoch_staking` and what is written
after them. -/
theorem doFinalizeDomainEpochStaking_eq_ok {s s' : State A} {operatorsWithSelfDeposits : Finset ℕ}
    {completedEpochIndex finalizedOperatorCount : ℕ}
    (finalized : doFinalizeDomainEpochStaking s operatorsWithSelfDeposits =
      .ok (s', completedEpochIndex, finalizedOperatorCount)) :
    ∃ acc s₂, s.summary.nextOperators.ascending.foldlM
        (finalizeNextOperator s.summary.currentEpochIndex) ⟨s, 0, .empty 0, ∅, 0⟩ = .ok acc ∧
      (operatorsToCalculateSharePrice acc.state operatorsWithSelfDeposits).ascending.foldlM
        (finalizeOtherOperator s.summary.currentEpochIndex)
        ({ acc.state with
          invalidBundleAuthors := ∅
          deregisteredOperators := ∅
          deactivatedOperators := ∅ }, acc.finalizedOperatorCount) =
        .ok (s₂, finalizedOperatorCount) ∧
      completedEpochIndex = s.summary.currentEpochIndex ∧
      s' = { s₂ with summary := { s₂.summary with
        currentEpochIndex := s.summary.currentEpochIndex + 1
        currentTotalStake := acc.totalDomainStake
        currentOperators := acc.currentOperators
        nextOperators := acc.nextOperators } } := by
  simp only [doFinalizeDomainEpochStaking, Except.bind_eq_ok, Except.pure_eq_ok,
    Prod.mk.injEq] at finalized
  obtain ⟨acc, firstLoop, ⟨s₂, count⟩, secondLoop, rfl, rfl, rfl⟩ := finalized
  exact ⟨acc, s₂, firstLoop, secondLoop, rfl, rfl⟩

/-- The epoch transition: the reward loop, then the two finalize loops. -/
theorem doFinalizeDomainCurrentEpoch_eq_ok {s s' : State A} {result : EpochTransitionResult}
    (transitioned : doFinalizeDomainCurrentEpoch s = .ok (s', result)) :
    ∃ s₁ operatorsWithSelfDeposits,
      operatorTakeRewardTaxAndStake { s with pendingStakingOperationCount := 0 } =
        .ok (s₁, result.rewardedOperatorCount, operatorsWithSelfDeposits) ∧
      doFinalizeDomainEpochStaking s₁ operatorsWithSelfDeposits =
        .ok (s', result.completedEpochIndex, result.finalizedOperatorCount) := by
  simp only [doFinalizeDomainCurrentEpoch, Except.bind_eq_ok, Except.mapError_eq_ok,
    Except.pure_eq_ok, Prod.mk.injEq] at transitioned
  obtain ⟨⟨s₁, count, selfDeposits⟩, taken, ⟨s₂, completed, finalizedCount⟩, finalized, rfl,
    rfl⟩ := transitioned
  exact ⟨s₁, selfDeposits, taken, finalized⟩

omit [DecidableEq A] in
theorem keepOnMissingPrice_eq_ok {α : Type} {original result : α} {x : Except Error α}
    (kept : keepOnMissingPrice original x = .ok result) :
    x = .ok result ∨ (x = .error .missingOperatorEpochSharePrice ∧ result = original) := by
  unfold keepOnMissingPrice at kept
  split at kept
  · cases kept
    exact .inl rfl
  · cases kept
    exact .inr ⟨rfl, rfl⟩
  · cases kept

omit [DecidableEq A] in
/-- The conversion of `do_slash_operator` keeps the nominator's storage fee. -/
theorem keepOnMissingPrice_totalStorageFeeDeposit {s : State A} {operatorId epoch : ℕ}
    {deposit deposit' : Deposit}
    (kept : keepOnMissingPrice deposit (doConvertPreviousEpochDeposits s operatorId deposit epoch) =
      .ok deposit') :
    deposit'.totalStorageFeeDeposit = deposit.totalStorageFeeDeposit := by
  rcases keepOnMissingPrice_eq_ok kept with converted | ⟨-, rfl⟩
  · exact doConvertPreviousEpochDeposits_totalStorageFeeDeposit converted
  · rfl

/-- One nominator of `do_slash_operator`: its records go, the treasury and the
fund change, and the operator's fee total loses the fee of its pending
deposit. -/
theorem slashNominator_eq_ok {operatorId epoch : ℕ} {sharePrice : SharePrice}
    {acc acc' : SlashAcc A} {nominator : A} {deposit : Deposit}
    (slashed : slashNominator operatorId sharePrice epoch acc nominator deposit = .ok acc') :
    ∃ deposit' fund treasury,
      keepOnMissingPrice deposit
        (doConvertPreviousEpochDeposits acc.state operatorId deposit epoch) = .ok deposit' ∧
      acc'.state = ({ ((acc.state.setDeposit operatorId nominator none).setDepositOnHold
          operatorId nominator 0).setWithdrawal operatorId nominator none with
          treasury := treasury }).setStorageFund operatorId fund ∧
      acc'.totalStorageFeeDeposit = acc.totalStorageFeeDeposit -
        (deposit'.pending.map (·.storageFeeDeposit)).getD 0 ∧
      acc'.slashedNominatorCount = acc.slashedNominatorCount + 1 := by
  simp only [slashNominator, Except.bind_eq_ok] at slashed
  obtain ⟨deposit', kept, withdrawn, -, totalShares, -, totalStake, -, amountToSlash, -,
    paid⟩ := slashed
  refine ⟨deposit', ?_⟩
  cases hp : deposit'.pending with
  | none =>
    simp only [hp, Except.bind_eq_ok, Except.pure_eq_ok] at paid
    obtain ⟨_, rfl, rfl⟩ := paid
    exact ⟨_, _, kept, (State.setStorageFund_self _ _).symm, by simp, rfl⟩
  | some pending =>
    simp only [hp, Except.bind_eq_ok, Except.pure_eq_ok] at paid
    obtain ⟨s₂, transferred, _, rfl, rfl⟩ := paid
    obtain ⟨-, rfl⟩ := withdrawFromStorageFund_eq_ok transferred
    exact ⟨_, _, kept, rfl, by simp, rfl⟩

/-- What every nominator slashed keeps holds at the end of the nominator loop. -/
theorem slashNominators_invariant {operatorId epoch maxNominatorCount : ℕ}
    {sharePrice : SharePrice} (motive : SlashAcc A → Prop)
    (step : ∀ acc acc' nominator deposit, acc.state.deposits operatorId nominator = some deposit →
      slashNominator operatorId sharePrice epoch acc nominator deposit = .ok acc' →
      motive acc → motive acc') :
    ∀ {order : List A} {acc acc' : SlashAcc A}, motive acc →
      slashNominators operatorId sharePrice epoch maxNominatorCount order acc = .ok acc' →
      motive acc'
  | [], acc, acc', start, ran => by
    cases ran
    exact start
  | nominator :: rest, acc, acc', start, ran => by
    unfold slashNominators at ran
    split at ran
    · exact slashNominators_invariant motive step start ran
    · rename_i deposit hasDeposit
      simp only [Except.bind_eq_ok] at ran
      obtain ⟨slashedAcc, slashed, ran⟩ := ran
      have kept := step acc slashedAcc nominator deposit hasDeposit slashed start
      split at ran
      · cases ran
        exact kept
      · exact slashNominators_invariant motive step kept ran

/-- `do_slash_operator`: nothing to do without pending slashes, an empty set
is cleared, and otherwise the nominator loop runs on the least operator. -/
theorem doSlashOperator_eq_ok [Fintype A] {s s' : State A} {maxNominatorCount count : ℕ}
    {order : List A} (slashed : doSlashOperator s maxNominatorCount order = .ok (s', count)) :
    (s.pendingSlashes = none ∧ s' = s) ∨
    (∃ pendingSlashes, s.pendingSlashes = some pendingSlashes ∧ pendingSlashes.ascending = [] ∧
      s' = { s with pendingSlashes := none }) ∨
    ∃ pendingSlashes operatorId rest operator sharePrice acc,
      s.pendingSlashes = some pendingSlashes ∧
      pendingSlashes.ascending = operatorId :: rest ∧
      s.operators operatorId = some operator ∧
      SharePrice.new operator.currentTotalShares operator.currentTotalStake = .ok sharePrice ∧
      slashNominators operatorId sharePrice s.summary.currentEpochIndex maxNominatorCount order
        ⟨s.setOperator operatorId none, operator.currentTotalStake, operator.currentTotalShares,
          operator.totalStorageFeeDeposit, 0⟩ = .ok acc ∧
      s' = if acc.state.hasNominatorEntries operatorId then
          acc.state.setOperator operatorId (some { operator with
            currentTotalShares := acc.totalShares
            currentTotalStake := acc.totalStake
            totalStorageFeeDeposit := acc.totalStorageFeeDeposit })
        else { doCleanupOperator acc.state operatorId acc.totalStake with
          pendingSlashes := if pendingSlashes.erase operatorId = ∅ then none
            else some (pendingSlashes.erase operatorId) } := by
  cases pending : s.pendingSlashes with
  | none =>
    simp only [doSlashOperator, pending, Except.pure_eq_ok, Prod.mk.injEq] at slashed
    exact .inl ⟨rfl, slashed.1.symm⟩
  | some pendingSlashes =>
    cases first : pendingSlashes.ascending with
    | nil =>
      simp only [doSlashOperator, pending, first, Except.pure_eq_ok, Prod.mk.injEq] at slashed
      exact .inr (.inl ⟨pendingSlashes, rfl, first, slashed.1.symm⟩)
    | cons operatorId rest =>
      cases present : s.operators operatorId with
      | none => simp [doSlashOperator, pending, first, present] at slashed
      | some operator =>
        simp only [doSlashOperator, pending, first, present, Except.bind_eq_ok] at slashed
        obtain ⟨sharePrice, priced, acc, ran, result⟩ := slashed
        refine .inr (.inr ⟨pendingSlashes, operatorId, rest, operator, sharePrice, acc, rfl, first,
          present, priced, ran, ?_⟩)
        split at result <;>
        · simp only [Except.pure_eq_ok, Prod.mk.injEq] at result
          simp_all

end Subspace.Staking
