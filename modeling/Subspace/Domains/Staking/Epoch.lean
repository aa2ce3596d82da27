import Subspace.Domains.Staking.Operations

/-!
# The staking epoch transition and slashing

`staking_epoch.rs`: at the end of an epoch each rewarded operator takes its
nomination tax as a deposit of its owner and stakes the rest
(`operator_take_reward_tax_and_stake`); then every operator of the next set,
and every other operator that had deposits or withdrawals in the epoch, is
finalized: the epoch's withdrawals and deposits enter its totals and the
share price of the epoch is recorded (`do_finalize_domain_epoch_staking`).
`do_slash_operator` drains the pool of the first operator pending slash.

The loops of the source are folds over the keys in increasing order, as the
`BTreeMap` and `BTreeSet` iterators give them.
-/

namespace Subspace.Staking

variable {A : Type} [DecidableEq A]

/-- The running state of the reward loop of `operator_take_reward_tax_and_stake`. -/
structure TaxAcc (A : Type) where
  state : State A
  toTreasury : ℕ
  rewardedOperatorCount : ℕ
  operatorsWithSelfDeposits : Finset ℕ

/-- The nomination tax of an operator as a deposit of its owner, in the
current epoch. -/
def depositOperatorTax (s : State A) (operatorId : ℕ) (operator : Operator)
    (operatorTaxAmount : ℕ) : Except Error (State A × Operator) := do
  let some nominator := s.operatorIdOwner operatorId | throw .missingOperatorOwner
  let (s, operatorTaxDeposit) ← depositReserveForStorageFund s operatorId operatorTaxAmount
  let s := holdDeposit s nominator operatorId operatorTaxDeposit.staking
  let operator := { operator with
    depositsInEpoch := operator.depositsInEpoch + operatorTaxDeposit.staking
    totalStorageFeeDeposit := operator.totalStorageFeeDeposit + operatorTaxDeposit.storageFeeDeposit }
  let s ← doCalculatePreviousEpochDepositSharesAndAddNewDeposit s operatorId nominator
    s.summary.currentEpochIndex operatorTaxDeposit none
  return (s, operator)

/-- One step of the reward loop: the operator's reward and its part of the
domain chain rewards. The reward of an operator that is gone, slashed or
pending slash goes to the treasury. -/
def operatorTakeRewardTax (rewardPerOperator : ℕ) (acc : TaxAcc A) (entry : ℕ × ℕ) :
    Except Error (TaxAcc A) := do
  let (operatorId, reward) := entry
  let reward := reward + rewardPerOperator
  let s := acc.state
  let some operator := s.operators operatorId
    | return { acc with toTreasury := acc.toTreasury + reward }
  match operator.status s operatorId with
  | .slashed | .pendingSlash => return { acc with toTreasury := acc.toTreasury + reward }
  | _ =>
    let operatorTaxAmount := operator.nominationTax.mulFloor reward
    let (s, operator, selfDeposits) ←
      if operatorTaxAmount = 0 then pure (s, operator, acc.operatorsWithSelfDeposits)
      else do
        let (s, operator) ← depositOperatorTax s operatorId operator operatorTaxAmount
        pure (s, operator, insert operatorId acc.operatorsWithSelfDeposits)
    let operator := { operator with
      currentTotalStake := operator.currentTotalStake + (reward - operatorTaxAmount) }
    return ⟨s.setOperator operatorId (some operator), acc.toTreasury,
      acc.rewardedOperatorCount + 1, selfDeposits⟩

/-- The split of the domain chain rewards over the operators rewarded in the
epoch: each gets the same amount, the dust goes to the treasury. Returns the
amount per operator and the amount to the treasury. -/
def splitDomainRewards (activeOperatorCount domainRewards : ℕ) : ℕ × ℕ :=
  if 0 < activeOperatorCount ∧ domainRewards ≠ 0 then
    let rewardPerOperator :=
      (PerThing.fromRational 1 activeOperatorCount : Perquintill).mulFloor domainRewards
    (rewardPerOperator, domainRewards - rewardPerOperator * activeOperatorCount)
  else if domainRewards ≠ 0 then (0, domainRewards)
  else (0, 0)

/-- `operator_take_reward_tax_and_stake`. Returns the number of operators
rewarded and the operators that made a tax deposit. -/
def operatorTakeRewardTaxAndStake (s : State A) : Except Error (State A × ℕ × Finset ℕ) := do
  let domainRewards := s.domainChainRewards
  let epochRewards := s.summary.currentEpochRewards
  let (rewardPerOperator, toTreasury) := splitDomainRewards epochRewards.keys.card domainRewards
  let s := { s with
    domainChainRewards := 0
    summary := { s.summary with currentEpochRewards := .empty 0 } }
  let acc ← epochRewards.entries.foldlM (operatorTakeRewardTax rewardPerOperator)
    ⟨s, toTreasury, 0, ∅⟩
  return ({ acc.state with treasury := acc.state.treasury + acc.toTreasury },
    acc.rewardedOperatorCount, acc.operatorsWithSelfDeposits)

/-- The epoch's withdrawals leave the pool at the price of the epoch. -/
def settleEpochWithdrawals (sharePrice : SharePrice) (operator : Operator) :
    Except Error (ℕ × ℕ) := do
  if operator.withdrawalsInEpoch = 0 then
    return (operator.currentTotalStake, operator.currentTotalShares)
  else
  let totalStake ← checkedSub Error.balanceUnderflow operator.currentTotalStake
    (sharePrice.sharesToStake operator.withdrawalsInEpoch)
  let totalShares ← checkedSub Error.shareUnderflow operator.currentTotalShares
    operator.withdrawalsInEpoch
  return (totalStake, totalShares)

/-- `do_finalize_operator_epoch_staking`: returns the operator's new total
stake and whether the epoch changed it. -/
def doFinalizeOperatorEpochStaking (s : State A) (operatorId previousEpoch : ℕ)
    (checkStatus : Bool) : Except Error (State A × ℕ × Bool) := do
  let some operator := s.operators operatorId | throw .unknownOperator
  ensure (checkStatus → operator.status s operatorId = .registered) Error.operatorNotRegistered
  if operator.depositsInEpoch = 0 ∧ operator.withdrawalsInEpoch = 0 then
    return (s, operator.currentTotalStake, false)
  else
  let sharePrice ← SharePrice.new operator.currentTotalShares operator.currentTotalStake
  let (totalStake, totalShares) ← settleEpochWithdrawals sharePrice operator
  -- the epoch's deposits enter at the same price
  let (totalStake, totalShares) :=
    if operator.depositsInEpoch = 0 then (totalStake, totalShares)
    else (totalStake + operator.depositsInEpoch,
      totalShares + sharePrice.stakeToShares operator.depositsInEpoch)
  let operator := { operator with
    currentTotalStake := totalStake
    currentTotalShares := totalShares
    depositsInEpoch := 0
    withdrawalsInEpoch := 0 }
  return ((s.setSharePrice operatorId previousEpoch sharePrice).setOperator operatorId
    (some operator), totalStake, true)

/-- The running state of the loop over the next operator set. -/
structure FinalizeAcc (A : Type) where
  state : State A
  totalDomainStake : ℕ
  currentOperators : BTreeMap ℕ ℕ
  nextOperators : Finset ℕ
  finalizedOperatorCount : ℕ

/-- One step of the first loop of `do_finalize_domain_epoch_staking`: an
operator of the next set enters the new current and next sets, unless it is
pending to slash. -/
def finalizeNextOperator (previousEpoch : ℕ) (acc : FinalizeAcc A) (operatorId : ℕ) :
    Except Error (FinalizeAcc A) := do
  if acc.state.pendingToSlash operatorId then return acc else
  let (s, operatorStake, stakeChanged) ←
    doFinalizeOperatorEpochStaking acc.state operatorId previousEpoch true
  return ⟨s, acc.totalDomainStake + operatorStake,
    acc.currentOperators.insert operatorId operatorStake, insert operatorId acc.nextOperators,
    acc.finalizedOperatorCount + if stakeChanged then 1 else 0⟩

/-- One step of the second loop: an operator outside the next set is priced
for the epoch, unless it is gone, slashed or pending slash. -/
def finalizeOtherOperator (previousEpoch : ℕ) (acc : State A × ℕ) (operatorId : ℕ) :
    Except Error (State A × ℕ) := do
  let (s, finalizedOperatorCount) := acc
  let some operator := s.operators operatorId | return acc
  match operator.status s operatorId with
  | .slashed | .pendingSlash => return acc
  | _ =>
    let (s, _, stakeChanged) ← doFinalizeOperatorEpochStaking s operatorId previousEpoch false
    return (s, finalizedOperatorCount + if stakeChanged then 1 else 0)

/-- The operators the second loop prices: those with a tax deposit, the
invalid bundle authors, and the operators deregistered or deactivated in the
epoch, less the ones of the next set. -/
def operatorsToCalculateSharePrice (s : State A) (operatorsWithSelfDeposits : Finset ℕ) :
    Finset ℕ :=
  (operatorsWithSelfDeposits ∪ s.invalidBundleAuthors ∪ s.deregisteredOperators ∪
    s.deactivatedOperators).filter (· ∉ s.summary.nextOperators)

/-- `do_finalize_domain_epoch_staking`: returns the completed epoch and the
number of operators whose stake changed. -/
def doFinalizeDomainEpochStaking (s : State A) (operatorsWithSelfDeposits : Finset ℕ) :
    Except Error (State A × ℕ × ℕ) := do
  let previousEpoch := s.summary.currentEpochIndex
  let acc ← s.summary.nextOperators.ascending.foldlM (finalizeNextOperator previousEpoch)
    ⟨s, 0, .empty 0, ∅, 0⟩
  let toCalculate := operatorsToCalculateSharePrice acc.state operatorsWithSelfDeposits
  let s := { acc.state with
    invalidBundleAuthors := ∅
    deregisteredOperators := ∅
    deactivatedOperators := ∅ }
  let (s, finalizedOperatorCount) ←
    toCalculate.ascending.foldlM (finalizeOtherOperator previousEpoch)
      (s, acc.finalizedOperatorCount)
  return ({ s with summary := { s.summary with
    currentEpochIndex := previousEpoch + 1
    currentTotalStake := acc.totalDomainStake
    currentOperators := acc.currentOperators
    nextOperators := acc.nextOperators } }, previousEpoch, finalizedOperatorCount)

/-- `EpochTransitionResult`. -/
structure EpochTransitionResult where
  rewardedOperatorCount : ℕ
  finalizedOperatorCount : ℕ
  completedEpochIndex : ℕ
deriving DecidableEq, Repr

/-- `do_finalize_domain_current_epoch`. -/
def doFinalizeDomainCurrentEpoch (s : State A) :
    Except EpochError (State A × EpochTransitionResult) := do
  let s := { s with pendingStakingOperationCount := 0 }
  let (s, rewardedOperatorCount, operatorsWithSelfDeposits) ←
    (operatorTakeRewardTaxAndStake s).mapError .operatorRewardStaking
  let (s, completedEpochIndex, finalizedOperatorCount) ←
    (doFinalizeDomainEpochStaking s operatorsWithSelfDeposits).mapError
      .finalizeDomainEpochStaking
  return (s, ⟨rewardedOperatorCount, finalizedOperatorCount, completedEpochIndex⟩)

/-- The conversions of `do_slash_operator` keep a record as it is when the
share price of its epoch is missing. -/
def keepOnMissingPrice {α : Type} (original : α) : Except Error α → Except Error α
  | .ok a => .ok a
  | .error .missingOperatorEpochSharePrice => .ok original
  | .error e => .error e

/-- The running state of the nominator loop of `do_slash_operator`. -/
structure SlashAcc (A : Type) where
  state : State A
  totalStake : ℕ
  totalShares : ℕ
  totalStorageFeeDeposit : ℕ
  slashedNominatorCount : ℕ

/-- What a nominator's withdrawal adds to a slash: the balance ready, the
storage fee on hold, and the shares withdrawn in the current epoch. -/
def withdrawalToSlash (s : State A) (operatorId : ℕ) (nominator : A) (epoch : ℕ) :
    Except Error (ℕ × ℕ × ℕ) :=
  match s.withdrawals operatorId nominator with
  | none => .ok (0, 0, 0)
  | some withdrawal => do
    let withdrawal ← keepOnMissingPrice withdrawal
      (doConvertPreviousEpochWithdrawal s operatorId withdrawal epoch)
    return (withdrawal.totalWithdrawalAmount, withdrawal.totalStorageFeeWithdrawal,
      (withdrawal.withdrawalInShares.map (·.shares)).getD 0)

/-- One nominator of `do_slash_operator`: its stake and the balance ready to
withdraw go to the treasury; the deposit not staked yet and its storage fee
go back to it. -/
def slashNominator (operatorId : ℕ) (sharePrice : SharePrice) (epoch : ℕ) (acc : SlashAcc A)
    (nominator : A) (deposit : Deposit) : Except Error (SlashAcc A) := do
  let s := acc.state
  let lockedAmount := s.depositOnHold operatorId nominator
  let deposit ← keepOnMissingPrice deposit (doConvertPreviousEpochDeposits s operatorId deposit epoch)
  let (amountReadyToWithdraw, withdrawStorageFeeOnHold, sharesWithdrewInCurrentEpoch) ←
    withdrawalToSlash s operatorId nominator epoch
  let s := ((s.setDeposit operatorId nominator none).setDepositOnHold operatorId nominator
    0).setWithdrawal operatorId nominator none
  let nominatorShares := deposit.known.shares + sharesWithdrewInCurrentEpoch
  let totalShares ← checkedSub Error.shareOverflow acc.totalShares nominatorShares
  let nominatorStakedAmount := sharePrice.sharesToStake nominatorShares
  let totalStake ← checkedSub Error.balanceOverflow acc.totalStake nominatorStakedAmount
  let pendingDeposit := (deposit.pending.map (·.amount)).getD 0
  let amountToSlashInHolding ← checkedSub Error.balanceUnderflow lockedAmount pendingDeposit
  let nominatorReward := nominatorStakedAmount + amountReadyToWithdraw - amountToSlashInHolding
  let s := { s with
    treasury := s.treasury + amountToSlashInHolding + nominatorReward + withdrawStorageFeeOnHold }
  let (s, totalStorageFeeDeposit) ← match deposit.pending with
    | some pending => do
      let s ← withdrawTo s operatorId
        ((storageFundRedeemPrice s operatorId acc.totalStorageFeeDeposit).redeem
          pending.storageFeeDeposit)
      pure (s, acc.totalStorageFeeDeposit - pending.storageFeeDeposit)
    | none => pure (s, acc.totalStorageFeeDeposit)
  return ⟨s, totalStake, totalShares, totalStorageFeeDeposit, acc.slashedNominatorCount + 1⟩

/-- The nominator loop of `do_slash_operator`, over the order in which
`Deposits::drain_prefix` yields the nominators; it stops once
`maxNominatorCount` nominators are slashed. -/
def slashNominators (operatorId : ℕ) (sharePrice : SharePrice) (epoch maxNominatorCount : ℕ) :
    List A → SlashAcc A → Except Error (SlashAcc A)
  | [], acc => .ok acc
  | nominator :: rest, acc =>
    match acc.state.deposits operatorId nominator with
    | none => slashNominators operatorId sharePrice epoch maxNominatorCount rest acc
    | some deposit => do
      let acc ← slashNominator operatorId sharePrice epoch acc nominator deposit
      if maxNominatorCount ≤ acc.slashedNominatorCount then return acc
      else slashNominators operatorId sharePrice epoch maxNominatorCount rest acc

/-- `do_slash_operator`: slash up to `maxNominatorCount` nominators of the
first operator pending slash, in the order `order`; the operator is cleaned up
once none are left. Returns the number of nominators slashed. -/
def doSlashOperator [Fintype A] (s : State A) (maxNominatorCount : ℕ) (order : List A) :
    Except Error (State A × ℕ) := do
  let some pendingSlashes := s.pendingSlashes | return (s, 0)
  let operatorId :: _ := pendingSlashes.ascending | return ({ s with pendingSlashes := none }, 0)
  let slashedOperators := pendingSlashes.erase operatorId
  let epoch := s.summary.currentEpochIndex
  let some operator := s.operators operatorId | throw .unknownOperator
  let sharePrice ← SharePrice.new operator.currentTotalShares operator.currentTotalStake
  let acc ← slashNominators operatorId sharePrice epoch maxNominatorCount order
    ⟨s.setOperator operatorId none, operator.currentTotalStake, operator.currentTotalShares,
      operator.totalStorageFeeDeposit, 0⟩
  let s := acc.state
  if s.hasNominatorEntries operatorId then
    return (s.setOperator operatorId (some { operator with
      currentTotalShares := acc.totalShares
      currentTotalStake := acc.totalStake
      totalStorageFeeDeposit := acc.totalStorageFeeDeposit }), acc.slashedNominatorCount)
  else
  let s := doCleanupOperator s operatorId acc.totalStake
  return ({ s with pendingSlashes := if slashedOperators = ∅ then none else some slashedOperators },
    acc.slashedNominatorCount)

end Subspace.Staking
