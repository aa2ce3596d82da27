import Subspace.Domains.Staking.SharePrice
import Subspace.Lib.Except

/-!
# The staking operations

The functions of `staking.rs` that change the ledger, in the order of the
source: registration, the lazy conversion of the previous epoch's deposits
and withdrawals, nomination, deregistration, (de)activation, withdrawal,
unlocking, rewards, slashing marks and invalid bundle marks.

Each function returns the new state or the error the source returns. A
dispatchable that fails leaves storage unchanged, so the model drops the
partial writes of a failed call. Events, weights and the balance operations
on accounts (`hold`, `release`, `mint_into` of nominator accounts) are left
out: they write no staking storage. Transfers into and out of the storage
fund and the treasury change `storageFundBalance` and `treasury`.
-/

namespace Subspace.Staking

variable {A : Type} [DecidableEq A]

namespace State

/-- `Operators::insert` / `remove`. -/
@[simp] def setOperator (s : State A) (operatorId : ℕ) (operator : Option Operator) : State A :=
  { s with operators := Function.update s.operators operatorId operator }

/-- `Deposits::insert` / `remove`. -/
@[simp] def setDeposit (s : State A) (operatorId : ℕ) (nominator : A) (deposit : Option Deposit) :
    State A :=
  { s with deposits := (Function.update s.deposits operatorId
      (Function.update (s.deposits operatorId) nominator deposit)) }

/-- `Withdrawals::insert` / `remove`. -/
@[simp] def setWithdrawal (s : State A) (operatorId : ℕ) (nominator : A)
    (withdrawal : Option Withdrawal) : State A :=
  { s with withdrawals := (Function.update s.withdrawals operatorId
      (Function.update (s.withdrawals operatorId) nominator withdrawal)) }

/-- `DepositOnHold::insert`; `0` is the absent entry. -/
@[simp] def setDepositOnHold (s : State A) (operatorId : ℕ) (nominator : A) (amount : ℕ) :
    State A :=
  { s with depositOnHold := (Function.update s.depositOnHold operatorId
      (Function.update (s.depositOnHold operatorId) nominator amount)) }

/-- `OperatorEpochSharePrice::insert`. -/
@[simp] def setSharePrice (s : State A) (operatorId epoch : ℕ) (price : SharePrice) : State A :=
  { s with operatorEpochSharePrice := (Function.update s.operatorEpochSharePrice operatorId
      (Function.update (s.operatorEpochSharePrice operatorId) epoch (some price))) }

/-- Move `amount` into or out of an operator's storage fund account. -/
@[simp] def setStorageFund (s : State A) (operatorId amount : ℕ) : State A :=
  { s with storageFundBalance := Function.update s.storageFundBalance operatorId amount }

/-- `Deposits::contains_prefix` or `Withdrawals::contains_prefix`: does any
nominator still have an entry for the operator? -/
def hasNominatorEntries [Fintype A] (s : State A) (operatorId : ℕ) : Bool :=
  decide (∃ n, (s.deposits operatorId n).isSome) || decide (∃ n, (s.withdrawals operatorId n).isSome)

end State

variable (cfg : StakingConfig A)

/-- `note_pending_staking_operation`. -/
def notePendingStakingOperation (s : State A) : Except Error (State A) := do
  ensure (s.pendingStakingOperationCount < cfg.maxPendingStakingOperation)
    Error.tooManyPendingStakingOperation
  return { s with pendingStakingOperationCount := s.pendingStakingOperationCount + 1 }

/-- `PendingDeposit::total`. -/
def PendingDeposit.total (p : PendingDeposit) : ℕ := p.amount + p.storageFeeDeposit

/-- `do_convert_previous_epoch_deposits`: price a pending deposit whose epoch
has a share price. A pending deposit of an earlier epoch without one is the
`MissingOperatorEpochSharePrice` error. -/
def doConvertPreviousEpochDeposits (s : State A) (operatorId : ℕ) (deposit : Deposit)
    (currentEpochIndex : ℕ) : Except Error Deposit :=
  match deposit.pending with
  | none => .ok deposit
  | some pending =>
    match s.operatorEpochSharePrice operatorId pending.effectiveDomainEpoch with
    | none =>
      if currentEpochIndex ≤ pending.effectiveDomainEpoch then .ok deposit
      else .error .missingOperatorEpochSharePrice
    | some price =>
      .ok ⟨⟨deposit.known.shares + price.stakeToShares pending.amount,
          deposit.known.storageFeeDeposit + pending.storageFeeDeposit⟩, none⟩

/-- `do_convert_previous_epoch_withdrawal`: turn the shares withdrawn in an
ended epoch into a balance that unlocks later. -/
def doConvertPreviousEpochWithdrawal (s : State A) (operatorId : ℕ) (withdrawal : Withdrawal)
    (currentEpochIndex : ℕ) : Except Error Withdrawal :=
  match withdrawal.withdrawalInShares with
  | none => .ok withdrawal
  | some inShares =>
    if currentEpochIndex ≤ inShares.domainEpoch then .ok withdrawal
    else
      match s.operatorEpochSharePrice operatorId inShares.domainEpoch with
      | none => .error .missingOperatorEpochSharePrice
      | some price =>
        let amount := price.sharesToStake inShares.shares
        .ok { withdrawal with
          totalWithdrawalAmount := withdrawal.totalWithdrawalAmount + amount
          withdrawals := withdrawal.withdrawals ++
            [⟨inShares.unlockAtConfirmedDomainBlockNumber, amount, inShares.storageFeeRefund⟩]
          withdrawalInShares := none }

/-- The pending deposit of the current epoch once `newDeposit` is added to
what is pending (`do_calculate_previous_epoch_deposit_shares_and_add_new_deposit`). -/
def addPendingDeposit (pending : Option PendingDeposit) (currentEpochIndex : ℕ)
    (newDeposit : NewDeposit) : PendingDeposit :=
  match pending with
  | none => ⟨currentEpochIndex, newDeposit.staking, newDeposit.storageFeeDeposit⟩
  | some old => ⟨currentEpochIndex, old.amount + newDeposit.staking,
      old.storageFeeDeposit + newDeposit.storageFeeDeposit⟩

/-- `do_calculate_previous_epoch_deposit_shares_and_add_new_deposit`: convert
the nominator's pending deposit if it can be, then add the new deposit as
pending in the current epoch. -/
def doCalculatePreviousEpochDepositSharesAndAddNewDeposit (s : State A) (operatorId : ℕ)
    (nominator : A) (currentEpochIndex : ℕ) (newDeposit : NewDeposit)
    (requiredMinimumNominatorStake : Option ℕ) : Except Error (State A) := do
  let deposit ← doConvertPreviousEpochDeposits s operatorId
    ((s.deposits operatorId nominator).getD .default) currentEpochIndex
  let pending := addPendingDeposit deposit.pending currentEpochIndex newDeposit
  ensure (deposit.known.shares = 0 → ∀ minimum ∈ requiredMinimumNominatorStake,
    minimum ≤ pending.total) Error.minimumNominatorStake
  return s.setDeposit operatorId nominator (some { deposit with pending := some pending })

/-- `deposit_reserve_for_storage_fund`: the reserve moves into the fund. -/
def depositReserveForStorageFund (s : State A) (operatorId depositAmount : ℕ) :
    Except Error (State A × NewDeposit) := do
  let newDeposit ← NewDeposit.ofAmount depositAmount
  return (s.setStorageFund operatorId (s.storageFundBalance operatorId + newDeposit.storageFeeDeposit),
    newDeposit)

/-- `hold_deposit`: the staked part is held and noted in `DepositOnHold`. -/
def holdDeposit (s : State A) (who : A) (operatorId amount : ℕ) : State A :=
  s.setDepositOnHold operatorId who (s.depositOnHold operatorId who + amount)

/-- The operator `do_register_operator` stores: its owner's stake already in
the pool at the price one. -/
def Operator.ofConfig (config : OperatorConfig) (newDeposit : NewDeposit) : Operator where
  minimumNominatorStake := config.minimumNominatorStake
  nominationTax := config.nominationTax
  currentTotalStake := newDeposit.staking
  currentTotalShares := SharePrice.one.stakeToShares newDeposit.staking
  partialStatus := .registered
  depositsInEpoch := 0
  withdrawalsInEpoch := 0
  totalStorageFeeDeposit := newDeposit.storageFeeDeposit

/-- `do_register_operator`. The owner's stake is counted in the pool at once,
at the price one recorded for the current epoch; it is also the owner's
pending deposit of that epoch. -/
def doRegisterOperator (s : State A) (operatorOwner : A) (amount : ℕ) (config : OperatorConfig) :
    Except Error (State A × ℕ × ℕ) := do
  let s ← notePendingStakingOperation cfg s
  ensure (config.signingKey ≠ 0) Error.invalidOperatorSigningKey
  ensure (cfg.minNominatorStake ≤ config.minimumNominatorStake) Error.minimumNominatorStake
  ensure (cfg.isOperatorAllowed operatorOwner) Error.operatorNotAllowed
  let operatorId := s.nextOperatorId
  let s := { s with
    nextOperatorId := operatorId + 1
    operatorIdOwner := Function.update s.operatorIdOwner operatorId (some operatorOwner) }
  ensure (cfg.minOperatorStake ≤ amount) Error.minimumOperatorStake
  let (s, newDeposit) ← depositReserveForStorageFund s operatorId amount
  let s := holdDeposit s operatorOwner operatorId newDeposit.staking
  let epoch := s.summary.currentEpochIndex
  let s := ((s.setOperator operatorId (some (Operator.ofConfig config newDeposit))).setSharePrice operatorId epoch SharePrice.one)
  let s := { s with summary := { s.summary with
    nextOperators := insert operatorId s.summary.nextOperators } }
  let s ← doCalculatePreviousEpochDepositSharesAndAddNewDeposit s operatorId operatorOwner epoch
    newDeposit none
  return (s, operatorId, epoch)

/-- The first staking request of an operator in an epoch counts towards
`MaxPendingStakingOperation`. -/
def noteFirstStakingRequest (s : State A) (operator : Operator) : Except Error (State A) :=
  if operator.depositsInEpoch = 0 ∧ operator.withdrawalsInEpoch = 0 then
    notePendingStakingOperation cfg s
  else .ok s

/-- `do_nominate_operator`. -/
def doNominateOperator (s : State A) (operatorId : ℕ) (nominator : A) (amount : ℕ) :
    Except Error (State A) := do
  ensure (amount ≠ 0) Error.zeroDeposit
  let some operator := s.operators operatorId | throw .unknownOperator
  ensure (operator.status s operatorId = .registered) Error.operatorNotRegistered
  let s ← noteFirstStakingRequest cfg s operator
  let epoch := s.summary.currentEpochIndex
  let (s, newDeposit) ← depositReserveForStorageFund s operatorId amount
  let s := holdDeposit s nominator operatorId newDeposit.staking
  let operator := { operator with
    depositsInEpoch := operator.depositsInEpoch + newDeposit.staking
    totalStorageFeeDeposit := operator.totalStorageFeeDeposit + newDeposit.storageFeeDeposit }
  let s ← doCalculatePreviousEpochDepositSharesAndAddNewDeposit s operatorId nominator epoch
    newDeposit (some operator.minimumNominatorStake)
  return s.setOperator operatorId (some operator)

/-- `do_deregister_operator`: out of the next operator set, into
`DeregisteredOperators`, unlocking after the withdrawal locking period. -/
def doDeregisterOperator (s : State A) (operatorOwner : A) (operatorId : ℕ) :
    Except Error (State A) := do
  ensure (s.operatorIdOwner operatorId = some operatorOwner) Error.notOperatorOwner
  let some operator := s.operators operatorId | throw .unknownOperator
  ensure (operator.isRegisteredOrDeactivated s operatorId) Error.operatorNotRegisterdOrDeactivated
  let info : OperatorDeregisteredInfo :=
    ⟨s.summary.currentEpochIndex, s.headDomainNumber + cfg.stakeWithdrawalLockingPeriod⟩
  -- a deactivated operator leaves `DeactivatedOperators`: its share price is
  -- computed through `DeregisteredOperators` instead
  let deactivated := if operator.partialStatus.isDeactivated then
    s.deactivatedOperators.erase operatorId else s.deactivatedOperators
  let s := { s with
    deactivatedOperators := deactivated
    summary := { s.summary with nextOperators := s.summary.nextOperators.erase operatorId }
    deregisteredOperators := insert operatorId s.deregisteredOperators }
  return s.setOperator operatorId (some { operator with partialStatus := .deregistered info })

/-- Take an operator out of the current operator set, with its stake out of
the domain total (`current_total_stake.checked_sub`). -/
def removeFromCurrentOperators (summary : StakingSummary) (operatorId : ℕ) (operator : Operator) :
    Except Error StakingSummary := do
  if operatorId ∈ summary.currentOperators.keys then
    let total ← checkedSub Error.balanceUnderflow summary.currentTotalStake
      operator.currentTotalStake
    return { summary with
      currentTotalStake := total
      currentOperators := summary.currentOperators.remove operatorId }
  else return summary

/-- `do_deactivate_operator`. -/
def doDeactivateOperator (s : State A) (operatorId : ℕ) : Except Error (State A) := do
  let some operator := s.operators operatorId | throw .unknownOperator
  ensure (operator.status s operatorId = .registered) Error.operatorNotRegistered
  let reactivationDelay := s.summary.currentEpochIndex + cfg.operatorActivationDelayInEpochs
  let summary ← removeFromCurrentOperators s.summary operatorId operator
  let s := { s with
    summary := { summary with nextOperators := summary.nextOperators.erase operatorId }
    deactivatedOperators := insert operatorId s.deactivatedOperators }
  return s.setOperator operatorId (some { operator with partialStatus := .deactivated reactivationDelay })

/-- `do_reactivate_operator`. -/
def doReactivateOperator (s : State A) (operatorId : ℕ) : Except Error (State A) := do
  let some operator := s.operators operatorId | throw .unknownOperator
  let .deactivated reactivationDelay := operator.status s operatorId
    | throw .operatorNotDeactivated
  ensure (reactivationDelay ≤ s.summary.currentEpochIndex) Error.reactivationDelayPeriodIncomplete
  let s := { s with
    summary := { s.summary with nextOperators := insert operatorId s.summary.nextOperators }
    deactivatedOperators := s.deactivatedOperators.erase operatorId }
  return s.setOperator operatorId (some { operator with partialStatus := .registered })

/-- `current_share_price`: the epoch's rewards, less the nomination tax, count
towards the stake the price is taken over. -/
def currentSharePrice (operatorId : ℕ) (operator : Operator) (summary : StakingSummary) :
    Except Error SharePrice :=
  let totalStake := match summary.currentEpochRewards.get? operatorId with
    | some rewards => operator.currentTotalStake + rewards - operator.nominationTax.mulFloor rewards
    | none => operator.currentTotalStake
  SharePrice.new operator.currentTotalShares totalStake

/-- A transfer of `amount` out of an operator's storage fund, failing with
`e` when the fund holds less. -/
def withdrawFromStorageFund (e : BundleStorageFundError) (s : State A) (operatorId amount : ℕ) :
    Except Error (State A) :=
  if amount = 0 then .ok s
  else if amount ≤ s.storageFundBalance operatorId then
    .ok (s.setStorageFund operatorId (s.storageFundBalance operatorId - amount))
  else .error (.bundleStorageFund e)

/-- `withdraw_and_hold`: the redeemed fee is held on the nominator's account. -/
def withdrawAndHold (s : State A) (operatorId amount : ℕ) : Except Error (State A) :=
  withdrawFromStorageFund .withdrawAndHold s operatorId amount

/-- `withdraw_to`: the redeemed fee is paid to the nominator. -/
def withdrawTo (s : State A) (operatorId amount : ℕ) : Except Error (State A) :=
  withdrawFromStorageFund .failToWithdraw s operatorId amount

/-- One entry of the loop of `refund_storage_fee`: an operator that still
exists and paid for storage gets its share of the fee into its storage fund,
and the refund leaves the fee that remains. -/
def refundOperatorStorageFee (totalStorageFee totalPaidStorage : ℕ) (acc : State A × ℕ)
    (entry : ℕ × UInt32) : Except BundleStorageFundError (State A × ℕ) := do
  let (s, remainingFee) := acc
  let (operatorId, paidStorage) := entry
  if (s.operators operatorId).isNone ∨ paidStorage = 0 then return acc else
  let refundAmount :=
    (PerThing.fromRational paidStorage.toNat totalPaidStorage : Perquintill).mulFloor totalStorageFee
  let remainingFee ← checkedSub BundleStorageFundError.balanceUnderflow remainingFee refundAmount
  return (s.setStorageFund operatorId (s.storageFundBalance operatorId + refundAmount), remainingFee)

/-- `refund_storage_fee`: the storage fee of a confirmed domain block goes
back to the operators' storage funds by the bundle storage each paid for; the
dust and the part of operators that are gone go to the treasury. The total
paid storage is the `u32` sum of the sizes, which wraps. -/
def refundStorageFee (s : State A) (totalStorageFee : ℕ)
    (paidBundleStorageFees : BTreeMap ℕ UInt32) : Except BundleStorageFundError (State A) := do
  if totalStorageFee = 0 then return s else
  let totalPaidStorage := (paidBundleStorageFees.entries.map Prod.snd).sum
  let (s, remainingFee) ← paidBundleStorageFees.entries.foldlM
    (refundOperatorStorageFee totalStorageFee totalPaidStorage.toNat) (s, totalStorageFee)
  return { s with treasury := s.treasury + remainingFee }

/-- `storage_fund_redeem_price`. -/
def storageFundRedeemPrice (s : State A) (operatorId operatorTotalDeposit : ℕ) :
    StorageFundRedeemPrice :=
  ⟨s.storageFundBalance operatorId, operatorTotalDeposit⟩

/-- The part of a nominator's known storage fee that `shares` of its
`knownShares` stand for, rounded down (`do_withdraw_stake`). -/
def storageFeeOfShares (shares knownShares storageFee : ℕ) : ℕ :=
  (PerThing.fromRational shares knownShares : Perquintill).mulFloor storageFee

/-- The shares a withdrawal leaves and the shares it takes
(`do_withdraw_stake`). The owner may not leave less than `MinOperatorStake`;
any other nominator left below the operator's minimum withdraws everything. -/
def sharesToWithdraw (s : State A) (operatorId : ℕ) (operator : Operator) (deposit : Deposit)
    (isOperatorOwner : Bool) (toWithdraw : ℕ) : Except Error (ℕ × ℕ) := do
  let knownShares := deposit.known.shares
  let remainingShares ← checkedSub Error.insufficientShares knownShares toWithdraw
  -- no shares left: only a nominator other than the owner may do that
  if remainingShares = 0 then
    if isOperatorOwner then throw .minimumOperatorStake else return (0, toWithdraw)
  else
    let sharePrice ← currentSharePrice operatorId operator s.summary
    let remainingStorageFee := storageFeeOfShares remainingShares knownShares
      deposit.known.storageFeeDeposit
    let remainingStake := sharePrice.sharesToStake remainingShares + remainingStorageFee
    if isOperatorOwner ∧ remainingStake < cfg.minOperatorStake then throw .minimumOperatorStake
    else if !isOperatorOwner ∧ remainingStake < operator.minimumNominatorStake then
      return (0, knownShares)
    else return (remainingShares, toWithdraw)

/-- The withdrawal `do_withdraw_stake` converts: the stored one, brought up to
the current epoch and checked against `WithdrawalLimit`. -/
def convertWithdrawalForWithdraw (s : State A) (operatorId : ℕ) (nominator : A) (epoch : ℕ) :
    Except Error (Option Withdrawal) :=
  match s.withdrawals operatorId nominator with
  | none => .ok none
  | some withdrawal => do
    let withdrawal ← doConvertPreviousEpochWithdrawal s operatorId withdrawal epoch
    ensure (withdrawal.withdrawals.length < cfg.withdrawalLimit) Error.tooManyWithdrawals
    return some withdrawal

/-- The withdrawal in shares of the current epoch once `shares` more are
withdrawn (`do_withdraw_stake`): a withdrawal already made in the epoch is
topped up. -/
def addWithdrawalInShares (inShares : Option WithdrawalInShares)
    (epoch unlockAt shares storageFeeRefund : ℕ) : WithdrawalInShares :=
  match inShares with
  | some old => ⟨epoch, unlockAt, old.shares + shares, old.storageFeeRefund + storageFeeRefund⟩
  | none => ⟨epoch, unlockAt, shares, storageFeeRefund⟩

/-- `do_withdraw_stake`: the shares move into the withdrawal of the current
epoch, to be priced when it ends, with their part of the storage fee redeemed
from the fund. -/
def doWithdrawStake (s : State A) (operatorId : ℕ) (nominator : A) (toWithdraw : ℕ) :
    Except Error (State A) := do
  ensure (toWithdraw ≠ 0) Error.zeroWithdraw
  let some operator := s.operators operatorId | throw .unknownOperator
  ensure (operator.isRegisteredOrDeactivated s operatorId) Error.operatorNotRegisterdOrDeactivated
  let s ← noteFirstStakingRequest cfg s operator
  let epoch := s.summary.currentEpochIndex
  let some deposit := s.deposits operatorId nominator | throw .unknownNominator
  let deposit ← doConvertPreviousEpochDeposits s operatorId deposit epoch
  let withdrawal ← convertWithdrawalForWithdraw cfg s operatorId nominator epoch
  -- a deactivated operator is priced at the end of the epoch through
  -- `DeactivatedOperators`
  let deactivated := if operator.partialStatus.isDeactivated then
    insert operatorId s.deactivatedOperators else s.deactivatedOperators
  let some operatorOwner := s.operatorIdOwner operatorId | throw .unknownOperator
  let knownShares := deposit.known.shares
  let (remainingShares, sharesWithdrew) ←
    sharesToWithdraw cfg s operatorId operator deposit (operatorOwner = nominator) toWithdraw
  let storageFeeToWithdraw := storageFeeOfShares sharesWithdrew knownShares
    deposit.known.storageFeeDeposit
  let withdrawStorageFee := (storageFundRedeemPrice s operatorId
    operator.totalStorageFeeDeposit).redeem storageFeeToWithdraw
  let s ← withdrawAndHold s operatorId withdrawStorageFee
  let knownStorageFee ← checkedSub Error.balanceOverflow deposit.known.storageFeeDeposit
    storageFeeToWithdraw
  let totalStorageFee ← checkedSub Error.balanceOverflow operator.totalStorageFeeDeposit
    storageFeeToWithdraw
  let operator := { operator with
    totalStorageFeeDeposit := totalStorageFee
    withdrawalsInEpoch := operator.withdrawalsInEpoch + sharesWithdrew }
  let deposit := { deposit with known := ⟨remainingShares, knownStorageFee⟩ }
  ensure (remainingShares = 0 → ∀ pending ∈ deposit.pending,
    operator.minimumNominatorStake ≤ pending.total) Error.minimumNominatorStake
  let unlockAt := s.headDomainNumber + cfg.stakeWithdrawalLockingPeriod
  let withdrawal := withdrawal.getD .default
  let withdrawal := { withdrawal with
    withdrawalInShares := some (addWithdrawalInShares withdrawal.withdrawalInShares epoch unlockAt
      sharesWithdrew withdrawStorageFee)
    totalStorageFeeWithdrawal := withdrawal.totalStorageFeeWithdrawal + withdrawStorageFee }
  let s := { s with deactivatedOperators := deactivated }
  return ((s.setDeposit operatorId nominator (some deposit)).setWithdrawal operatorId nominator
    (some withdrawal)).setOperator operatorId (some operator)

/-- A deposit with no shares and nothing pending is removed (`do_unlock_funds`,
once the nominator's withdrawal is gone). -/
def State.removeEmptyDeposit (s : State A) (operatorId : ℕ) (nominator : A) : State A :=
  match s.deposits operatorId nominator with
  | some deposit =>
    if deposit.known.shares = 0 ∧ deposit.pending = none then s.setDeposit operatorId nominator none
    else s
  | none => s

/-- `do_unlock_funds`: pay out the withdrawals at the front of the queue whose
unlock block is confirmed; the records go once nothing is left in them.
Returns the number of withdrawals unlocked. -/
def doUnlockFunds (s : State A) (operatorId : ℕ) (nominator : A) :
    Except Error (State A × ℕ) := do
  let some operator := s.operators operatorId | throw .unknownOperator
  ensure (operator.isRegisteredOrDeactivated s operatorId) Error.operatorNotRegisterdOrDeactivated
  let epoch := s.summary.currentEpochIndex
  let some withdrawal := s.withdrawals operatorId nominator | throw .missingWithdrawal
  let withdrawal ← doConvertPreviousEpochWithdrawal s operatorId withdrawal epoch
  ensure (withdrawal.withdrawals ≠ []) Error.missingWithdrawal
  -- the loop pops the front while its unlock block is confirmed
  let (ready, rest) := withdrawal.withdrawals.span
    (·.unlockAtConfirmedDomainBlockNumber ≤ s.headDomainNumber)
  let totalUnlockedAmount := (ready.map (·.amountToUnlock)).sum
  let totalStorageFeeRefund := (ready.map (·.storageFeeRefund)).sum
  ensure (totalUnlockedAmount ≠ 0 ∨ totalStorageFeeRefund ≠ 0) Error.unlockPeriodNotComplete
  let totalWithdrawalAmount ← checkedSub Error.balanceUnderflow withdrawal.totalWithdrawalAmount
    totalUnlockedAmount
  let totalStorageFeeWithdrawal ← checkedSub Error.balanceUnderflow
    withdrawal.totalStorageFeeWithdrawal totalStorageFeeRefund
  let withdrawal := { withdrawal with
    totalWithdrawalAmount := totalWithdrawalAmount
    totalStorageFeeWithdrawal := totalStorageFeeWithdrawal
    withdrawals := rest }
  let onHold := s.depositOnHold operatorId nominator
  let s := s.setDepositOnHold operatorId nominator (onHold - min totalUnlockedAmount onHold)
  if withdrawal.withdrawals = [] ∧ withdrawal.withdrawalInShares = none then
    return ((s.setWithdrawal operatorId nominator none).removeEmptyDeposit operatorId nominator,
      ready.length)
  else return (s.setWithdrawal operatorId nominator (some withdrawal), ready.length)

/-- `do_cleanup_operator`: the fund and the stake left go to the treasury and
the operator's owner and share prices are removed. -/
def doCleanupOperator (s : State A) (operatorId totalStake : ℕ) : State A :=
  { s with
    treasury := s.treasury + s.storageFundBalance operatorId + totalStake
    storageFundBalance := Function.update s.storageFundBalance operatorId 0
    operatorIdOwner := Function.update s.operatorIdOwner operatorId none
    operatorEpochSharePrice := Function.update s.operatorEpochSharePrice operatorId fun _ => none }

/-- What a nominator's withdrawal adds to an unlock of a deregistered operator
(`do_unlock_nominator`): the balance ready, the storage fee withdrawn, and the
shares withdrawn in the current epoch. -/
def withdrawalToUnlock (s : State A) (operatorId : ℕ) (nominator : A) (epoch : ℕ) :
    Except Error (ℕ × ℕ × ℕ) :=
  match s.withdrawals operatorId nominator with
  | none => .ok (0, 0, 0)
  | some withdrawal => do
    let withdrawal ← doConvertPreviousEpochWithdrawal s operatorId withdrawal epoch
    return (withdrawal.totalWithdrawalAmount, withdrawal.totalStorageFeeWithdrawal,
      (withdrawal.withdrawalInShares.map (·.shares)).getD 0)

/-- The storage fee a nominator paid into an operator's fund, for its known
and its pending deposit (`do_unlock_nominator`). -/
def Deposit.totalStorageFeeDeposit (deposit : Deposit) : ℕ :=
  (deposit.pending.map (·.storageFeeDeposit)).getD 0 + deposit.known.storageFeeDeposit

/-- `do_unlock_nominator`: once a deregistered operator's unlock block is
confirmed, a nominator takes everything out of the pool; the last one out
cleans the operator up. -/
def doUnlockNominator [Fintype A] (s : State A) (operatorId : ℕ) (nominator : A) :
    Except Error (State A) := do
  let some operator := s.operators operatorId | throw .unknownOperator
  let .deregistered info := operator.status s operatorId | throw .operatorNotDeregistered
  ensure (info.unlockAtConfirmedDomainBlockNumber ≤ s.headDomainNumber) Error.unlockPeriodNotComplete
  let epoch := s.summary.currentEpochIndex
  let sharePrice ← SharePrice.new operator.currentTotalShares operator.currentTotalStake
  let redeemPrice := storageFundRedeemPrice s operatorId operator.totalStorageFeeDeposit
  let some deposit := s.deposits operatorId nominator | throw .unknownNominator
  let deposit ← doConvertPreviousEpochDeposits s operatorId deposit epoch
  let (_, _, sharesWithdrewInCurrentEpoch) ← withdrawalToUnlock s operatorId nominator epoch
  let nominatorShares := deposit.known.shares + sharesWithdrewInCurrentEpoch
  let totalShares ← checkedSub Error.shareOverflow operator.currentTotalShares nominatorShares
  let nominatorStakedAmount := sharePrice.sharesToStake nominatorShares
  let totalStake ← checkedSub Error.balanceOverflow operator.currentTotalStake
    nominatorStakedAmount
  let nominatorTotalStorageFeeDeposit := deposit.totalStorageFeeDeposit
  let s ← withdrawTo s operatorId (redeemPrice.redeem nominatorTotalStorageFeeDeposit)
  let s := ((s.setDeposit operatorId nominator none).setWithdrawal operatorId nominator
    none).setDepositOnHold operatorId nominator 0
  let totalStorageFeeDeposit := operator.totalStorageFeeDeposit - nominatorTotalStorageFeeDeposit
  if s.hasNominatorEntries operatorId then
    return s.setOperator operatorId (some { operator with
      currentTotalShares := totalShares
      currentTotalStake := totalStake
      totalStorageFeeDeposit := totalStorageFeeDeposit })
  else return doCleanupOperator (s.setOperator operatorId none) operatorId totalStake

/-- How often each operator id occurs in the list (`operator_weights`). -/
def operatorWeights (operators : List ℕ) : BTreeMap ℕ ℕ :=
  operators.foldl (fun acc operatorId => acc.upsert operatorId (· + 1) 1) (.empty 0)

/-- One step of the reward loop of `do_reward_operators`: the operator's
share of `rewards` by weight, added to its epoch rewards and to the total
allocated. -/
def rewardOperator (rewards totalCount : ℕ) (acc : BTreeMap ℕ ℕ × ℕ) (entry : ℕ × ℕ) :
    BTreeMap ℕ ℕ × ℕ :=
  let operatorReward := (PerThing.fromRational entry.2 totalCount : Perquintill).mulFloor rewards
  (acc.1.upsert entry.1 (· + operatorReward) operatorReward, acc.2 + operatorReward)

/-- `do_reward_operators`: the rewards are split by weight, the dust goes to
the treasury. -/
def doRewardOperators (s : State A) (operators : List ℕ) (rewards : ℕ) :
    Except Error (State A) := do
  if rewards = 0 then return s else
  let (epochRewards, allocatedRewards) := (operatorWeights operators).entries.foldl
    (rewardOperator rewards operators.length) (s.summary.currentEpochRewards, 0)
  let dust ← checkedSub Error.balanceUnderflow rewards allocatedRewards
  return { s with
    summary := { s.summary with currentEpochRewards := epochRewards }
    treasury := s.treasury + dust }

/-- `do_mark_operators_as_slashed`, for one operator: out of both operator
sets and into `PendingSlashes`, unless it is gone or already there. -/
def markOperatorAsSlashed (s : State A) (operatorId : ℕ) : Except Error (State A) := do
  let some operator := s.operators operatorId | return s
  let pendingSlashes := s.pendingSlashes.getD ∅
  if operatorId ∈ pendingSlashes then return s else
  let summary ← removeFromCurrentOperators s.summary operatorId operator
  let s := { s with
    summary := { summary with nextOperators := summary.nextOperators.erase operatorId }
    pendingSlashes := some (insert operatorId pendingSlashes) }
  return s.setOperator operatorId (some { operator with partialStatus := .slashed })

/-- `do_mark_operators_as_slashed`. -/
def doMarkOperatorsAsSlashed (s : State A) (operatorIds : List ℕ) : Except Error (State A) :=
  operatorIds.foldlM markOperatorAsSlashed s

/-- `mark_invalid_bundle_author`: a registered operator that authored an
invalid bundle of receipt `erHash` leaves both operator sets. -/
def markInvalidBundleAuthor (s : State A) (operatorId erHash : ℕ) : Except Error (State A) := do
  let some operator := s.operators operatorId | return s
  if operator.status s operatorId ≠ .registered then return s else
  let summary ← removeFromCurrentOperators s.summary operatorId operator
  let s := { s with
    summary := { summary with nextOperators := summary.nextOperators.erase operatorId }
    invalidBundleAuthors := insert operatorId s.invalidBundleAuthors }
  return s.setOperator operatorId (some { operator with partialStatus := .invalidBundle erHash })

/-- `do_mark_invalid_bundle_authors`: the operators in `PendingSlashes` when
the call starts are skipped. -/
def doMarkInvalidBundleAuthors (s : State A) (invalidBundleAuthors : List ℕ) (erHash : ℕ) :
    Except Error (State A) :=
  let pendingSlashes := s.pendingSlashes.getD ∅
  invalidBundleAuthors.foldlM (fun s operatorId =>
    if operatorId ∈ pendingSlashes then .ok s else markInvalidBundleAuthor s operatorId erHash) s

/-- `unmark_invalid_bundle_author`: an operator marked for receipt `erHash`
is registered again and back in the next operator set. -/
def unmarkInvalidBundleAuthor (s : State A) (operatorId erHash : ℕ) : State A :=
  match s.operators operatorId with
  | none => s
  | some operator =>
    if operator.partialStatus ≠ .invalidBundle erHash then s
    else
      let s := { s with
        summary := { s.summary with nextOperators := insert operatorId s.summary.nextOperators }
        invalidBundleAuthors := s.invalidBundleAuthors.erase operatorId }
      s.setOperator operatorId (some { operator with partialStatus := .registered })

/-- `do_unmark_invalid_bundle_authors`: operators in `PendingSlashes` when the
call starts, or pending to slash, are skipped. -/
def doUnmarkInvalidBundleAuthors (s : State A) (invalidBundleAuthors : List ℕ) (erHash : ℕ) :
    State A :=
  let pendingSlashes := s.pendingSlashes.getD ∅
  invalidBundleAuthors.foldl (fun s operatorId =>
    if operatorId ∈ pendingSlashes ∨ s.pendingToSlash operatorId then s
    else unmarkInvalidBundleAuthor s operatorId erHash) s

end Subspace.Staking
