import Subspace.Domains.Staking.Ledger
import Subspace.Domains.Staking.Spec

/-!
# Share claims, and a nominator counted out of the pool twice

A nominator's records stand for shares of an operator's pool: the known
shares, a pending deposit of an ended epoch at that epoch's price, and the
shares withdrawn in the current epoch, which leave the pool's totals only when
the epoch ends. The pool is solvent for its nominators when those claims are
covered by `current_total_shares`.

`do_unlock_nominator` takes the shares a nominator withdrew in the current
epoch out of the operator's totals, but leaves `withdrawals_in_epoch` as it
is, and a deregistered operator is still finalized at the end of the epoch
(`DeregisteredOperators`), which takes those shares out a second time
(`doUnlockNominator_keeps_withdrawalsInEpoch`). Both can happen in one epoch
when the withdrawal locking period is shorter than an epoch: the remaining
nominators then claim more shares than the pool has, and when the withdrawn
stake exceeds what is left, the epoch transition itself fails.
-/

namespace Subspace.Staking

variable {A : Type} [DecidableEq A] [Fintype A]

/-- The shares a pending deposit stands for: those of an ended epoch with a
recorded price. -/
def pendingShareClaim (s : State A) (operatorId : ℕ) : Option PendingDeposit → ℕ
  | some pending =>
    if pending.effectiveDomainEpoch < s.summary.currentEpochIndex then
      match s.operatorEpochSharePrice operatorId pending.effectiveDomainEpoch with
      | some price => price.stakeToShares pending.amount
      | none => 0
    else 0
  | none => 0

/-- The shares withdrawn in the current epoch, still inside the pool's totals. -/
def withdrawnShareClaim (s : State A) : Option WithdrawalInShares → ℕ
  | some inShares => if inShares.domainEpoch = s.summary.currentEpochIndex then inShares.shares else 0
  | none => 0

/-- The shares a nominator's records stand for in an operator's pool. -/
def nominatorShareClaim (s : State A) (operatorId : ℕ) (nominator : A) : ℕ :=
  let deposit := s.deposits operatorId nominator
  ((deposit.map (·.known.shares)).getD 0) + pendingShareClaim s operatorId (deposit.bind (·.pending)) +
    withdrawnShareClaim s ((s.withdrawals operatorId nominator).bind (·.withdrawalInShares))

/-- The shares all nominators claim from an operator's pool. -/
def shareClaims (s : State A) (operatorId : ℕ) : ℕ :=
  ∑ nominator, nominatorShareClaim s operatorId nominator

/-- The pool of `operatorId` covers the shares its nominators claim. -/
def PoolCoversShareClaims (s : State A) (operatorId : ℕ) : Prop :=
  ∀ operator, s.operators operatorId = some operator →
    shareClaims s operatorId ≤ operator.currentTotalShares

instance (s : State A) (operatorId : ℕ) : Decidable (PoolCoversShareClaims s operatorId) :=
  match h : s.operators operatorId with
  | none => isTrue fun operator present => by simp [h] at present
  | some operator =>
    if covered : shareClaims s operatorId ≤ operator.currentTotalShares then
      isTrue fun other present => by
        rw [h, Option.some.injEq] at present
        exact present ▸ covered
    else isFalse fun all => covered (all operator h)

/-- `do_unlock_nominator` leaves the shares withdrawn in the epoch in
`withdrawals_in_epoch`, though it has taken them out of the totals. -/
theorem doUnlockNominator_keeps_withdrawalsInEpoch {s s' : State A} {operatorId : ℕ}
    {nominator : A} {operator operator' : Operator}
    (unlocked : doUnlockNominator s operatorId nominator = .ok s')
    (present : s.operators operatorId = some operator)
    (present' : s'.operators operatorId = some operator') :
    operator'.withdrawalsInEpoch = operator.withdrawalsInEpoch := by
  obtain ⟨found, _, _, _, _, _, s₂, stored, -, -, -, -, -, -, -, -, -, -, result⟩ :=
    doUnlockNominator_eq_ok unlocked
  rw [present, Option.some.injEq] at stored
  subst stored
  rw [result] at present'
  split at present'
  · simp only [State.setOperator, Function.update_self, Option.some.injEq] at present'
    rw [← present']
  · simp [doCleanupOperator] at present'

/-- A configuration whose withdrawal locking period is shorter than an epoch. -/
def shortLockConfig : StakingConfig Bool where
  minOperatorStake := 10
  minNominatorStake := 1
  stakeWithdrawalLockingPeriod := 0
  maxPendingStakingOperation := 100
  withdrawalLimit := 100
  operatorActivationDelayInEpochs := 0
  isOperatorAllowed := fun _ => true

/-- The owner (`false`) registers operator `0` with `100`, the nominator
(`true`) nominates `amount`; after the epoch ends the nominator withdraws all
of its shares, the owner deregisters, and the nominator unlocks, all in the
next epoch. -/
def unlockInWithdrawalEpoch (amount : ℕ) : List (Action Bool) :=
  [.registerOperator false 100 ⟨1, 1, PerThing.fromParts 0⟩,
   .nominateOperator 0 true amount,
   .finalizeDomainCurrentEpoch,
   .withdrawStake 0 true (amount - storageFeeReserve.mulFloor amount),
   .deregisterOperator false 0,
   .unlockNominator 0 true]

/-- Nominating `50` leaves the pool, after the second epoch ends, with `40`
shares while the owner's deposit claims `80`; the owner's unlock then fails. -/
theorem deregistered_pool_short_of_share_claims :
    ∃ s, Reachable shortLockConfig s ∧ ¬ PoolCoversShareClaims s 0 ∧
      doUnlockNominator s 0 false = .error .shareOverflow := by
  obtain ⟨s, reachable, short, stuck⟩ := exists_reachable_of_run shortLockConfig
    (unlockInWithdrawalEpoch 50 ++ [.finalizeDomainCurrentEpoch])
    (P := fun s => ¬ PoolCoversShareClaims s 0 ∧
      (doUnlockNominator s 0 false).error? = some .shareOverflow) (by decide)
  exact ⟨s, reachable, short, Except.error?_eq_some.mp stuck⟩

/-- Nominating `200` makes the nominator's stake larger than the owner's: the
second epoch transition fails. -/
theorem deregistered_pool_epoch_transition_fails :
    ∃ s, Reachable shortLockConfig s ∧
      doFinalizeDomainCurrentEpoch s = .error (.finalizeDomainEpochStaking .balanceUnderflow) := by
  obtain ⟨s, reachable, failed⟩ := exists_reachable_of_run shortLockConfig
    (unlockInWithdrawalEpoch 200)
    (P := fun s => (doFinalizeDomainCurrentEpoch s).error? =
      some (.finalizeDomainEpochStaking .balanceUnderflow)) (by decide)
  exact ⟨s, reachable, Except.error?_eq_some.mp failed⟩

end Subspace.Staking
