import Subspace.Domains.Staking.EpochPrices
import Mathlib.Data.List.TakeWhile

/-!
# The books of a withdrawal record

Three functions write a nominator's `Withdrawals` record, at different times:
`do_convert_previous_epoch_withdrawal` moves the withdrawal in shares of an ended
epoch to the back of the queue, `do_withdraw_stake` merges a new withdrawal into
the one of the current epoch, and `do_unlock_funds` pops the front of the queue.
Every other call leaves the records as they are or removes some. Between them a
record keeps its books: its two totals are what it holds, and its queue fits in
`WithdrawalLimit`. So `do_unlock_funds`, at any head, never fails one of its
`checked_sub`, and what it takes off the totals is exactly what it pops.
-/

namespace Subspace.Staking

variable {A : Type}

/-- The withdrawals a record holds: its queue and its withdrawal in shares, which
joins the queue when it is converted. -/
def Withdrawal.heldCount (withdrawal : Withdrawal) : ℕ :=
  withdrawal.withdrawals.length + withdrawal.withdrawalInShares.toList.length

/-- The totals of a withdrawal record are what it holds: the amounts of its queue,
and the storage fee refunds of its queue and of its withdrawal in shares. -/
structure Withdrawal.Balanced (withdrawal : Withdrawal) : Prop where
  amount : withdrawal.totalWithdrawalAmount = (withdrawal.withdrawals.map (·.amountToUnlock)).sum
  storageFee : withdrawal.totalStorageFeeWithdrawal =
    (withdrawal.withdrawals.map (·.storageFeeRefund)).sum +
      (withdrawal.withdrawalInShares.map (·.storageFeeRefund)).getD 0

/-- A record keeps its books: it is balanced, and what it holds fits in the limit.
Only a record with an empty queue may hold more, its one withdrawal in shares when
the limit is `0`: the first withdrawal of a nominator is not checked against it. -/
structure Withdrawal.Bookkept (limit : ℕ) (withdrawal : Withdrawal) : Prop
    extends withdrawal.Balanced where
  heldCount : withdrawal.heldCount ≤ limit ∨ withdrawal.withdrawals = []

/-- Every record of a `Withdrawals` map keeps its books. -/
def WithdrawalsBookkept (limit : ℕ) (withdrawals : ℕ → A → Option Withdrawal) : Prop :=
  ∀ operatorId nominator withdrawal, withdrawals operatorId nominator = some withdrawal →
    withdrawal.Bookkept limit

section Record

variable {limit : ℕ} {withdrawal : Withdrawal}

theorem Withdrawal.Bookkept.length_le (bookkept : withdrawal.Bookkept limit) :
    withdrawal.withdrawals.length ≤ limit := by
  rcases bookkept.heldCount with fits | empty
  · unfold Withdrawal.heldCount at fits
    omega
  · simp [empty]

theorem Withdrawal.default_bookkept (limit : ℕ) : Withdrawal.default.Bookkept limit where
  amount := rfl
  storageFee := rfl
  heldCount := .inr rfl

/-- A conversion moves the withdrawal in shares, priced, to the back of the queue:
the record stays balanced and holds as many withdrawals. -/
theorem Withdrawal.Balanced.convert {s : State A} {operatorId epoch : ℕ}
    {withdrawal' : Withdrawal} (balanced : withdrawal.Balanced)
    (converted : doConvertPreviousEpochWithdrawal s operatorId withdrawal epoch = .ok withdrawal') :
    withdrawal'.Balanced ∧ withdrawal'.heldCount = withdrawal.heldCount ∧
      (withdrawal'.withdrawals = withdrawal.withdrawals ∨
        withdrawal'.withdrawalInShares = none) := by
  rcases doConvertPreviousEpochWithdrawal_eq_ok converted with ⟨rfl, -⟩ |
    ⟨inShares, price, inSharesSome, -, -, rfl⟩
  · exact ⟨balanced, rfl, .inl rfl⟩
  · have amount := balanced.amount
    have storageFee := balanced.storageFee
    rw [inSharesSome, Option.map_some, Option.getD_some] at storageFee
    refine ⟨⟨?_, ?_⟩, ?_, .inr rfl⟩
    · simp only [List.map_append, List.sum_append, List.map_cons, List.map_nil, List.sum_cons,
        List.sum_nil, amount]
      omega
    · simp only [List.map_append, List.sum_append, List.map_cons, List.map_nil, List.sum_cons,
        List.sum_nil, Option.map_none, Option.getD_none, storageFee]
      omega
    · simp [Withdrawal.heldCount, inSharesSome]

/-- `do_withdraw_stake` merges the new withdrawal and its storage fee refund into
the withdrawal in shares of the current epoch. -/
theorem Withdrawal.Balanced.withdraw (balanced : withdrawal.Balanced)
    (epoch unlockAt shares storageFeeRefund : ℕ) :
    Withdrawal.Balanced { withdrawal with
      withdrawalInShares := some (addWithdrawalInShares withdrawal.withdrawalInShares epoch unlockAt
        shares storageFeeRefund)
      totalStorageFeeWithdrawal := withdrawal.totalStorageFeeWithdrawal + storageFeeRefund } where
  amount := balanced.amount
  storageFee := by
    have storageFee := balanced.storageFee
    cases inShares : withdrawal.withdrawalInShares with
    | none =>
      simp only [inShares, Option.map_none, Option.getD_none] at storageFee
      simp [addWithdrawalInShares, storageFee]
    | some old =>
      simp only [inShares, Option.map_some, Option.getD_some] at storageFee
      simp only [addWithdrawalInShares, Option.map_some, Option.getD_some, storageFee]
      omega

/-- Popping `ready` off the front of a balanced record's queue takes its sums off the
totals, which stay balanced. -/
theorem Withdrawal.Balanced.pop (balanced : withdrawal.Balanced)
    {ready rest : List WithdrawalInBalance} (split : withdrawal.withdrawals = ready ++ rest) :
    (ready.map (·.amountToUnlock)).sum ≤ withdrawal.totalWithdrawalAmount ∧
      (ready.map (·.storageFeeRefund)).sum ≤ withdrawal.totalStorageFeeWithdrawal ∧
      Withdrawal.Balanced { withdrawal with
        totalWithdrawalAmount :=
          withdrawal.totalWithdrawalAmount - (ready.map (·.amountToUnlock)).sum
        totalStorageFeeWithdrawal :=
          withdrawal.totalStorageFeeWithdrawal - (ready.map (·.storageFeeRefund)).sum
        withdrawals := rest } := by
  have amount := balanced.amount
  have storageFee := balanced.storageFee
  rw [split, List.map_append, List.sum_append] at amount storageFee
  exact ⟨by omega, by omega, ⟨by simp only; omega, by simp only; omega⟩⟩

end Record

section Map

variable [DecidableEq A] {limit : ℕ}

omit [DecidableEq A] in
theorem WithdrawalsBookkept.empty (limit : ℕ) :
    WithdrawalsBookkept limit (State.empty : State A).withdrawals :=
  fun _ _ _ stored => by cases stored

/-- Writing a record that keeps its books, or removing one. -/
theorem WithdrawalsBookkept.update {withdrawals : ℕ → A → Option Withdrawal}
    (inv : WithdrawalsBookkept limit withdrawals) (operatorId : ℕ) (nominator : A)
    {withdrawal : Option Withdrawal} (bookkept : ∀ w ∈ withdrawal, w.Bookkept limit) :
    WithdrawalsBookkept limit (Function.update withdrawals operatorId
      (Function.update (withdrawals operatorId) nominator withdrawal)) := by
  intro other n w stored
  by_cases sameOperator : other = operatorId
  · subst sameOperator
    rw [Function.update_self] at stored
    by_cases sameNominator : n = nominator
    · subst sameNominator
      rw [Function.update_self] at stored
      exact bookkept w stored
    · rw [Function.update_of_ne sameNominator] at stored
      exact inv other n w stored
  · rw [Function.update_of_ne sameOperator] at stored
    exact inv other n w stored

/-- Removing a record. -/
theorem WithdrawalsBookkept.remove {withdrawals : ℕ → A → Option Withdrawal}
    (inv : WithdrawalsBookkept limit withdrawals) (operatorId : ℕ) (nominator : A) :
    WithdrawalsBookkept limit (Function.update withdrawals operatorId
      (Function.update (withdrawals operatorId) nominator none)) :=
  inv.update operatorId nominator (by simp)

@[simp] theorem State.removeEmptyDeposit_withdrawals (s : State A) (operatorId : ℕ)
    (nominator : A) : (s.removeEmptyDeposit operatorId nominator).withdrawals = s.withdrawals := by
  rcases State.removeEmptyDeposit_eq s operatorId nominator with kept | ⟨_, -, -, -, removed⟩
  · rw [kept]
  · rw [removed]
    rfl

@[simp] theorem State.removeEmptyDeposit_depositOnHold (s : State A) (operatorId : ℕ)
    (nominator : A) :
    (s.removeEmptyDeposit operatorId nominator).depositOnHold = s.depositOnHold := by
  rcases State.removeEmptyDeposit_eq s operatorId nominator with kept | ⟨_, -, -, -, removed⟩
  · rw [kept]
  · rw [removed]
    rfl

/-- The nominator's deposit goes when it has no shares and nothing pending. -/
theorem State.removeEmptyDeposit_deposits (s : State A) (operatorId : ℕ) (nominator : A) :
    (s.removeEmptyDeposit operatorId nominator).deposits operatorId nominator =
      if ∀ deposit ∈ s.deposits operatorId nominator,
          deposit.known.shares = 0 ∧ deposit.pending = none then none
      else s.deposits operatorId nominator := by
  unfold State.removeEmptyDeposit
  cases stored : s.deposits operatorId nominator with
  | none => simp [stored]
  | some deposit =>
    by_cases empty : deposit.known.shares = 0 ∧ deposit.pending = none
    · simp [empty]
    · simp only [empty, if_false, Option.mem_def, Option.some.injEq, forall_eq']
      exact stored

end Map

section Calls

variable [DecidableEq A] (cfg : StakingConfig A)

/-! Calls that write no withdrawal record. -/

theorem doRegisterOperator_withdrawals {s s' : State A} {operatorOwner : A} {amount : ℕ}
    {config : OperatorConfig} {operatorId epoch : ℕ}
    (registered : doRegisterOperator cfg s operatorOwner amount config =
      .ok (s', operatorId, epoch)) :
    s'.withdrawals = s.withdrawals := by
  obtain ⟨-, -, -, -, -, -, -, calculated⟩ := doRegisterOperator_eq_ok cfg registered
  obtain ⟨deposit, -, -, rfl⟩ :=
    doCalculatePreviousEpochDepositSharesAndAddNewDeposit_eq_ok calculated
  rfl

theorem doNominateOperator_withdrawals {s s' : State A} {operatorId : ℕ} {nominator : A}
    {amount : ℕ} (nominated : doNominateOperator cfg s operatorId nominator amount = .ok s') :
    s'.withdrawals = s.withdrawals := by
  obtain ⟨operator, count, added, -, -, -, -, calculated, rfl⟩ :=
    doNominateOperator_eq_ok cfg nominated
  obtain ⟨deposit, -, -, rfl⟩ :=
    doCalculatePreviousEpochDepositSharesAndAddNewDeposit_eq_ok calculated
  rfl

theorem doDeregisterOperator_withdrawals {s s' : State A} {operatorOwner : A} {operatorId : ℕ}
    (deregistered : doDeregisterOperator cfg s operatorOwner operatorId = .ok s') :
    s'.withdrawals = s.withdrawals := by
  obtain ⟨operator, -, -, -, rfl⟩ := doDeregisterOperator_eq_ok cfg deregistered
  rfl

omit [DecidableEq A] in
theorem doDeactivateOperator_withdrawals {s s' : State A} {operatorId : ℕ}
    (deactivated : doDeactivateOperator cfg s operatorId = .ok s') :
    s'.withdrawals = s.withdrawals := by
  obtain ⟨operator, summary, -, -, -, rfl⟩ := doDeactivateOperator_eq_ok cfg deactivated
  rfl

omit [DecidableEq A] in
theorem doReactivateOperator_withdrawals {s s' : State A} {operatorId : ℕ}
    (reactivated : doReactivateOperator s operatorId = .ok s') :
    s'.withdrawals = s.withdrawals := by
  obtain ⟨operator, reactivationDelay, -, -, -, rfl⟩ := doReactivateOperator_eq_ok reactivated
  rfl

omit [DecidableEq A] in
theorem doRewardOperators_withdrawals {s s' : State A} {operators : List ℕ} {rewards : ℕ}
    (rewarded : doRewardOperators s operators rewards = .ok s') :
    s'.withdrawals = s.withdrawals := by
  obtain ⟨epochRewards, treasury, rfl⟩ := doRewardOperators_eq_ok rewarded
  rfl

omit [DecidableEq A] in
theorem doMarkOperatorsAsSlashed_withdrawals {s s' : State A} {operatorIds : List ℕ}
    (marked : doMarkOperatorsAsSlashed s operatorIds = .ok s') :
    s'.withdrawals = s.withdrawals := by
  refine foldlM_invariant (fun s₁ => s₁.withdrawals = s.withdrawals) rfl
    (fun s₁ operatorId s₂ _ same step => ?_) marked
  rcases markOperatorAsSlashed_eq_ok step with rfl | ⟨operator, summary, -, -, -, rfl⟩
  · exact same
  · exact same

omit [DecidableEq A] in
theorem doMarkInvalidBundleAuthors_withdrawals {s s' : State A} {authors : List ℕ} {erHash : ℕ}
    (marked : doMarkInvalidBundleAuthors s authors erHash = .ok s') :
    s'.withdrawals = s.withdrawals := by
  refine foldlM_invariant (fun s₁ => s₁.withdrawals = s.withdrawals) rfl
    (fun s₁ operatorId s₂ _ same step => ?_) marked
  split at step
  · cases step
    exact same
  · rcases markInvalidBundleAuthor_eq_ok step with rfl | ⟨operator, summary, -, -, -, rfl⟩
    · exact same
    · exact same

omit [DecidableEq A] in
theorem doUnmarkInvalidBundleAuthors_withdrawals (s : State A) (authors : List ℕ) (erHash : ℕ) :
    (doUnmarkInvalidBundleAuthors s authors erHash).withdrawals = s.withdrawals := by
  refine foldl_invariant (fun s₁ : State A => s₁.withdrawals = s.withdrawals) rfl
    (fun s₁ operatorId _ same => ?_)
  split
  · exact same
  · rcases unmarkInvalidBundleAuthor_eq s₁ operatorId erHash with unchanged | ⟨operator, -, -,
      unmarked⟩
    · rw [unchanged]
      exact same
    · rw [unmarked]
      exact same

/-- The epoch transition converts no withdrawal: they are converted lazily, by the
calls of their nominators. -/
theorem doFinalizeDomainCurrentEpoch_withdrawals {s s' : State A} {result : EpochTransitionResult}
    (transitioned : doFinalizeDomainCurrentEpoch s = .ok (s', result)) :
    s'.withdrawals = s.withdrawals := by
  obtain ⟨s₁, selfDeposits, taken, finalized⟩ := doFinalizeDomainCurrentEpoch_eq_ok transitioned
  obtain ⟨acc, ran, rfl, -⟩ := operatorTakeRewardTaxAndStake_eq_ok taken
  have rewarded : acc.state.withdrawals = s.withdrawals := by
    refine foldlM_invariant (fun acc => acc.state.withdrawals = s.withdrawals) rfl
      (fun acc₁ entry acc₂ _ same step => ?_) ran
    rcases operatorTakeRewardTax_eq_ok step with rfl | ⟨-, operator, -, -, -,
      ⟨-, staked, -⟩ | ⟨s₂, operator₂, -, deposited, staked, -⟩⟩
    · exact same
    · rw [staked]
      exact same
    · rw [staked]
      obtain ⟨owner, -, calculated, -⟩ := depositOperatorTax_eq_ok deposited
      obtain ⟨deposit, -, -, rfl⟩ :=
        doCalculatePreviousEpochDepositSharesAndAddNewDeposit_eq_ok calculated
      exact same
  obtain ⟨acc', s₂, firstLoop, secondLoop, -, rfl⟩ := doFinalizeDomainEpochStaking_eq_ok finalized
  have first : FinalizeFrame _ acc'.state := (firstLoop_frame firstLoop).1
  have second : FinalizeFrame _ s₂ := secondLoop_frame secondLoop
  have finalizedWithdrawals : s₂.withdrawals = acc.state.withdrawals := by
    rw [second.rest, first.rest]
  exact finalizedWithdrawals.trans rewarded

end Calls

section Writes

variable [DecidableEq A] {limit : ℕ}

/-- `do_unlock_nominator` removes the nominator's record. -/
theorem WithdrawalsBookkept.doUnlockNominator [Fintype A] {s s' : State A} {operatorId : ℕ}
    {nominator : A} (inv : WithdrawalsBookkept limit s.withdrawals)
    (unlocked : doUnlockNominator s operatorId nominator = .ok s') :
    WithdrawalsBookkept limit s'.withdrawals := by
  obtain ⟨operator, info, sharePrice, stored, deposit, withdrawn, s₂, -, -, -, -, -, -, -, -, -, -,
    rfl, rfl⟩ := doUnlockNominator_eq_ok unlocked
  have removed := inv.remove operatorId nominator
  split
  · exact removed
  · exact removed

/-- `do_slash_operator` removes the records of the nominators it slashes. -/
theorem WithdrawalsBookkept.doSlashOperator [Fintype A] {s s' : State A}
    {maxNominatorCount count : ℕ} {order : List A} (inv : WithdrawalsBookkept limit s.withdrawals)
    (slashed : doSlashOperator s maxNominatorCount order = .ok (s', count)) :
    WithdrawalsBookkept limit s'.withdrawals := by
  rcases doSlashOperator_eq_ok slashed with ⟨-, rfl⟩ | ⟨_, -, -, rfl⟩ |
    ⟨pendingSlashes, operatorId, rest, operator, sharePrice, acc, -, -, -, -, ran, rfl⟩
  · exact inv
  · exact inv
  have drained : WithdrawalsBookkept limit acc.state.withdrawals := by
    refine slashNominators_invariant (fun acc => WithdrawalsBookkept limit acc.state.withdrawals)
      (fun acc₁ acc₂ nominator _ _ step loop => ?_) inv ran
    obtain ⟨_, _, _, -, state, -, -⟩ := slashNominator_eq_ok step
    rw [state]
    exact loop.remove operatorId nominator
  split
  · exact drained
  · exact drained

variable (cfg : StakingConfig A)

omit [DecidableEq A] in
/-- The record `do_withdraw_stake` merges into: the stored one, converted, with less
than `WithdrawalLimit` in its queue, or the empty one for a first withdrawal. -/
theorem convertWithdrawalForWithdraw_bookkept {s : State A} {operatorId epoch : ℕ}
    {nominator : A} {withdrawal : Option Withdrawal}
    (inv : WithdrawalsBookkept cfg.withdrawalLimit s.withdrawals)
    (converted : convertWithdrawalForWithdraw cfg s operatorId nominator epoch = .ok withdrawal) :
    (withdrawal.getD .default).Balanced ∧
      ((withdrawal.getD .default).withdrawals.length < cfg.withdrawalLimit ∨
        (withdrawal.getD .default).withdrawals = []) := by
  unfold convertWithdrawalForWithdraw at converted
  split at converted
  · cases converted
    exact ⟨(Withdrawal.default_bookkept 0).toBalanced, .inr rfl⟩
  · rename_i stored hasWithdrawal
    simp only [Except.bind_eq_ok, ensure_eq_ok, Except.pure_eq_ok] at converted
    obtain ⟨withdrawal', conversion, -, below, rfl⟩ := converted
    exact ⟨((inv operatorId nominator stored hasWithdrawal).toBalanced.convert conversion).1,
      .inl below⟩

/-- `do_withdraw_stake` writes the merged record, which keeps its books: the limit
check leaves room in the queue for the withdrawal in shares. -/
theorem WithdrawalsBookkept.doWithdrawStake {s s' : State A} {operatorId : ℕ} {nominator : A}
    {toWithdraw : ℕ} (inv : WithdrawalsBookkept cfg.withdrawalLimit s.withdrawals)
    (withdrawn : doWithdrawStake cfg s operatorId nominator toWithdraw = .ok s') :
    WithdrawalsBookkept cfg.withdrawalLimit s'.withdrawals := by
  obtain ⟨operator, count, stored, deposit, withdrawal, owner, remainingShares, sharesWithdrew,
    -, -, -, -, -, -, converted, -, -, -, -, -, -, rfl⟩ := doWithdrawStake_eq_ok cfg withdrawn
  obtain ⟨balanced, fits⟩ := convertWithdrawalForWithdraw_bookkept cfg inv converted
  refine inv.update operatorId nominator fun merged written => ?_
  rw [Option.mem_def, Option.some.injEq] at written
  subst written
  refine ⟨balanced.withdraw _ _ _ _, ?_⟩
  rcases fits with below | empty
  · refine .inl ?_
    simp only [Withdrawal.heldCount, Option.toList_some, List.length_singleton]
    omega
  · exact .inr empty

end Writes

section Unlock

variable [DecidableEq A]

/-- `do_unlock_funds` fails with `BalanceUnderflow` only at one of its `checked_sub`:
what the loop pops from the converted record is more than one of its totals. -/
theorem doUnlockFunds_balanceUnderflow {s : State A} {operatorId : ℕ} {nominator : A}
    (failed : doUnlockFunds s operatorId nominator = .error .balanceUnderflow) :
    ∃ stored withdrawal, s.withdrawals operatorId nominator = some stored ∧
      doConvertPreviousEpochWithdrawal s operatorId stored s.summary.currentEpochIndex =
        .ok withdrawal ∧
      (withdrawal.totalWithdrawalAmount < ((withdrawal.withdrawals.takeWhile fun w =>
          decide (w.unlockAtConfirmedDomainBlockNumber ≤ s.headDomainNumber)).map
          (·.amountToUnlock)).sum ∨
        withdrawal.totalStorageFeeWithdrawal < ((withdrawal.withdrawals.takeWhile fun w =>
          decide (w.unlockAtConfirmedDomainBlockNumber ≤ s.headDomainNumber)).map
          (·.storageFeeRefund)).sum) := by
  cases present : s.operators operatorId with
  | none => simp [doUnlockFunds, present] at failed
  | some operator =>
    cases hasWithdrawal : s.withdrawals operatorId nominator with
    | none => simp [doUnlockFunds, present, hasWithdrawal] at failed
    | some stored =>
      simp only [doUnlockFunds, present, hasWithdrawal, Except.bind_eq_error, ensure_eq_error,
        ensure_eq_ok, checkedSub_eq_error, List.span_eq_takeWhile_dropWhile, reduceCtorEq,
        and_false, false_or, and_true] at failed
      obtain ⟨_, -, converted | ⟨withdrawal, converted, _, -, _, -, amountUnder |
        ⟨_, -, feeUnder | ⟨_, -, paid⟩⟩⟩⟩ := failed
      · cases doConvertPreviousEpochWithdrawal_eq_error converted
      · exact ⟨stored, withdrawal, rfl, converted, .inl amountUnder⟩
      · exact ⟨stored, withdrawal, rfl, converted, .inr feeUnder⟩
      · split at paid <;> exact absurd paid Except.pure_ne_error

/-- What a successful `do_unlock_funds` in `s` did, with `converted` the nominator's
record brought up to the current epoch and `count` the number it returned. It popped
`ready`, the withdrawals at the front of the queue unlocked at the head, and left
`rest`. It took what they hold off the record's totals, which stay balanced, and their
amount off `DepositOnHold`. The record goes exactly when nothing is left in it, and
with it the deposit, if that is empty too. -/
structure FundsUnlocked (s s' : State A) (operatorId : ℕ) (nominator : A)
    (converted : Withdrawal) (ready rest : List WithdrawalInBalance) (count : ℕ) : Prop where
  split : converted.withdrawals = ready ++ rest
  counted : count = ready.length
  nonempty : ready ≠ []
  unlocked : ∀ w ∈ ready, w.unlockAtConfirmedDomainBlockNumber ≤ s.headDomainNumber
  locked : ∀ w ∈ rest.head?, s.headDomainNumber < w.unlockAtConfirmedDomainBlockNumber
  withdrawals : s'.withdrawals = Function.update s.withdrawals operatorId
    (Function.update (s.withdrawals operatorId) nominator
      (if rest = [] ∧ converted.withdrawalInShares = none then none
      else some { converted with
        totalWithdrawalAmount :=
          converted.totalWithdrawalAmount - (ready.map (·.amountToUnlock)).sum
        totalStorageFeeWithdrawal :=
          converted.totalStorageFeeWithdrawal - (ready.map (·.storageFeeRefund)).sum
        withdrawals := rest }))
  balanced : ∀ withdrawal, s'.withdrawals operatorId nominator = some withdrawal →
    withdrawal.Balanced
  onHold : s'.depositOnHold operatorId nominator = s.depositOnHold operatorId nominator -
    min (ready.map (·.amountToUnlock)).sum (s.depositOnHold operatorId nominator)
  deposit : s'.deposits operatorId nominator =
    if s'.withdrawals operatorId nominator = none ∧ ∀ deposit ∈ s.deposits operatorId nominator,
        deposit.known.shares = 0 ∧ deposit.pending = none then none
    else s.deposits operatorId nominator

/-- `do_unlock_funds` on a record that keeps its books. -/
theorem doUnlockFunds_fundsUnlocked {limit : ℕ} {s s' : State A} {operatorId : ℕ}
    {nominator : A} {count : ℕ} (inv : WithdrawalsBookkept limit s.withdrawals)
    (unlocked : doUnlockFunds s operatorId nominator = .ok (s', count)) :
    ∃ stored converted ready rest, s.withdrawals operatorId nominator = some stored ∧
      doConvertPreviousEpochWithdrawal s operatorId stored s.summary.currentEpochIndex =
        .ok converted ∧
      FundsUnlocked s s' operatorId nominator converted ready rest count := by
  obtain ⟨operator, stored, converted, s₁, -, -, hasWithdrawal, conversion, -, released, -, -,
    counted, rfl, result⟩ := doUnlockFunds_eq_ok unlocked
  have balanced := ((inv operatorId nominator stored hasWithdrawal).toBalanced.convert conversion).1
  -- the loop pops the longest front of the queue that is unlocked at the head
  set ready := converted.withdrawals.takeWhile fun w =>
    decide (w.unlockAtConfirmedDomainBlockNumber ≤ s.headDomainNumber) with readyEq
  set rest := converted.withdrawals.dropWhile fun w =>
    decide (w.unlockAtConfirmedDomainBlockNumber ≤ s.headDomainNumber) with restEq
  have split : converted.withdrawals = ready ++ rest := List.takeWhile_append_dropWhile.symm
  obtain ⟨-, -, remaining⟩ := balanced.pop split
  have nonempty : ready ≠ [] := by
    intro empty
    rw [empty] at released
    simp at released
  have unlockedReady : ∀ w ∈ ready, w.unlockAtConfirmedDomainBlockNumber ≤ s.headDomainNumber := by
    intro w popped
    rw [readyEq] at popped
    simpa using List.mem_takeWhile_imp popped
  have locked : ∀ w ∈ rest.head?, s.headDomainNumber < w.unlockAtConfirmedDomainBlockNumber := by
    intro w first
    have notReady := List.head?_dropWhile_not (fun w : WithdrawalInBalance =>
      decide (w.unlockAtConfirmedDomainBlockNumber ≤ s.headDomainNumber)) converted.withdrawals
    rw [← restEq, Option.mem_def.mp first] at notReady
    simpa using notReady
  have withdrawals : s'.withdrawals = Function.update s.withdrawals operatorId
      (Function.update (s.withdrawals operatorId) nominator
        (if rest = [] ∧ converted.withdrawalInShares = none then none
        else some { converted with
          totalWithdrawalAmount :=
            converted.totalWithdrawalAmount - (ready.map (·.amountToUnlock)).sum
          totalStorageFeeWithdrawal :=
            converted.totalStorageFeeWithdrawal - (ready.map (·.storageFeeRefund)).sum
          withdrawals := rest })) := by
    rw [result]
    split_ifs <;> simp
  have balancedAfter : ∀ withdrawal, s'.withdrawals operatorId nominator = some withdrawal →
      withdrawal.Balanced := by
    intro withdrawal written
    rw [withdrawals, Function.update_self, Function.update_self] at written
    -- a removed record is not there to read
    split_ifs at written
    rw [Option.some.injEq] at written
    subst written
    exact remaining
  have onHold : s'.depositOnHold operatorId nominator = s.depositOnHold operatorId nominator -
      min (ready.map (·.amountToUnlock)).sum (s.depositOnHold operatorId nominator) := by
    rw [result]
    split_ifs <;> simp
  -- the deposit is looked at only once the record is gone
  have deposit : s'.deposits operatorId nominator =
      if s'.withdrawals operatorId nominator = none ∧ ∀ deposit ∈ s.deposits operatorId nominator,
          deposit.known.shares = 0 ∧ deposit.pending = none then none
      else s.deposits operatorId nominator := by
    rw [withdrawals, Function.update_self, Function.update_self, result]
    by_cases emptied : rest = [] ∧ converted.withdrawalInShares = none
    · rw [if_pos emptied, if_pos emptied, State.removeEmptyDeposit_deposits]
      simp
    · rw [if_neg emptied, if_neg emptied]
      simp
  exact ⟨stored, converted, ready, rest, hasWithdrawal, conversion, split, counted, nonempty,
    unlockedReady, locked, withdrawals, balancedAfter, onHold, deposit⟩

/-- `do_unlock_funds` writes back a record that popped at least one withdrawal: it holds
fewer than the stored one did, and fits in the limit. -/
theorem WithdrawalsBookkept.doUnlockFunds {limit : ℕ} {s s' : State A} {operatorId : ℕ}
    {nominator : A} {count : ℕ} (inv : WithdrawalsBookkept limit s.withdrawals)
    (unlocked : doUnlockFunds s operatorId nominator = .ok (s', count)) :
    WithdrawalsBookkept limit s'.withdrawals := by
  obtain ⟨stored, converted, ready, rest, hasWithdrawal, conversion, funds⟩ :=
    doUnlockFunds_fundsUnlocked inv unlocked
  have bookkept := inv operatorId nominator stored hasWithdrawal
  obtain ⟨balanced, held, -⟩ := bookkept.toBalanced.convert conversion
  have popped : 0 < ready.length := List.length_pos_iff.mpr funds.nonempty
  have fewer : rest.length + converted.withdrawalInShares.toList.length + 1 ≤ stored.heldCount := by
    rw [← held]
    unfold Withdrawal.heldCount
    rw [funds.split, List.length_append]
    omega
  have fits : rest.length + converted.withdrawalInShares.toList.length ≤ limit := by
    rcases bookkept.heldCount with within | empty
    · omega
    · -- a record with an empty queue holds at most its withdrawal in shares
      have atMostOne : stored.withdrawalInShares.toList.length ≤ 1 := by
        cases stored.withdrawalInShares <;> simp
      unfold Withdrawal.heldCount at fewer
      rw [empty, List.length_nil] at fewer
      omega
  rw [funds.withdrawals]
  refine inv.update operatorId nominator fun written isWritten => ?_
  by_cases emptied : rest = [] ∧ converted.withdrawalInShares = none
  · rw [if_pos emptied] at isWritten
    cases isWritten
  · rw [if_neg emptied, Option.mem_def, Option.some.injEq] at isWritten
    subst isWritten
    exact ⟨(balanced.pop funds.split).2.2, .inl fits⟩

end Unlock

section Ledger

variable [DecidableEq A] [Fintype A] (cfg : StakingConfig A)

/-- Every step of the ledger keeps the books of every withdrawal record. -/
theorem WithdrawalsBookkept.step {s s' : State A}
    (inv : WithdrawalsBookkept cfg.withdrawalLimit s.withdrawals) {a : Action A}
    (stepped : step cfg s a = some s') :
    WithdrawalsBookkept cfg.withdrawalLimit s'.withdrawals := by
  cases a with
  | registerOperator owner amount config =>
    simp only [Staking.step, Except.toOption_eq_some, Except.map_ok_iff] at stepped
    obtain ⟨⟨_, _, _⟩, registered, rfl⟩ := stepped
    rw [doRegisterOperator_withdrawals cfg registered]
    exact inv
  | nominateOperator operatorId nominator amount =>
    simp only [Staking.step, Except.toOption_eq_some] at stepped
    rw [doNominateOperator_withdrawals cfg stepped]
    exact inv
  | withdrawStake operatorId nominator toWithdraw =>
    simp only [Staking.step, Except.toOption_eq_some] at stepped
    exact inv.doWithdrawStake cfg stepped
  | unlockFunds operatorId nominator =>
    simp only [Staking.step, Except.toOption_eq_some, Except.map_ok_iff] at stepped
    obtain ⟨⟨_, _⟩, unlocked, rfl⟩ := stepped
    exact inv.doUnlockFunds unlocked
  | unlockNominator operatorId nominator =>
    simp only [Staking.step, Except.toOption_eq_some] at stepped
    exact inv.doUnlockNominator stepped
  | deregisterOperator owner operatorId =>
    simp only [Staking.step, Except.toOption_eq_some] at stepped
    rw [doDeregisterOperator_withdrawals cfg stepped]
    exact inv
  | deactivateOperator operatorId =>
    simp only [Staking.step, Except.toOption_eq_some] at stepped
    rw [doDeactivateOperator_withdrawals cfg stepped]
    exact inv
  | reactivateOperator operatorId =>
    simp only [Staking.step, Except.toOption_eq_some] at stepped
    rw [doReactivateOperator_withdrawals stepped]
    exact inv
  | rewardOperators operators rewards =>
    simp only [Staking.step, Except.toOption_eq_some] at stepped
    rw [doRewardOperators_withdrawals stepped]
    exact inv
  | markOperatorsAsSlashed operators =>
    simp only [Staking.step, Except.toOption_eq_some] at stepped
    rw [doMarkOperatorsAsSlashed_withdrawals stepped]
    exact inv
  | markInvalidBundleAuthors authors erHash =>
    simp only [Staking.step, Except.toOption_eq_some] at stepped
    rw [doMarkInvalidBundleAuthors_withdrawals stepped]
    exact inv
  | unmarkInvalidBundleAuthors authors erHash =>
    simp only [Staking.step, Option.some.injEq] at stepped
    rw [← stepped, doUnmarkInvalidBundleAuthors_withdrawals]
    exact inv
  | finalizeDomainCurrentEpoch =>
    simp only [Staking.step, Except.toOption_eq_some, Except.map_ok_iff] at stepped
    obtain ⟨⟨_, _⟩, transitioned, rfl⟩ := stepped
    rw [doFinalizeDomainCurrentEpoch_withdrawals transitioned]
    exact inv
  | slashOperator maxNominatorCount order =>
    simp only [Staking.step] at stepped
    split at stepped
    · simp only [Except.toOption_eq_some, Except.map_ok_iff] at stepped
      obtain ⟨⟨_, _⟩, slashed, rfl⟩ := stepped
      exact inv.doSlashOperator slashed
    · cases stepped
  -- the chain around the ledger writes no record
  | advanceHead blocks =>
    cases stepped
    exact inv
  | markPendingToSlash operatorId =>
    cases stepped
    exact inv
  | addDomainChainRewards amount =>
    cases stepped
    exact inv
  | chargeBundleStorageFee operatorId amount =>
    simp only [Staking.step] at stepped
    split at stepped
    · cases stepped
      exact inv
    · cases stepped
  | refundStorageFee operatorId amount =>
    simp only [Staking.step] at stepped
    split at stepped
    · cases stepped
      exact inv
    · cases stepped

theorem Reachable.withdrawalsBookkept {s : State A} (reachable : Reachable cfg s) :
    WithdrawalsBookkept cfg.withdrawalLimit s.withdrawals := by
  induction reachable with
  | init => exact WithdrawalsBookkept.empty _
  | step a _ stepped inv => exact inv.step cfg stepped

/-- The withdrawal records of every reachable ledger keep their books. So
`do_unlock_funds`, at any head, pops a front of the converted queue, takes exactly
what it pops off the totals, never fails with `BalanceUnderflow`, and removes the
record, and an empty deposit, exactly when nothing is left in it. -/
theorem withdrawal_records_bookkept {s : State A} (reachable : Reachable cfg s) :
    (∀ operatorId nominator withdrawal, s.withdrawals operatorId nominator = some withdrawal →
      withdrawal.totalWithdrawalAmount = (withdrawal.withdrawals.map (·.amountToUnlock)).sum ∧
      withdrawal.totalStorageFeeWithdrawal =
        (withdrawal.withdrawals.map (·.storageFeeRefund)).sum +
          (withdrawal.withdrawalInShares.map (·.storageFeeRefund)).getD 0 ∧
      withdrawal.withdrawals.length ≤ cfg.withdrawalLimit) ∧
    ∀ head operatorId nominator,
      doUnlockFunds { s with headDomainNumber := head } operatorId nominator ≠
        .error .balanceUnderflow ∧
      ∀ s' count, doUnlockFunds { s with headDomainNumber := head } operatorId nominator =
          .ok (s', count) →
        ∃ stored converted ready rest, s.withdrawals operatorId nominator = some stored ∧
          doConvertPreviousEpochWithdrawal s operatorId stored s.summary.currentEpochIndex =
            .ok converted ∧
          FundsUnlocked { s with headDomainNumber := head } s' operatorId nominator converted
            ready rest count := by
  have inv := reachable.withdrawalsBookkept cfg
  refine ⟨fun operatorId nominator withdrawal stored => ?_, fun head operatorId nominator => ?_⟩
  · have bookkept := inv operatorId nominator withdrawal stored
    exact ⟨bookkept.amount, bookkept.storageFee, bookkept.length_le⟩
  -- the books do not read the head
  have headInv : WithdrawalsBookkept cfg.withdrawalLimit
      { s with headDomainNumber := head }.withdrawals := inv
  refine ⟨fun failed => ?_, fun s' count unlocked => doUnlockFunds_fundsUnlocked headInv unlocked⟩
  obtain ⟨stored, withdrawal, hasWithdrawal, conversion, under⟩ :=
    doUnlockFunds_balanceUnderflow failed
  dsimp only at under
  have balanced :=
    ((headInv operatorId nominator stored hasWithdrawal).toBalanced.convert conversion).1
  have split : withdrawal.withdrawals =
      (withdrawal.withdrawals.takeWhile fun w =>
        decide (w.unlockAtConfirmedDomainBlockNumber ≤ head)) ++
      withdrawal.withdrawals.dropWhile fun w =>
        decide (w.unlockAtConfirmedDomainBlockNumber ≤ head) :=
    List.takeWhile_append_dropWhile.symm
  obtain ⟨amountWithin, feeWithin, -⟩ := balanced.pop split
  omega

end Ledger

/-- After `nominateAndWithdraw` the nominator's record queues a withdrawal in
balance and holds one in shares, and at head `10` an unlock succeeds. -/
theorem withdrawal_records_bookkept_after_withdrawals :
    ∃ s, Reachable sampleConfig s ∧
    ((s.withdrawals 0 true).any fun withdrawal =>
      withdrawal.withdrawals ≠ [] ∧ withdrawal.withdrawalInShares.isSome) = true ∧
    (doUnlockFunds { s with headDomainNumber := 10 } 0 true).toBool = true ∧
    (∀ operatorId nominator withdrawal, s.withdrawals operatorId nominator = some withdrawal →
      withdrawal.totalWithdrawalAmount = (withdrawal.withdrawals.map (·.amountToUnlock)).sum ∧
      withdrawal.totalStorageFeeWithdrawal =
        (withdrawal.withdrawals.map (·.storageFeeRefund)).sum +
          (withdrawal.withdrawalInShares.map (·.storageFeeRefund)).getD 0 ∧
      withdrawal.withdrawals.length ≤ sampleConfig.withdrawalLimit) ∧
    ∀ head operatorId nominator,
      doUnlockFunds { s with headDomainNumber := head } operatorId nominator ≠
        .error .balanceUnderflow ∧
      ∀ s' count, doUnlockFunds { s with headDomainNumber := head } operatorId nominator =
          .ok (s', count) →
        ∃ stored converted ready rest, s.withdrawals operatorId nominator = some stored ∧
          doConvertPreviousEpochWithdrawal s operatorId stored s.summary.currentEpochIndex =
            .ok converted ∧
          FundsUnlocked { s with headDomainNumber := head } s' operatorId nominator converted
            ready rest count := by
  obtain ⟨s, reachable, queued, unlocks⟩ := exists_reachable_of_run sampleConfig
    nominateAndWithdraw
    (P := fun s => ((s.withdrawals 0 true).any fun withdrawal =>
        withdrawal.withdrawals ≠ [] ∧ withdrawal.withdrawalInShares.isSome) = true ∧
      (doUnlockFunds { s with headDomainNumber := 10 } 0 true).toBool = true) (by decide)
  exact ⟨s, reachable, queued, unlocks, withdrawal_records_bookkept sampleConfig reachable⟩

end Subspace.Staking
