import Subspace.Domains.Staking.Epoch

/-!
# What each staking call writes

One lemma per function of `Operations.lean`: a successful call is taken apart
into its guards and the state it returns, written with the storage setters;
a call into another function of the model stays a hypothesis about that call,
to be taken apart by that function's own lemma. The invariants of the ledger
are proved from these lemmas and never unfold the functions again.
-/

namespace Subspace.Staking

variable {A : Type} [DecidableEq A]

section Helpers

variable (cfg : StakingConfig A)

omit [DecidableEq A] in
theorem notePendingStakingOperation_eq_ok {s s' : State A}
    (noted : notePendingStakingOperation cfg s = .ok s') :
    s.pendingStakingOperationCount < cfg.maxPendingStakingOperation ∧
      s' = { s with pendingStakingOperationCount := s.pendingStakingOperationCount + 1 } := by
  simp only [notePendingStakingOperation, Except.bind_eq_ok, ensure_eq_ok,
    Except.pure_eq_ok] at noted
  obtain ⟨-, below, rfl⟩ := noted
  exact ⟨below, rfl⟩

omit [DecidableEq A] in
/-- Noting a staking request changes only the count of pending operations. -/
theorem noteFirstStakingRequest_eq_ok {s s' : State A} {operator : Operator}
    (noted : noteFirstStakingRequest cfg s operator = .ok s') :
    s' = { s with pendingStakingOperationCount := s'.pendingStakingOperationCount } := by
  unfold noteFirstStakingRequest at noted
  split at noted
  · obtain ⟨-, rfl⟩ := notePendingStakingOperation_eq_ok cfg noted
    rfl
  · cases noted
    rfl

end Helpers

omit [DecidableEq A] in
@[simp] theorem State.setStorageFund_self (s : State A) (operatorId : ℕ) :
    s.setStorageFund operatorId (s.storageFundBalance operatorId) = s := by
  simp

/-- The split of a deposit into its staked part and the storage fee reserve. -/
def NewDeposit.split (depositAmount : ℕ) : NewDeposit :=
  ⟨depositAmount - storageFeeReserve.mulFloor depositAmount, storageFeeReserve.mulFloor depositAmount⟩

omit [DecidableEq A] in
theorem depositReserveForStorageFund_eq (s : State A) (operatorId depositAmount : ℕ) :
    depositReserveForStorageFund s operatorId depositAmount =
      .ok (s.setStorageFund operatorId
          (s.storageFundBalance operatorId + (NewDeposit.split depositAmount).storageFeeDeposit),
        NewDeposit.split depositAmount) := by
  simp [depositReserveForStorageFund, NewDeposit.ofAmount_eq, NewDeposit.split]

omit [DecidableEq A] in
theorem doConvertPreviousEpochDeposits_eq_ok {s : State A} {operatorId epoch : ℕ}
    {deposit deposit' : Deposit}
    (converted : doConvertPreviousEpochDeposits s operatorId deposit epoch = .ok deposit') :
    (deposit' = deposit ∧ ∀ pending ∈ deposit.pending,
        s.operatorEpochSharePrice operatorId pending.effectiveDomainEpoch = none ∧
          epoch ≤ pending.effectiveDomainEpoch) ∨
      ∃ pending price, deposit.pending = some pending ∧
        s.operatorEpochSharePrice operatorId pending.effectiveDomainEpoch = some price ∧
        deposit' = ⟨⟨deposit.known.shares + price.stakeToShares pending.amount,
          deposit.known.storageFeeDeposit + pending.storageFeeDeposit⟩, none⟩ := by
  unfold doConvertPreviousEpochDeposits at converted
  cases hp : deposit.pending with
  | none =>
    simp only [hp] at converted
    cases converted
    exact .inl ⟨rfl, by simp⟩
  | some pending =>
    simp only [hp] at converted
    cases hprice : s.operatorEpochSharePrice operatorId pending.effectiveDomainEpoch with
    | none =>
      simp only [hprice] at converted
      split at converted
      · rename_i notEnded
        cases converted
        exact .inl ⟨rfl, by simpa [hprice] using notEnded⟩
      · cases converted
    | some price =>
      simp only [hprice] at converted
      cases converted
      exact .inr ⟨pending, price, rfl, hprice, rfl⟩

omit [DecidableEq A] in
/-- A conversion moves the storage fee of the pending deposit into the known
one: the nominator's fee stays what it was. -/
theorem doConvertPreviousEpochDeposits_totalStorageFeeDeposit {s : State A}
    {operatorId epoch : ℕ} {deposit deposit' : Deposit}
    (converted : doConvertPreviousEpochDeposits s operatorId deposit epoch = .ok deposit') :
    deposit'.totalStorageFeeDeposit = deposit.totalStorageFeeDeposit := by
  rcases doConvertPreviousEpochDeposits_eq_ok converted with ⟨rfl, -⟩ | ⟨pending, price, hp, -, rfl⟩
  · rfl
  · simp only [Deposit.totalStorageFeeDeposit, hp, Option.map_some, Option.getD_some,
      Option.map_none, Option.getD_none]
    omega

omit [DecidableEq A] in
/-- A conversion goes through when the epoch of a pending deposit that has
ended has its price. -/
theorem doConvertPreviousEpochDeposits_ok_of_priced {s : State A} {operatorId epoch : ℕ}
    {deposit : Deposit}
    (priced : ∀ pending ∈ deposit.pending, pending.effectiveDomainEpoch < epoch →
      (s.operatorEpochSharePrice operatorId pending.effectiveDomainEpoch).isSome) :
    ∃ deposit', doConvertPreviousEpochDeposits s operatorId deposit epoch = .ok deposit' := by
  unfold doConvertPreviousEpochDeposits
  cases hp : deposit.pending with
  | none => exact ⟨deposit, rfl⟩
  | some pending =>
    cases hprice : s.operatorEpochSharePrice operatorId pending.effectiveDomainEpoch with
    | none =>
      have notEnded : epoch ≤ pending.effectiveDomainEpoch := by
        by_contra ended
        have available := priced pending hp (by omega)
        rw [hprice] at available
        cases available
      exact ⟨deposit, by simp [hprice, notEnded]⟩
    | some price =>
      exact ⟨⟨⟨deposit.known.shares + price.stakeToShares pending.amount,
        deposit.known.storageFeeDeposit + pending.storageFeeDeposit⟩, none⟩, by simp [hprice]⟩

omit [DecidableEq A] in
theorem doConvertPreviousEpochWithdrawal_eq_ok {s : State A} {operatorId epoch : ℕ}
    {withdrawal withdrawal' : Withdrawal}
    (converted : doConvertPreviousEpochWithdrawal s operatorId withdrawal epoch = .ok withdrawal') :
    (withdrawal' = withdrawal ∧ ∀ inShares ∈ withdrawal.withdrawalInShares,
        epoch ≤ inShares.domainEpoch) ∨
      ∃ inShares price, withdrawal.withdrawalInShares = some inShares ∧
        inShares.domainEpoch < epoch ∧
        s.operatorEpochSharePrice operatorId inShares.domainEpoch = some price ∧
        withdrawal' = { withdrawal with
          totalWithdrawalAmount := withdrawal.totalWithdrawalAmount + price.sharesToStake inShares.shares
          withdrawals := withdrawal.withdrawals ++
            [⟨inShares.unlockAtConfirmedDomainBlockNumber, price.sharesToStake inShares.shares,
              inShares.storageFeeRefund⟩]
          withdrawalInShares := none } := by
  unfold doConvertPreviousEpochWithdrawal at converted
  cases hw : withdrawal.withdrawalInShares with
  | none =>
    simp only [hw] at converted
    cases converted
    exact .inl ⟨rfl, by simp⟩
  | some inShares =>
    simp only [hw] at converted
    by_cases notEnded : epoch ≤ inShares.domainEpoch
    · rw [if_pos notEnded] at converted
      cases converted
      exact .inl ⟨rfl, by simpa using notEnded⟩
    · rw [if_neg notEnded] at converted
      cases hprice : s.operatorEpochSharePrice operatorId inShares.domainEpoch with
      | none =>
        simp only [hprice] at converted
        cases converted
      | some price =>
        simp only [hprice] at converted
        cases converted
        exact .inr ⟨inShares, price, rfl, by omega, hprice, rfl⟩

omit [DecidableEq A] in
/-- A conversion goes through when the epoch of a withdrawal that has ended
has its price. -/
theorem doConvertPreviousEpochWithdrawal_ok_of_priced {s : State A} {operatorId epoch : ℕ}
    {withdrawal : Withdrawal}
    (priced : ∀ inShares ∈ withdrawal.withdrawalInShares, inShares.domainEpoch < epoch →
      (s.operatorEpochSharePrice operatorId inShares.domainEpoch).isSome) :
    ∃ withdrawal', doConvertPreviousEpochWithdrawal s operatorId withdrawal epoch = .ok withdrawal' := by
  unfold doConvertPreviousEpochWithdrawal
  cases hw : withdrawal.withdrawalInShares with
  | none => exact ⟨withdrawal, rfl⟩
  | some inShares =>
    by_cases notEnded : epoch ≤ inShares.domainEpoch
    · exact ⟨withdrawal, by simp [notEnded]⟩
    · obtain ⟨price, hprice⟩ := Option.isSome_iff_exists.mp (priced inShares hw (by omega))
      exact ⟨{ withdrawal with
        totalWithdrawalAmount := withdrawal.totalWithdrawalAmount + price.sharesToStake inShares.shares
        withdrawals := withdrawal.withdrawals ++
          [⟨inShares.unlockAtConfirmedDomainBlockNumber, price.sharesToStake inShares.shares,
            inShares.storageFeeRefund⟩]
        withdrawalInShares := none }, by simp [notEnded, hprice]⟩

theorem doCalculatePreviousEpochDepositSharesAndAddNewDeposit_eq_ok {s s' : State A}
    {operatorId : ℕ} {nominator : A} {epoch : ℕ} {newDeposit : NewDeposit}
    {requiredMinimumNominatorStake : Option ℕ}
    (added : doCalculatePreviousEpochDepositSharesAndAddNewDeposit s operatorId nominator epoch
      newDeposit requiredMinimumNominatorStake = .ok s') :
    ∃ deposit, doConvertPreviousEpochDeposits s operatorId
        ((s.deposits operatorId nominator).getD .default) epoch = .ok deposit ∧
      (deposit.known.shares = 0 → ∀ minimum ∈ requiredMinimumNominatorStake,
        minimum ≤ (addPendingDeposit deposit.pending epoch newDeposit).total) ∧
      s' = s.setDeposit operatorId nominator
        (some { deposit with pending := some (addPendingDeposit deposit.pending epoch newDeposit) }) := by
  simp only [doCalculatePreviousEpochDepositSharesAndAddNewDeposit, Except.bind_eq_ok,
    ensure_eq_ok, Except.pure_eq_ok] at added
  obtain ⟨deposit, converted, -, meets, rfl⟩ := added
  exact ⟨deposit, converted, meets, rfl⟩

/-- The storage fee `storageFeeOfShares` takes never exceeds the fee it is a part of. -/
theorem storageFeeOfShares_le (shares knownShares storageFee : ℕ) :
    storageFeeOfShares shares knownShares storageFee ≤ storageFee :=
  PerThing.mulFloor_le_self _ _

/-- All the shares take all the fee. -/
theorem storageFeeOfShares_self (shares storageFee : ℕ) :
    storageFeeOfShares shares shares storageFee = storageFee := by
  unfold storageFeeOfShares
  rcases Nat.eq_zero_or_pos shares with rfl | positive
  · simp [PerThing.fromRational, PerThing.mulFloor_one]
  · rw [PerThing.fromRational_self positive, PerThing.mulFloor_one (by norm_num)]

section Operations

variable (cfg : StakingConfig A)

theorem doNominateOperator_eq_ok {s s' : State A} {operatorId : ℕ} {nominator : A} {amount : ℕ}
    (nominated : doNominateOperator cfg s operatorId nominator amount = .ok s') :
    ∃ operator count added, s.operators operatorId = some operator ∧ amount ≠ 0 ∧
      operator.status s operatorId = .registered ∧
      noteFirstStakingRequest cfg s operator =
        .ok { s with pendingStakingOperationCount := count } ∧
      doCalculatePreviousEpochDepositSharesAndAddNewDeposit
        (holdDeposit ({ s with pendingStakingOperationCount := count }.setStorageFund operatorId
          (s.storageFundBalance operatorId + (NewDeposit.split amount).storageFeeDeposit))
          nominator operatorId (NewDeposit.split amount).staking)
        operatorId nominator s.summary.currentEpochIndex (NewDeposit.split amount)
        (some operator.minimumNominatorStake) = .ok added ∧
      s' = added.setOperator operatorId (some { operator with
        depositsInEpoch := operator.depositsInEpoch + (NewDeposit.split amount).staking
        totalStorageFeeDeposit :=
          operator.totalStorageFeeDeposit + (NewDeposit.split amount).storageFeeDeposit }) := by
  cases present : s.operators operatorId with
  | none => simp [doNominateOperator, present] at nominated
  | some operator =>
    simp only [doNominateOperator, present, Except.bind_eq_ok, ensure_eq_ok,
      depositReserveForStorageFund_eq, Except.ok.injEq, Except.pure_eq_ok] at nominated
    obtain ⟨-, nonzero, -, registered, counted, noted, _, rfl, added, calculated, rfl⟩ := nominated
    have counted_eq := noteFirstStakingRequest_eq_ok cfg noted
    rw [counted_eq] at noted calculated
    exact ⟨operator, _, added, rfl, nonzero, registered, noted, calculated, rfl⟩

theorem doRegisterOperator_eq_ok {s s' : State A} {operatorOwner : A} {amount : ℕ}
    {config : OperatorConfig} {operatorId epoch : ℕ}
    (registered : doRegisterOperator cfg s operatorOwner amount config = .ok (s', operatorId, epoch)) :
    s.pendingStakingOperationCount < cfg.maxPendingStakingOperation ∧ config.signingKey ≠ 0 ∧
      cfg.minNominatorStake ≤ config.minimumNominatorStake ∧
      cfg.isOperatorAllowed operatorOwner = true ∧ cfg.minOperatorStake ≤ amount ∧
      operatorId = s.nextOperatorId ∧ epoch = s.summary.currentEpochIndex ∧
      doCalculatePreviousEpochDepositSharesAndAddNewDeposit
        { ((holdDeposit ({ s with
              pendingStakingOperationCount := s.pendingStakingOperationCount + 1
              nextOperatorId := s.nextOperatorId + 1
              operatorIdOwner := Function.update s.operatorIdOwner s.nextOperatorId
                (some operatorOwner) }.setStorageFund s.nextOperatorId
              (s.storageFundBalance s.nextOperatorId + (NewDeposit.split amount).storageFeeDeposit))
            operatorOwner s.nextOperatorId (NewDeposit.split amount).staking).setOperator
            s.nextOperatorId (some (Operator.ofConfig config (NewDeposit.split amount)))).setSharePrice
            s.nextOperatorId s.summary.currentEpochIndex SharePrice.one with
          summary := { s.summary with
            nextOperators := insert s.nextOperatorId s.summary.nextOperators } }
        s.nextOperatorId operatorOwner s.summary.currentEpochIndex (NewDeposit.split amount) none =
        .ok s' := by
  simp only [doRegisterOperator, Except.bind_eq_ok, ensure_eq_ok, depositReserveForStorageFund_eq,
    Except.ok.injEq, Except.pure_eq_ok] at registered
  obtain ⟨counted, noted, -, signed, -, minimum, -, allowed, -, staked, _, rfl, added, calculated,
    result⟩ := registered
  obtain ⟨below, rfl⟩ := notePendingStakingOperation_eq_ok cfg noted
  simp only [Prod.mk.injEq] at result
  obtain ⟨rfl, rfl, rfl⟩ := result
  exact ⟨below, signed, minimum, allowed, staked, rfl, rfl, calculated⟩

theorem doDeregisterOperator_eq_ok {s s' : State A} {operatorOwner : A} {operatorId : ℕ}
    (deregistered : doDeregisterOperator cfg s operatorOwner operatorId = .ok s') :
    ∃ operator, s.operatorIdOwner operatorId = some operatorOwner ∧
      s.operators operatorId = some operator ∧
      operator.isRegisteredOrDeactivated s operatorId = true ∧
      s' = { s with
        deactivatedOperators := if operator.partialStatus.isDeactivated then
          s.deactivatedOperators.erase operatorId else s.deactivatedOperators
        summary := { s.summary with nextOperators := s.summary.nextOperators.erase operatorId }
        deregisteredOperators := insert operatorId s.deregisteredOperators }.setOperator operatorId
        (some { operator with partialStatus := (.deregistered
          ⟨s.summary.currentEpochIndex, s.headDomainNumber + cfg.stakeWithdrawalLockingPeriod⟩) }) := by
  cases present : s.operators operatorId with
  | none => simp [doDeregisterOperator, present] at deregistered
  | some operator =>
    simp only [doDeregisterOperator, present, Except.bind_eq_ok, ensure_eq_ok,
      Except.pure_eq_ok] at deregistered
    obtain ⟨-, owner, -, active, rfl⟩ := deregistered
    exact ⟨operator, owner, rfl, active, rfl⟩

/-- Taking an operator out of the current set changes only the current set
and the domain's total stake. -/
theorem removeFromCurrentOperators_eq_ok {summary summary' : StakingSummary} {operatorId : ℕ}
    {operator : Operator}
    (removed : removeFromCurrentOperators summary operatorId operator = .ok summary') :
    summary' = { summary with
      currentTotalStake := summary'.currentTotalStake
      currentOperators := summary'.currentOperators } := by
  unfold removeFromCurrentOperators at removed
  split at removed
  · simp only [Except.bind_eq_ok, Except.pure_eq_ok] at removed
    obtain ⟨total, -, rfl⟩ := removed
    rfl
  · cases removed
    rfl

omit [DecidableEq A] in
theorem doDeactivateOperator_eq_ok {s s' : State A} {operatorId : ℕ}
    (deactivated : doDeactivateOperator cfg s operatorId = .ok s') :
    ∃ operator summary, s.operators operatorId = some operator ∧
      operator.status s operatorId = .registered ∧
      removeFromCurrentOperators s.summary operatorId operator = .ok summary ∧
      s' = { s with
        summary := { summary with nextOperators := summary.nextOperators.erase operatorId }
        deactivatedOperators := insert operatorId s.deactivatedOperators }.setOperator operatorId
        (some { operator with partialStatus :=
          (.deactivated (s.summary.currentEpochIndex + cfg.operatorActivationDelayInEpochs)) }) := by
  cases present : s.operators operatorId with
  | none => simp [doDeactivateOperator, present] at deactivated
  | some operator =>
    simp only [doDeactivateOperator, present, Except.bind_eq_ok, ensure_eq_ok,
      Except.pure_eq_ok] at deactivated
    obtain ⟨-, registered, summary, removed, rfl⟩ := deactivated
    exact ⟨operator, summary, rfl, registered, removed, rfl⟩

omit [DecidableEq A] in
theorem doReactivateOperator_eq_ok {s s' : State A} {operatorId : ℕ}
    (reactivated : doReactivateOperator s operatorId = .ok s') :
    ∃ operator reactivationDelay, s.operators operatorId = some operator ∧
      operator.status s operatorId = .deactivated reactivationDelay ∧
      reactivationDelay ≤ s.summary.currentEpochIndex ∧
      s' = { s with
        summary := { s.summary with nextOperators := insert operatorId s.summary.nextOperators }
        deactivatedOperators := s.deactivatedOperators.erase operatorId }.setOperator operatorId
        (some { operator with partialStatus := .registered }) := by
  cases present : s.operators operatorId with
  | none => simp [doReactivateOperator, present] at reactivated
  | some operator =>
    cases status : operator.status s operatorId with
    | deactivated reactivationDelay =>
      simp only [doReactivateOperator, present, status, Except.bind_eq_ok, ensure_eq_ok,
        Except.pure_eq_ok] at reactivated
      obtain ⟨-, ready, rfl⟩ := reactivated
      exact ⟨operator, reactivationDelay, rfl, status, ready, rfl⟩
    | _ => simp [doReactivateOperator, present, status] at reactivated

omit [DecidableEq A] in
/-- A transfer out of a storage fund takes no more than the fund holds. -/
theorem withdrawFromStorageFund_eq_ok {e : BundleStorageFundError} {s s' : State A}
    {operatorId amount : ℕ} (withdrawn : withdrawFromStorageFund e s operatorId amount = .ok s') :
    amount ≤ s.storageFundBalance operatorId ∧
      s' = s.setStorageFund operatorId (s.storageFundBalance operatorId - amount) := by
  unfold withdrawFromStorageFund at withdrawn
  split at withdrawn
  · rename_i nothing
    cases withdrawn
    subst nothing
    exact ⟨Nat.zero_le _, by simp⟩
  · split at withdrawn
    · rename_i enough
      cases withdrawn
      exact ⟨enough, rfl⟩
    · cases withdrawn

omit [DecidableEq A] in
/-- A withdrawal that leaves no shares takes all the known shares. -/
theorem sharesToWithdraw_zero {s : State A} {operatorId : ℕ} {operator : Operator}
    {deposit : Deposit} {isOperatorOwner : Bool} {toWithdraw sharesWithdrew : ℕ}
    (split : sharesToWithdraw cfg s operatorId operator deposit isOperatorOwner toWithdraw =
      .ok (0, sharesWithdrew)) :
    sharesWithdrew = deposit.known.shares := by
  simp only [sharesToWithdraw, Except.bind_eq_ok] at split
  obtain ⟨remainingShares, remaining, split⟩ := split
  obtain ⟨within, rfl⟩ := checkedSub_eq_ok.mp remaining
  split at split
  · rename_i none
    split at split
    · cases split
    · simp only [Except.pure_eq_ok, Prod.mk.injEq] at split
      omega
  · simp only [Except.bind_eq_ok] at split
    obtain ⟨_, -, split⟩ := split
    split at split
    · cases split
    · split at split
      · simp only [Except.pure_eq_ok, Prod.mk.injEq] at split
        exact split.2.symm
      · simp only [Except.pure_eq_ok, Prod.mk.injEq] at split
        omega

theorem doWithdrawStake_eq_ok {s s' : State A} {operatorId : ℕ} {nominator : A} {toWithdraw : ℕ}
    (withdrawn : doWithdrawStake cfg s operatorId nominator toWithdraw = .ok s') :
    ∃ operator count stored deposit withdrawal owner remainingShares sharesWithdrew,
      toWithdraw ≠ 0 ∧ s.operators operatorId = some operator ∧
      operator.isRegisteredOrDeactivated s operatorId = true ∧
      noteFirstStakingRequest cfg s operator = .ok { s with pendingStakingOperationCount := count } ∧
      s.deposits operatorId nominator = some stored ∧
      doConvertPreviousEpochDeposits s operatorId stored s.summary.currentEpochIndex = .ok deposit ∧
      convertWithdrawalForWithdraw cfg s operatorId nominator s.summary.currentEpochIndex =
        .ok withdrawal ∧
      s.operatorIdOwner operatorId = some owner ∧
      sharesToWithdraw cfg s operatorId operator deposit (decide (owner = nominator)) toWithdraw =
        .ok (remainingShares, sharesWithdrew) ∧
      (storageFundRedeemPrice s operatorId operator.totalStorageFeeDeposit).redeem
          (storageFeeOfShares sharesWithdrew deposit.known.shares deposit.known.storageFeeDeposit) ≤
        s.storageFundBalance operatorId ∧
      storageFeeOfShares sharesWithdrew deposit.known.shares deposit.known.storageFeeDeposit ≤
        deposit.known.storageFeeDeposit ∧
      storageFeeOfShares sharesWithdrew deposit.known.shares deposit.known.storageFeeDeposit ≤
        operator.totalStorageFeeDeposit ∧
      (remainingShares = 0 → ∀ pending ∈ deposit.pending,
        operator.minimumNominatorStake ≤ pending.total) ∧
      s' = (({ { s with pendingStakingOperationCount := count }.setStorageFund operatorId
          (s.storageFundBalance operatorId -
            (storageFundRedeemPrice s operatorId operator.totalStorageFeeDeposit).redeem
              (storageFeeOfShares sharesWithdrew deposit.known.shares
                deposit.known.storageFeeDeposit)) with
          deactivatedOperators := if operator.partialStatus.isDeactivated then
            insert operatorId s.deactivatedOperators else s.deactivatedOperators }.setDeposit
          operatorId nominator (some ⟨⟨remainingShares, deposit.known.storageFeeDeposit -
            storageFeeOfShares sharesWithdrew deposit.known.shares deposit.known.storageFeeDeposit⟩,
            deposit.pending⟩)).setWithdrawal operatorId nominator (some { withdrawal.getD .default with
          withdrawalInShares := some (addWithdrawalInShares
            (withdrawal.getD .default).withdrawalInShares s.summary.currentEpochIndex
            (s.headDomainNumber + cfg.stakeWithdrawalLockingPeriod) sharesWithdrew
            ((storageFundRedeemPrice s operatorId operator.totalStorageFeeDeposit).redeem
              (storageFeeOfShares sharesWithdrew deposit.known.shares
                deposit.known.storageFeeDeposit)))
          totalStorageFeeWithdrawal := (withdrawal.getD .default).totalStorageFeeWithdrawal +
            (storageFundRedeemPrice s operatorId operator.totalStorageFeeDeposit).redeem
              (storageFeeOfShares sharesWithdrew deposit.known.shares
                deposit.known.storageFeeDeposit) })).setOperator operatorId (some { operator with
        totalStorageFeeDeposit := operator.totalStorageFeeDeposit -
          storageFeeOfShares sharesWithdrew deposit.known.shares deposit.known.storageFeeDeposit
        withdrawalsInEpoch := operator.withdrawalsInEpoch + sharesWithdrew }) := by
  cases present : s.operators operatorId with
  | none => simp [doWithdrawStake, present] at withdrawn
  | some operator =>
    cases hasDeposit : s.deposits operatorId nominator with
    | none =>
      simp only [doWithdrawStake, present, Except.bind_eq_ok, ensure_eq_ok] at withdrawn
      obtain ⟨-, -, -, -, counted, noted, rest⟩ := withdrawn
      rw [noteFirstStakingRequest_eq_ok cfg noted] at rest
      simp [hasDeposit] at rest
    | some stored =>
      cases hasOwner : s.operatorIdOwner operatorId with
      | none =>
        simp only [doWithdrawStake, present, Except.bind_eq_ok, ensure_eq_ok] at withdrawn
        obtain ⟨-, -, -, -, counted, noted, rest⟩ := withdrawn
        rw [noteFirstStakingRequest_eq_ok cfg noted] at rest
        simp [hasDeposit, hasOwner] at rest
      | some owner =>
        simp only [doWithdrawStake, present, Except.bind_eq_ok, ensure_eq_ok] at withdrawn
        obtain ⟨-, nonzero, -, active, counted, noted, rest⟩ := withdrawn
        have counted_eq := noteFirstStakingRequest_eq_ok cfg noted
        rw [counted_eq] at noted rest
        simp only [hasDeposit, hasOwner, Except.bind_eq_ok, ensure_eq_ok, Except.pure_eq_ok] at rest
        obtain ⟨deposit, converted, withdrawal, convertedWithdrawal, ⟨remainingShares,
          sharesWithdrew⟩, split, s₁, held, knownFee, knownFeeOk, totalFee, totalFeeOk, -,
          meets, rfl⟩ := rest
        obtain ⟨enough, rfl⟩ := withdrawFromStorageFund_eq_ok held
        obtain ⟨knownWithin, rfl⟩ := checkedSub_eq_ok.mp knownFeeOk
        obtain ⟨totalWithin, rfl⟩ := checkedSub_eq_ok.mp totalFeeOk
        exact ⟨operator, _, stored, deposit, withdrawal, owner, remainingShares, sharesWithdrew,
          nonzero, rfl, active, noted, rfl, converted, convertedWithdrawal, rfl, split, enough,
          knownWithin, totalWithin, meets, rfl⟩

/-- `removeEmptyDeposit` removes only a deposit with no shares and nothing
pending. -/
theorem State.removeEmptyDeposit_eq (s : State A) (operatorId : ℕ) (nominator : A) :
    s.removeEmptyDeposit operatorId nominator = s ∨
      ∃ deposit, s.deposits operatorId nominator = some deposit ∧ deposit.known.shares = 0 ∧
        deposit.pending = none ∧
        s.removeEmptyDeposit operatorId nominator = s.setDeposit operatorId nominator none := by
  unfold State.removeEmptyDeposit
  split
  · rename_i deposit stored
    split
    · rename_i empty
      exact .inr ⟨deposit, stored, empty.1, empty.2, rfl⟩
    · exact .inl rfl
  · exact .inl rfl

theorem doUnlockFunds_eq_ok {s s' : State A} {operatorId : ℕ} {nominator : A} {count : ℕ}
    (unlocked : doUnlockFunds s operatorId nominator = .ok (s', count)) :
    ∃ operator stored withdrawal s₁, s.operators operatorId = some operator ∧
      operator.isRegisteredOrDeactivated s operatorId = true ∧
      s.withdrawals operatorId nominator = some stored ∧
      doConvertPreviousEpochWithdrawal s operatorId stored s.summary.currentEpochIndex =
        .ok withdrawal ∧
      withdrawal.withdrawals ≠ [] ∧
      (((withdrawal.withdrawals.takeWhile fun w =>
          decide (w.unlockAtConfirmedDomainBlockNumber ≤ s.headDomainNumber)).map
          (·.amountToUnlock)).sum ≠ 0 ∨
        ((withdrawal.withdrawals.takeWhile fun w =>
          decide (w.unlockAtConfirmedDomainBlockNumber ≤ s.headDomainNumber)).map
          (·.storageFeeRefund)).sum ≠ 0) ∧
      ((withdrawal.withdrawals.takeWhile fun w =>
          decide (w.unlockAtConfirmedDomainBlockNumber ≤ s.headDomainNumber)).map
          (·.amountToUnlock)).sum ≤ withdrawal.totalWithdrawalAmount ∧
      ((withdrawal.withdrawals.takeWhile fun w =>
          decide (w.unlockAtConfirmedDomainBlockNumber ≤ s.headDomainNumber)).map
          (·.storageFeeRefund)).sum ≤ withdrawal.totalStorageFeeWithdrawal ∧
      count = (withdrawal.withdrawals.takeWhile fun w =>
          decide (w.unlockAtConfirmedDomainBlockNumber ≤ s.headDomainNumber)).length ∧
      s₁ = s.setDepositOnHold operatorId nominator (s.depositOnHold operatorId nominator -
        min ((withdrawal.withdrawals.takeWhile fun w =>
          decide (w.unlockAtConfirmedDomainBlockNumber ≤ s.headDomainNumber)).map
          (·.amountToUnlock)).sum (s.depositOnHold operatorId nominator)) ∧
      s' = if (withdrawal.withdrawals.dropWhile fun w =>
            decide (w.unlockAtConfirmedDomainBlockNumber ≤ s.headDomainNumber)) = [] ∧
          withdrawal.withdrawalInShares = none then
        (s₁.setWithdrawal operatorId nominator none).removeEmptyDeposit operatorId nominator
      else s₁.setWithdrawal operatorId nominator (some { withdrawal with
        totalWithdrawalAmount := withdrawal.totalWithdrawalAmount -
          ((withdrawal.withdrawals.takeWhile fun w =>
            decide (w.unlockAtConfirmedDomainBlockNumber ≤ s.headDomainNumber)).map
            (·.amountToUnlock)).sum
        totalStorageFeeWithdrawal := withdrawal.totalStorageFeeWithdrawal -
          ((withdrawal.withdrawals.takeWhile fun w =>
            decide (w.unlockAtConfirmedDomainBlockNumber ≤ s.headDomainNumber)).map
            (·.storageFeeRefund)).sum
        withdrawals := withdrawal.withdrawals.dropWhile fun w =>
          decide (w.unlockAtConfirmedDomainBlockNumber ≤ s.headDomainNumber) }) := by
  cases present : s.operators operatorId with
  | none => simp [doUnlockFunds, present] at unlocked
  | some operator =>
    cases hasWithdrawal : s.withdrawals operatorId nominator with
    | none => simp [doUnlockFunds, present, hasWithdrawal] at unlocked
    | some stored =>
      simp only [doUnlockFunds, present, hasWithdrawal, Except.bind_eq_ok, ensure_eq_ok,
        List.span_eq_takeWhile_dropWhile] at unlocked
      obtain ⟨-, active, withdrawal, converted, -, nonempty, -, released, total, totalOk,
        totalFee, totalFeeOk, result⟩ := unlocked
      obtain ⟨within, rfl⟩ := checkedSub_eq_ok.mp totalOk
      obtain ⟨feeWithin, rfl⟩ := checkedSub_eq_ok.mp totalFeeOk
      refine ⟨operator, stored, withdrawal, _, rfl, active, rfl, converted, nonempty, released,
        within, feeWithin, ?_, rfl, ?_⟩ <;>
      · split at result <;>
        · simp only [Except.pure_eq_ok, Prod.mk.injEq] at result
          obtain ⟨rfl, rfl⟩ := result
          simp_all

theorem doUnlockNominator_eq_ok [Fintype A] {s s' : State A} {operatorId : ℕ} {nominator : A}
    (unlocked : doUnlockNominator s operatorId nominator = .ok s') :
    ∃ operator info sharePrice stored deposit withdrawn s₂,
      s.operators operatorId = some operator ∧
      operator.status s operatorId = .deregistered info ∧
      info.unlockAtConfirmedDomainBlockNumber ≤ s.headDomainNumber ∧
      SharePrice.new operator.currentTotalShares operator.currentTotalStake = .ok sharePrice ∧
      s.deposits operatorId nominator = some stored ∧
      doConvertPreviousEpochDeposits s operatorId stored s.summary.currentEpochIndex =
        .ok deposit ∧
      withdrawalToUnlock s operatorId nominator s.summary.currentEpochIndex = .ok withdrawn ∧
      deposit.known.shares + withdrawn.2.2 ≤ operator.currentTotalShares ∧
      sharePrice.sharesToStake (deposit.known.shares + withdrawn.2.2) ≤
        operator.currentTotalStake ∧
      (storageFundRedeemPrice s operatorId operator.totalStorageFeeDeposit).redeem
          deposit.totalStorageFeeDeposit ≤ s.storageFundBalance operatorId ∧
      s₂ = (((s.setStorageFund operatorId (s.storageFundBalance operatorId -
          (storageFundRedeemPrice s operatorId operator.totalStorageFeeDeposit).redeem
            deposit.totalStorageFeeDeposit)).setDeposit operatorId nominator none).setWithdrawal
          operatorId nominator none).setDepositOnHold operatorId nominator 0 ∧
      s' = if s₂.hasNominatorEntries operatorId then
          s₂.setOperator operatorId (some { operator with
            currentTotalShares := operator.currentTotalShares - (deposit.known.shares + withdrawn.2.2)
            currentTotalStake := operator.currentTotalStake -
              sharePrice.sharesToStake (deposit.known.shares + withdrawn.2.2)
            totalStorageFeeDeposit :=
              operator.totalStorageFeeDeposit - deposit.totalStorageFeeDeposit })
        else doCleanupOperator (s₂.setOperator operatorId none) operatorId
          (operator.currentTotalStake -
            sharePrice.sharesToStake (deposit.known.shares + withdrawn.2.2)) := by
  cases present : s.operators operatorId with
  | none => simp [doUnlockNominator, present] at unlocked
  | some operator =>
    cases status : operator.status s operatorId with
    | deregistered info =>
      cases hasDeposit : s.deposits operatorId nominator with
      | none =>
        simp only [doUnlockNominator, present, status, Except.bind_eq_ok, ensure_eq_ok] at unlocked
        obtain ⟨-, -, sharePrice, -, rest⟩ := unlocked
        simp [hasDeposit] at rest
      | some stored =>
        simp only [doUnlockNominator, present, status, hasDeposit, Except.bind_eq_ok,
          ensure_eq_ok] at unlocked
        obtain ⟨-, unlockable, sharePrice, priced, deposit, converted, withdrawn, unlockedWithdrawal,
          totalShares, sharesOk, totalStake, stakeOk, s₁, paid, result⟩ := unlocked
        obtain ⟨sharesWithin, rfl⟩ := checkedSub_eq_ok.mp sharesOk
        obtain ⟨stakeWithin, rfl⟩ := checkedSub_eq_ok.mp stakeOk
        obtain ⟨fundWithin, rfl⟩ := withdrawFromStorageFund_eq_ok paid
        refine ⟨operator, info, sharePrice, stored, deposit, withdrawn, _, rfl, status, unlockable,
          priced, rfl, converted, unlockedWithdrawal, sharesWithin, stakeWithin, fundWithin, rfl, ?_⟩
        split at result <;>
        · simp only [Except.pure_eq_ok] at result
          simp_all
    | _ => simp [doUnlockNominator, present, status] at unlocked

omit [DecidableEq A] in
/-- Rewards change only the epoch's rewards and the treasury. -/
theorem doRewardOperators_eq_ok {s s' : State A} {operators : List ℕ} {rewards : ℕ}
    (rewarded : doRewardOperators s operators rewards = .ok s') :
    ∃ epochRewards treasury, s' = { s with
      summary := { s.summary with currentEpochRewards := epochRewards }
      treasury := treasury } := by
  unfold doRewardOperators at rewarded
  split at rewarded
  · cases rewarded
    exact ⟨s.summary.currentEpochRewards, s.treasury, rfl⟩
  · simp only [Except.bind_eq_ok, Except.pure_eq_ok] at rewarded
    obtain ⟨dust, -, rfl⟩ := rewarded
    exact ⟨_, _, rfl⟩

omit [DecidableEq A] in
/-- An operator present and not yet pending slash leaves both operator sets
and becomes `Slashed`; any other call changes nothing. -/
theorem markOperatorAsSlashed_eq_ok {s s' : State A} {operatorId : ℕ}
    (marked : markOperatorAsSlashed s operatorId = .ok s') :
    s' = s ∨ ∃ operator summary, s.operators operatorId = some operator ∧
      operatorId ∉ s.pendingSlashes.getD ∅ ∧
      removeFromCurrentOperators s.summary operatorId operator = .ok summary ∧
      s' = { s with
        summary := { summary with nextOperators := summary.nextOperators.erase operatorId }
        pendingSlashes := some (insert operatorId (s.pendingSlashes.getD ∅)) }.setOperator
        operatorId (some { operator with partialStatus := .slashed }) := by
  cases present : s.operators operatorId with
  | none =>
    simp only [markOperatorAsSlashed, present, Except.pure_eq_ok] at marked
    exact .inl marked.symm
  | some operator =>
    by_cases pending : operatorId ∈ s.pendingSlashes.getD ∅
    · simp only [markOperatorAsSlashed, present, pending, if_true, Except.pure_eq_ok] at marked
      exact .inl marked.symm
    · simp only [markOperatorAsSlashed, present, pending, if_false, Except.bind_eq_ok,
        Except.pure_eq_ok] at marked
      obtain ⟨summary, removed, rfl⟩ := marked
      exact .inr ⟨operator, summary, rfl, pending, removed, rfl⟩

omit [DecidableEq A] in
/-- A registered operator that authored an invalid bundle leaves both
operator sets and is marked with the receipt; any other call changes nothing. -/
theorem markInvalidBundleAuthor_eq_ok {s s' : State A} {operatorId erHash : ℕ}
    (marked : markInvalidBundleAuthor s operatorId erHash = .ok s') :
    s' = s ∨ ∃ operator summary, s.operators operatorId = some operator ∧
      operator.status s operatorId = .registered ∧
      removeFromCurrentOperators s.summary operatorId operator = .ok summary ∧
      s' = { s with
        summary := { summary with nextOperators := summary.nextOperators.erase operatorId }
        invalidBundleAuthors := insert operatorId s.invalidBundleAuthors }.setOperator operatorId
        (some { operator with partialStatus := .invalidBundle erHash }) := by
  cases present : s.operators operatorId with
  | none =>
    simp only [markInvalidBundleAuthor, present, Except.pure_eq_ok] at marked
    exact .inl marked.symm
  | some operator =>
    by_cases registered : operator.status s operatorId = .registered
    · simp only [markInvalidBundleAuthor, present, registered, ne_eq, not_true_eq_false,
        if_false, Except.bind_eq_ok, Except.pure_eq_ok] at marked
      obtain ⟨summary, removed, rfl⟩ := marked
      exact .inr ⟨operator, summary, rfl, registered, removed, rfl⟩
    · simp only [markInvalidBundleAuthor, present, registered, ne_eq, not_false_eq_true,
        if_true, Except.pure_eq_ok] at marked
      exact .inl marked.symm

omit [DecidableEq A] in
/-- An operator marked for the receipt is registered again and back in the
next operator set; any other is left as it is. -/
theorem unmarkInvalidBundleAuthor_eq (s : State A) (operatorId erHash : ℕ) :
    unmarkInvalidBundleAuthor s operatorId erHash = s ∨
      ∃ operator, s.operators operatorId = some operator ∧
        operator.partialStatus = .invalidBundle erHash ∧
        unmarkInvalidBundleAuthor s operatorId erHash = { s with
          summary := { s.summary with nextOperators := insert operatorId s.summary.nextOperators }
          invalidBundleAuthors := s.invalidBundleAuthors.erase operatorId }.setOperator operatorId
          (some { operator with partialStatus := .registered }) := by
  cases present : s.operators operatorId with
  | none => exact .inl (by simp [unmarkInvalidBundleAuthor, present])
  | some operator =>
    by_cases marked : operator.partialStatus = .invalidBundle erHash
    · exact .inr ⟨operator, rfl, marked, by simp [unmarkInvalidBundleAuthor, present, marked]⟩
    · exact .inl (by simp [unmarkInvalidBundleAuthor, present, marked])

end Operations

end Subspace.Staking
