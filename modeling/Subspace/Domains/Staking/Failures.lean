import Subspace.Domains.Staking.Spec

/-!
# Why a staking call fails

The errors each step of a staking call can return, and the state in which a
call cannot fail at the storage fee: a nominator whose deposit paid no more
fee than the operator's total never makes the `checked_sub` of
`do_withdraw_stake` fail, nor a transfer out of the storage fund. A failed call
is taken apart with `Except.bind_eq_error`: it failed in one of its steps, the
step lemmas here rule out the steps that cannot return the error, and the
steps left contradict the hypothesis.

The same analysis locates every `MissingOperatorEpochSharePrice`: a call
returns it only from the conversion of one of the nominator's own records, at
a pending deposit or a withdrawal in shares of an ended epoch whose price was
never written.
-/

namespace Subspace.Staking

variable {A : Type}

section Steps

variable (cfg : StakingConfig A)

theorem notePendingStakingOperation_eq_error {s : State A} {e : Error}
    (failed : notePendingStakingOperation cfg s = .error e) :
    e = .tooManyPendingStakingOperation := by
  simp only [notePendingStakingOperation, Except.bind_eq_error, ensure_eq_error] at failed
  rcases failed with ⟨-, rfl⟩ | ⟨_, -, failed⟩
  · rfl
  · cases failed

theorem noteFirstStakingRequest_eq_error {s : State A} {operator : Operator} {e : Error}
    (failed : noteFirstStakingRequest cfg s operator = .error e) :
    e = .tooManyPendingStakingOperation := by
  unfold noteFirstStakingRequest at failed
  split at failed
  · exact notePendingStakingOperation_eq_error cfg failed
  · cases failed

theorem doConvertPreviousEpochDeposits_eq_error {s : State A} {operatorId epoch : ℕ}
    {deposit : Deposit} {e : Error}
    (failed : doConvertPreviousEpochDeposits s operatorId deposit epoch = .error e) :
    e = .missingOperatorEpochSharePrice := by
  unfold doConvertPreviousEpochDeposits at failed
  split at failed
  · cases failed
  · split at failed
    · split at failed
      · cases failed
      · cases failed
        rfl
    · cases failed

theorem doConvertPreviousEpochWithdrawal_eq_error {s : State A} {operatorId epoch : ℕ}
    {withdrawal : Withdrawal} {e : Error}
    (failed : doConvertPreviousEpochWithdrawal s operatorId withdrawal epoch = .error e) :
    e = .missingOperatorEpochSharePrice := by
  unfold doConvertPreviousEpochWithdrawal at failed
  split at failed
  · cases failed
  · split at failed
    · cases failed
    · split at failed
      · cases failed
        rfl
      · cases failed

theorem convertWithdrawalForWithdraw_eq_error {s : State A} {operatorId epoch : ℕ}
    {nominator : A} {e : Error}
    (failed : convertWithdrawalForWithdraw cfg s operatorId nominator epoch = .error e) :
    (∃ withdrawal, s.withdrawals operatorId nominator = some withdrawal ∧
      doConvertPreviousEpochWithdrawal s operatorId withdrawal epoch = .error e) ∨
      e = .tooManyWithdrawals := by
  unfold convertWithdrawalForWithdraw at failed
  split at failed
  · cases failed
  · rename_i withdrawal stored
    simp only [Except.bind_eq_error, ensure_eq_error] at failed
    rcases failed with converted | ⟨_, -, ⟨-, rfl⟩ | ⟨_, -, failed⟩⟩
    · exact .inl ⟨withdrawal, stored, converted⟩
    · exact .inr rfl
    · cases failed

theorem sharesToWithdraw_eq_error {s : State A} {operatorId : ℕ} {operator : Operator}
    {deposit : Deposit} {isOperatorOwner : Bool} {toWithdraw : ℕ} {e : Error}
    (failed : sharesToWithdraw cfg s operatorId operator deposit isOperatorOwner toWithdraw =
      .error e) :
    e = .insufficientShares ∨ e = .minimumOperatorStake ∨ e = .shareOverflow ∨
      e = .zeroSharePrice := by
  simp only [sharesToWithdraw, Except.bind_eq_error] at failed
  rcases failed with failed | ⟨remainingShares, -, failed⟩
  · exact .inl (checkedSub_eq_error.mp failed).2.symm
  · split at failed
    · split at failed
      · cases failed
        exact .inr (.inl rfl)
      · cases failed
    · simp only [Except.bind_eq_error] at failed
      rcases failed with failed | ⟨_, -, failed⟩
      · rcases SharePrice.new_eq_error failed with rfl | rfl
        · exact .inr (.inr (.inl rfl))
        · exact .inr (.inr (.inr rfl))
      · split at failed
        · cases failed
          exact .inr (.inl rfl)
        · split at failed <;> cases failed

/-- A transfer out of a storage fund fails only for lack of balance. -/
theorem withdrawFromStorageFund_eq_error {e : BundleStorageFundError} {s : State A}
    {operatorId amount : ℕ} {e' : Error}
    (failed : withdrawFromStorageFund e s operatorId amount = .error e') :
    e' = .bundleStorageFund e ∧ s.storageFundBalance operatorId < amount := by
  unfold withdrawFromStorageFund at failed
  split at failed
  · cases failed
  · split at failed
    · cases failed
    · cases failed
      exact ⟨rfl, by omega⟩

/-- A redeem of no more than the operator's total fee is within the fund. -/
theorem withdrawFromStorageFund_redeem_ok {e : BundleStorageFundError} {s : State A}
    {operatorId totalDeposit fee : ℕ} (within : fee ≤ totalDeposit) :
    withdrawFromStorageFund e s operatorId
      ((storageFundRedeemPrice s operatorId totalDeposit).redeem fee) ≠ .error (.bundleStorageFund e) :=
  fun failed => by
    have short := (withdrawFromStorageFund_eq_error failed).2
    have paid := StorageFundRedeemPrice.redeem_le_totalBalance
      (storageFundRedeemPrice s operatorId totalDeposit) within
    exact absurd short (Nat.not_lt.mpr paid)

theorem withdrawalToUnlock_eq_error {s : State A} {operatorId epoch : ℕ} {nominator : A}
    {e : Error} (failed : withdrawalToUnlock s operatorId nominator epoch = .error e) :
    ∃ withdrawal, s.withdrawals operatorId nominator = some withdrawal ∧
      doConvertPreviousEpochWithdrawal s operatorId withdrawal epoch = .error e := by
  unfold withdrawalToUnlock at failed
  split at failed
  · cases failed
  · rename_i withdrawal stored
    simp only [Except.bind_eq_error, Except.pure_ne_error, and_false, exists_false,
      or_false] at failed
    exact ⟨withdrawal, stored, failed⟩

/-- A conversion of a deposit fails only on a pending deposit of an ended
epoch that has no price. -/
theorem doConvertPreviousEpochDeposits_missing {s : State A} {operatorId epoch : ℕ}
    {deposit : Deposit} {e : Error}
    (failed : doConvertPreviousEpochDeposits s operatorId deposit epoch = .error e) :
    ∃ pending ∈ deposit.pending, pending.effectiveDomainEpoch < epoch ∧
      s.operatorEpochSharePrice operatorId pending.effectiveDomainEpoch = none := by
  unfold doConvertPreviousEpochDeposits at failed
  cases hp : deposit.pending with
  | none =>
    simp only [hp] at failed
    cases failed
  | some pending =>
    simp only [hp] at failed
    cases hprice : s.operatorEpochSharePrice operatorId pending.effectiveDomainEpoch with
    | none =>
      simp only [hprice] at failed
      split at failed
      · cases failed
      · rename_i ended
        exact ⟨pending, rfl, by omega, hprice⟩
    | some price =>
      simp only [hprice] at failed
      cases failed

/-- A conversion of a withdrawal fails only on a withdrawal in shares of an
ended epoch that has no price. -/
theorem doConvertPreviousEpochWithdrawal_missing {s : State A} {operatorId epoch : ℕ}
    {withdrawal : Withdrawal} {e : Error}
    (failed : doConvertPreviousEpochWithdrawal s operatorId withdrawal epoch = .error e) :
    ∃ inShares ∈ withdrawal.withdrawalInShares, inShares.domainEpoch < epoch ∧
      s.operatorEpochSharePrice operatorId inShares.domainEpoch = none := by
  unfold doConvertPreviousEpochWithdrawal at failed
  cases hw : withdrawal.withdrawalInShares with
  | none =>
    simp only [hw] at failed
    cases failed
  | some inShares =>
    simp only [hw] at failed
    by_cases notEnded : epoch ≤ inShares.domainEpoch
    · rw [if_pos notEnded] at failed
      cases failed
    · rw [if_neg notEnded] at failed
      cases hprice : s.operatorEpochSharePrice operatorId inShares.domainEpoch with
      | none => exact ⟨inShares, rfl, by omega, hprice⟩
      | some price =>
        simp only [hprice] at failed
        cases failed

end Steps

variable [DecidableEq A] (cfg : StakingConfig A)

/-- When the nominator's deposit paid no more storage fee than the
operator's total, `do_withdraw_stake` fails neither at the `checked_sub` of
the fee nor at moving the redeemed fee out of the fund. -/
theorem doWithdrawStake_storage_fee_ok {s : State A} {operatorId : ℕ} {nominator : A}
    {toWithdraw : ℕ} {e : Error}
    (covered : ∀ operator deposit, s.operators operatorId = some operator →
      s.deposits operatorId nominator = some deposit →
      deposit.totalStorageFeeDeposit ≤ operator.totalStorageFeeDeposit)
    (feeError : e = .balanceOverflow ∨ e = .bundleStorageFund .withdrawAndHold)
    (failed : doWithdrawStake cfg s operatorId nominator toWithdraw = .error e) : False := by
  -- the steps before the fee cannot return either error
  have notNoted : ∀ (s : State A) operator, noteFirstStakingRequest cfg s operator ≠ .error e :=
    fun _ _ noted => by
      rcases feeError with rfl | rfl <;> cases noteFirstStakingRequest_eq_error cfg noted
  have notConverted : ∀ (s : State A) deposit epoch,
      doConvertPreviousEpochDeposits s operatorId deposit epoch ≠ .error e :=
    fun _ _ _ converted => by
      rcases feeError with rfl | rfl <;> cases doConvertPreviousEpochDeposits_eq_error converted
  have notConvertedWithdrawal : ∀ (s : State A) epoch,
      convertWithdrawalForWithdraw cfg s operatorId nominator epoch ≠ .error e :=
    fun _ _ converted => by
      rcases convertWithdrawalForWithdraw_eq_error cfg converted with ⟨_, -, converted⟩ | wrong
      · rcases feeError with rfl | rfl <;> cases doConvertPreviousEpochWithdrawal_eq_error converted
      · rcases feeError with rfl | rfl <;> cases wrong
  have notSplit : ∀ (s : State A) operator deposit owner,
      sharesToWithdraw cfg s operatorId operator deposit owner toWithdraw ≠ .error e :=
    fun _ _ _ _ split => by
      rcases sharesToWithdraw_eq_error cfg split with wrong | wrong | wrong | wrong <;>
      · rcases feeError with rfl | rfl <;> cases wrong
  have guards : e ≠ .zeroWithdraw ∧ e ≠ .unknownOperator ∧ e ≠ .operatorNotRegisterdOrDeactivated ∧
      e ≠ .unknownNominator ∧ e ≠ .minimumNominatorStake := by
    rcases feeError with rfl | rfl <;> simp
  obtain ⟨notZero, notUnknown, notActive, notNominator, notMinimum⟩ := guards
  cases present : s.operators operatorId with
  | none =>
    simp [doWithdrawStake, present, Ne.symm notZero, Ne.symm notUnknown] at failed
  | some operator =>
    simp only [doWithdrawStake, present, Except.bind_eq_error, ensure_eq_error, notNoted,
      Ne.symm notZero, Ne.symm notActive, and_false, false_or] at failed
    obtain ⟨-, -, -, -, s₁, noted, failed⟩ := failed
    rw [noteFirstStakingRequest_eq_ok cfg noted] at failed
    cases hasDeposit : s.deposits operatorId nominator with
    | none => simp [hasDeposit, Ne.symm notNominator] at failed
    | some stored =>
      cases hasOwner : s.operatorIdOwner operatorId with
      | none => simp [hasDeposit, hasOwner, notConverted, notConvertedWithdrawal,
          Ne.symm notUnknown] at failed
      | some owner =>
        simp only [hasDeposit, hasOwner, Except.bind_eq_error, notConverted,
          notConvertedWithdrawal, notSplit, ensure_eq_error, checkedSub_eq_error,
          Except.pure_ne_error, Ne.symm notMinimum, and_false, exists_false, or_false,
          false_or] at failed
        obtain ⟨deposit, converted, -, -, ⟨remainingShares, sharesWithdrew⟩, -, failed⟩ := failed
        dsimp only at failed
        -- the fee of the withdrawn shares is within both the known fee and the total
        have withinKnown := storageFeeOfShares_le sharesWithdrew deposit.known.shares
          deposit.known.storageFeeDeposit
        have withinTotal : storageFeeOfShares sharesWithdrew deposit.known.shares
            deposit.known.storageFeeDeposit ≤ operator.totalStorageFeeDeposit := by
          have paid := covered operator stored present hasDeposit
          rw [← doConvertPreviousEpochDeposits_totalStorageFeeDeposit converted] at paid
          unfold Deposit.totalStorageFeeDeposit at paid
          omega
        rcases failed with held | ⟨_, -, ⟨tooMuch, -⟩ | ⟨_, -, ⟨tooMuch, -⟩⟩⟩
        · have notHeld : withdrawFromStorageFund .withdrawAndHold
              { s with pendingStakingOperationCount := s₁.pendingStakingOperationCount } operatorId
              ((storageFundRedeemPrice s operatorId operator.totalStorageFeeDeposit).redeem
                (storageFeeOfShares sharesWithdrew deposit.known.shares
                  deposit.known.storageFeeDeposit)) ≠
              .error (.bundleStorageFund .withdrawAndHold) :=
            withdrawFromStorageFund_redeem_ok withinTotal
          rcases feeError with rfl | rfl
          · cases (withdrawFromStorageFund_eq_error held).1
          · exact notHeld held
        · omega
        · omega

/-- When the nominator's deposit paid no more storage fee than the
operator's total, `do_unlock_nominator` never fails to pay it out of the fund. -/
theorem doUnlockNominator_storage_fee_ok [Fintype A] {s : State A} {operatorId : ℕ}
    {nominator : A}
    (covered : ∀ operator deposit, s.operators operatorId = some operator →
      s.deposits operatorId nominator = some deposit →
      deposit.totalStorageFeeDeposit ≤ operator.totalStorageFeeDeposit) :
    doUnlockNominator s operatorId nominator ≠ .error (.bundleStorageFund .failToWithdraw) := by
  intro failed
  have notPriced : ∀ shares stake, SharePrice.new shares stake ≠
      .error (.bundleStorageFund .failToWithdraw) :=
    fun _ _ priced => by rcases SharePrice.new_eq_error priced with wrong | wrong <;> cases wrong
  have notConverted : ∀ (s : State A) deposit epoch, doConvertPreviousEpochDeposits s operatorId
      deposit epoch ≠ .error (.bundleStorageFund .failToWithdraw) :=
    fun _ _ _ converted => by cases doConvertPreviousEpochDeposits_eq_error converted
  have notWithdrawn : ∀ (s : State A) epoch, withdrawalToUnlock s operatorId nominator epoch ≠
      .error (.bundleStorageFund .failToWithdraw) :=
    fun _ _ withdrawn => by
      obtain ⟨_, -, converted⟩ := withdrawalToUnlock_eq_error withdrawn
      cases doConvertPreviousEpochWithdrawal_eq_error converted
  cases present : s.operators operatorId with
  | none => simp [doUnlockNominator, present] at failed
  | some operator =>
    cases status : operator.status s operatorId with
    | deregistered info =>
      cases hasDeposit : s.deposits operatorId nominator with
      | none =>
        simp [doUnlockNominator, present, status, hasDeposit, notPriced] at failed
      | some stored =>
        simp only [doUnlockNominator, present, status, hasDeposit, Except.bind_eq_error,
          ensure_eq_error, notPriced, notConverted, notWithdrawn, checkedSub_eq_error,
          reduceCtorEq, and_false, false_or] at failed
        obtain ⟨-, -, _, -, deposit, converted, _, -, _, -, _, -, failed⟩ := failed
        have paid := covered operator stored present hasDeposit
        rw [← doConvertPreviousEpochDeposits_totalStorageFeeDeposit converted] at paid
        rcases failed with failed | ⟨_, -, failed⟩
        · exact withdrawFromStorageFund_redeem_ok paid failed
        · split at failed <;> exact Except.pure_ne_error failed
    | _ => simp [doUnlockNominator, present, status] at failed

/-! ## Missing share prices -/

theorem doCalculatePreviousEpochDepositSharesAndAddNewDeposit_eq_error {s : State A}
    {operatorId : ℕ} {nominator : A} {epoch : ℕ} {newDeposit : NewDeposit}
    {requiredMinimumNominatorStake : Option ℕ} {e : Error}
    (failed : doCalculatePreviousEpochDepositSharesAndAddNewDeposit s operatorId nominator epoch
      newDeposit requiredMinimumNominatorStake = .error e) :
    doConvertPreviousEpochDeposits s operatorId ((s.deposits operatorId nominator).getD .default)
      epoch = .error e ∨ e = .minimumNominatorStake := by
  simp only [doCalculatePreviousEpochDepositSharesAndAddNewDeposit, Except.bind_eq_error,
    ensure_eq_error, Except.pure_ne_error, and_false, exists_false, or_false] at failed
  rcases failed with converted | ⟨_, -, -, rfl⟩
  · exact .inl converted
  · exact .inr rfl

/-- `do_nominate_operator` misses a price only at the nominator's deposit. -/
theorem doNominateOperator_missing {s : State A} {operatorId : ℕ} {nominator : A} {amount : ℕ}
    (failed : doNominateOperator cfg s operatorId nominator amount =
      .error .missingOperatorEpochSharePrice) :
    ∃ operator, s.operators operatorId = some operator ∧
      operator.status s operatorId = .registered ∧
      ∃ pending ∈ ((s.deposits operatorId nominator).getD .default).pending,
        pending.effectiveDomainEpoch < s.summary.currentEpochIndex ∧
        s.operatorEpochSharePrice operatorId pending.effectiveDomainEpoch = none := by
  have notNoted : ∀ (s : State A) operator, noteFirstStakingRequest cfg s operator ≠
      .error .missingOperatorEpochSharePrice :=
    fun _ _ noted => by cases noteFirstStakingRequest_eq_error cfg noted
  cases present : s.operators operatorId with
  | none => simp [doNominateOperator, present] at failed
  | some operator =>
    simp only [doNominateOperator, present, Except.bind_eq_error, ensure_eq_error, ensure_eq_ok,
      notNoted, depositReserveForStorageFund_eq, reduceCtorEq, and_false, false_or,
      Except.ok.injEq, exists_eq_left', Except.pure_ne_error, exists_false, or_false] at failed
    obtain ⟨_, -, _, registered, _, noted, calculated⟩ := failed
    rw [noteFirstStakingRequest_eq_ok cfg noted] at calculated
    rcases doCalculatePreviousEpochDepositSharesAndAddNewDeposit_eq_error calculated with
      converted | wrong
    · exact ⟨operator, rfl, registered, doConvertPreviousEpochDeposits_missing converted⟩
    · cases wrong

/-- `do_withdraw_stake` misses a price only at the nominator's deposit or
withdrawal. -/
theorem doWithdrawStake_missing {s : State A} {operatorId : ℕ} {nominator : A} {toWithdraw : ℕ}
    (failed : doWithdrawStake cfg s operatorId nominator toWithdraw =
      .error .missingOperatorEpochSharePrice) :
    ∃ operator, s.operators operatorId = some operator ∧
      operator.isRegisteredOrDeactivated s operatorId = true ∧
      ((∃ deposit, s.deposits operatorId nominator = some deposit ∧
          ∃ pending ∈ deposit.pending, pending.effectiveDomainEpoch < s.summary.currentEpochIndex ∧
            s.operatorEpochSharePrice operatorId pending.effectiveDomainEpoch = none) ∨
        ∃ withdrawal, s.withdrawals operatorId nominator = some withdrawal ∧
          ∃ inShares ∈ withdrawal.withdrawalInShares,
            inShares.domainEpoch < s.summary.currentEpochIndex ∧
            s.operatorEpochSharePrice operatorId inShares.domainEpoch = none) := by
  have notNoted : ∀ (s : State A) operator, noteFirstStakingRequest cfg s operator ≠
      .error .missingOperatorEpochSharePrice :=
    fun _ _ noted => by cases noteFirstStakingRequest_eq_error cfg noted
  have notSplit : ∀ (s : State A) operator deposit owner,
      sharesToWithdraw cfg s operatorId operator deposit owner toWithdraw ≠
        .error .missingOperatorEpochSharePrice :=
    fun _ _ _ _ split => by
      rcases sharesToWithdraw_eq_error cfg split with wrong | wrong | wrong | wrong <;> cases wrong
  have notHeld : ∀ (s : State A) amount, withdrawAndHold s operatorId amount ≠
      .error .missingOperatorEpochSharePrice :=
    fun _ _ held => by cases (withdrawFromStorageFund_eq_error held).1
  cases present : s.operators operatorId with
  | none => simp [doWithdrawStake, present] at failed
  | some operator =>
    simp only [doWithdrawStake, present, Except.bind_eq_error, ensure_eq_error, ensure_eq_ok,
      notNoted, reduceCtorEq, and_false, false_or] at failed
    obtain ⟨_, -, _, active, s₁, noted, failed⟩ := failed
    rw [noteFirstStakingRequest_eq_ok cfg noted] at failed
    cases hasDeposit : s.deposits operatorId nominator with
    | none => simp [hasDeposit] at failed
    | some stored =>
      -- past the conversions nothing misses a price, whoever owns the operator
      cases hasOwner : s.operatorIdOwner operatorId <;>
      · simp only [hasDeposit, hasOwner, Except.bind_eq_error, notSplit, notHeld, ensure_eq_error,
          checkedSub_eq_error, Except.pure_ne_error, Except.throw_eq_error, reduceCtorEq, and_false,
          exists_false, or_false] at failed
        rcases failed with converted | ⟨_, -, converted⟩
        · exact ⟨operator, rfl, active,
            .inl ⟨stored, rfl, doConvertPreviousEpochDeposits_missing converted⟩⟩
        · rcases convertWithdrawalForWithdraw_eq_error cfg converted with
            ⟨withdrawal, hasWithdrawal, converted⟩ | wrong
          · exact ⟨operator, rfl, active, .inr ⟨withdrawal, hasWithdrawal,
              doConvertPreviousEpochWithdrawal_missing converted⟩⟩
          · cases wrong

/-- `do_unlock_funds` misses a price only at the nominator's withdrawal. -/
theorem doUnlockFunds_missing {s : State A} {operatorId : ℕ} {nominator : A}
    (failed : doUnlockFunds s operatorId nominator = .error .missingOperatorEpochSharePrice) :
    ∃ operator, s.operators operatorId = some operator ∧
      operator.isRegisteredOrDeactivated s operatorId = true ∧
      ∃ withdrawal, s.withdrawals operatorId nominator = some withdrawal ∧
        ∃ inShares ∈ withdrawal.withdrawalInShares,
          inShares.domainEpoch < s.summary.currentEpochIndex ∧
          s.operatorEpochSharePrice operatorId inShares.domainEpoch = none := by
  cases present : s.operators operatorId with
  | none => simp [doUnlockFunds, present] at failed
  | some operator =>
    cases hasWithdrawal : s.withdrawals operatorId nominator with
    | none => simp [doUnlockFunds, present, hasWithdrawal] at failed
    | some stored =>
      simp only [doUnlockFunds, present, hasWithdrawal, Except.bind_eq_error, ensure_eq_error,
        ensure_eq_ok, checkedSub_eq_error, reduceCtorEq, and_false, false_or] at failed
      obtain ⟨_, active, converted | ⟨_, -, _, -, _, -, _, -, _, -, paid⟩⟩ := failed
      · exact ⟨operator, rfl, active, stored, rfl, doConvertPreviousEpochWithdrawal_missing converted⟩
      · split at paid <;> exact absurd paid Except.pure_ne_error

/-- `do_unlock_nominator` misses a price only at the nominator's deposit or
withdrawal. -/
theorem doUnlockNominator_missing [Fintype A] {s : State A} {operatorId : ℕ} {nominator : A}
    (failed : doUnlockNominator s operatorId nominator = .error .missingOperatorEpochSharePrice) :
    ∃ operator info, s.operators operatorId = some operator ∧
      operator.status s operatorId = .deregistered info ∧
      ((∃ deposit, s.deposits operatorId nominator = some deposit ∧
          ∃ pending ∈ deposit.pending, pending.effectiveDomainEpoch < s.summary.currentEpochIndex ∧
            s.operatorEpochSharePrice operatorId pending.effectiveDomainEpoch = none) ∨
        ∃ withdrawal, s.withdrawals operatorId nominator = some withdrawal ∧
          ∃ inShares ∈ withdrawal.withdrawalInShares,
            inShares.domainEpoch < s.summary.currentEpochIndex ∧
            s.operatorEpochSharePrice operatorId inShares.domainEpoch = none) := by
  have notPriced : ∀ shares stake, SharePrice.new shares stake ≠
      .error .missingOperatorEpochSharePrice :=
    fun _ _ priced => by rcases SharePrice.new_eq_error priced with wrong | wrong <;> cases wrong
  have notPaid : ∀ (s : State A) amount, withdrawTo s operatorId amount ≠
      .error .missingOperatorEpochSharePrice :=
    fun _ _ paid => by cases (withdrawFromStorageFund_eq_error paid).1
  cases present : s.operators operatorId with
  | none => simp [doUnlockNominator, present] at failed
  | some operator =>
    cases status : operator.status s operatorId with
    | deregistered info =>
      cases hasDeposit : s.deposits operatorId nominator with
      | none => simp [doUnlockNominator, present, status, hasDeposit, notPriced] at failed
      | some stored =>
        simp only [doUnlockNominator, present, status, hasDeposit, Except.bind_eq_error,
          ensure_eq_error, notPriced, notPaid, checkedSub_eq_error, reduceCtorEq, and_false,
          false_or] at failed
        obtain ⟨-, -, _, -, converted | ⟨_, -, withdrawn | ⟨_, -, _, -, _, -, _, -, paid⟩⟩⟩ :=
          failed
        · exact ⟨operator, info, rfl, status, .inl
            ⟨stored, rfl, doConvertPreviousEpochDeposits_missing converted⟩⟩
        · obtain ⟨withdrawal, stored, converted⟩ := withdrawalToUnlock_eq_error withdrawn
          exact ⟨operator, info, rfl, status, .inr
            ⟨withdrawal, stored, doConvertPreviousEpochWithdrawal_missing converted⟩⟩
        · split at paid <;> exact absurd paid Except.pure_ne_error
    | _ => simp [doUnlockNominator, present, status] at failed

end Subspace.Staking
