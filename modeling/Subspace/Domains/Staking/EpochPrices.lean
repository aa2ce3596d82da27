import Subspace.Domains.Staking.Ledger
import Subspace.Domains.Staking.EpochSpec
import Subspace.Domains.Staking.Failures

/-!
# Share prices of ended epochs

A nominator's deposit stays pending, and a withdrawal stays in shares, until
the epoch it was made in has ended; the next call of the nominator converts it
at `OperatorEpochSharePrice` of that epoch and fails with
`MissingOperatorEpochSharePrice` when there is none. The epoch transition
records a price only for the operators it finalizes with deposits or
withdrawals in the epoch: the next operator set, and the operators of
`operators_to_calculate_share_price` (tax deposits, invalid bundle authors,
deregistered and deactivated operators).

`PriceCoverage` is the ledger of those prices: every record of an operator
that is neither slashed nor pending slash waits on an epoch that has its
price, or on the current epoch, and then the operator's epoch counters are
nonzero and the operator is one the transition finalizes. Every staking call
and every part of the transition keeps it (`PriceCoverage.step`), so in every
reachable state the four calls that convert never miss a price.

`pendingToSlash` only ever becomes true in the model of the chain around the
ledger: an operator pending slash is slashed before its bad receipt can be
confirmed, and a slashed operator stays slashed until it is removed.
-/

namespace Subspace.Staking

variable {A : Type}

/-! ## 1. What the share-price ledger reads -/

section Views

/-- The epoch whose share price a stored deposit waits on: that of its
pending part. -/
def depositEpoch : Option Deposit → Option ℕ
  | some deposit => deposit.pending.map (·.effectiveDomainEpoch)
  | none => none

/-- The epoch whose share price a stored withdrawal waits on: that of its
part still in shares. -/
def withdrawalEpoch : Option Withdrawal → Option ℕ
  | some withdrawal => withdrawal.withdrawalInShares.map (·.domainEpoch)
  | none => none

@[simp] theorem depositEpoch_none : depositEpoch none = none := rfl

@[simp] theorem depositEpoch_some (deposit : Deposit) :
    depositEpoch (some deposit) = deposit.pending.map (·.effectiveDomainEpoch) := rfl

@[simp] theorem withdrawalEpoch_none : withdrawalEpoch none = none := rfl

@[simp] theorem withdrawalEpoch_some (withdrawal : Withdrawal) :
    withdrawalEpoch (some withdrawal) = withdrawal.withdrawalInShares.map (·.domainEpoch) := rfl

/-- A nominator of the operator has a deposit or a withdrawal that waits on
the share price of `epoch`. -/
def State.Awaits (s : State A) (operatorId epoch : ℕ) : Prop :=
  ∃ nominator, depositEpoch (s.deposits operatorId nominator) = some epoch ∨
    withdrawalEpoch (s.withdrawals operatorId nominator) = some epoch

/-- The operator is neither slashed nor pending slash: its nominators'
records are converted at the epoch prices, not slashed. -/
def Operator.Tracked (s : State A) (operatorId : ℕ) (operator : Operator) : Prop :=
  operator.status s operatorId ≠ .slashed ∧ operator.status s operatorId ≠ .pendingSlash

/-- The operator took deposits or withdrawals in the current epoch, so
finalizing it records the epoch's share price. -/
def Operator.ChangedInEpoch (operator : Operator) : Prop :=
  0 < operator.depositsInEpoch ∨ 0 < operator.withdrawalsInEpoch

/-- What the share-price ledger reads of an operator. -/
def Operator.priceView (operator : Operator) : OperatorStatus × ℕ × ℕ :=
  (operator.partialStatus, operator.depositsInEpoch, operator.withdrawalsInEpoch)

/-- The operator is one the coming epoch transition finalizes: it is in the
next operator set, or it is one of those the second loop prices
(`operatorsToCalculateSharePrice`), with `selfDeposits` the tax deposits made
so far. -/
def State.Scheduled (s : State A) (selfDeposits : Finset ℕ) (operatorId : ℕ) : Prop :=
  operatorId ∈ s.summary.nextOperators ∨ operatorId ∈ selfDeposits ∨
    operatorId ∈ s.invalidBundleAuthors ∨ operatorId ∈ s.deregisteredOperators ∨
    operatorId ∈ s.deactivatedOperators

/-- What decides a status is what the status reads: the stored status and
`pendingToSlash`. -/
theorem Operator.status_congr {s s' : State A} {operatorId : ℕ} {operator operator' : Operator}
    (pending : s'.pendingToSlash operatorId = s.pendingToSlash operatorId)
    (stored : operator'.partialStatus = operator.partialStatus) :
    operator'.status s' operatorId = operator.status s operatorId := by
  simp only [Operator.status, pending, stored]

theorem Operator.tracked_congr {s s' : State A} {operatorId : ℕ} {operator operator' : Operator}
    (pending : s'.pendingToSlash operatorId = s.pendingToSlash operatorId)
    (stored : operator'.partialStatus = operator.partialStatus) :
    operator'.Tracked s' operatorId ↔ operator.Tracked s operatorId := by
  simp only [Operator.Tracked, Operator.status_congr pending stored]

/-- An operator tracked is not pending to slash. -/
theorem Operator.Tracked.notPending {s : State A} {operatorId : ℕ} {operator : Operator}
    (tracked : operator.Tracked s operatorId) : s.pendingToSlash operatorId = false := by
  obtain ⟨notSlashed, notPending⟩ := tracked
  unfold Operator.status at notSlashed notPending
  by_cases slashed : operator.partialStatus = .slashed
  · simp [slashed] at notSlashed
  · cases pending : s.pendingToSlash operatorId
    · rfl
    · simp [slashed, pending] at notPending

/-- The calls that convert a nominator's records check a status that only an
operator neither slashed nor pending slash has. -/
theorem Operator.tracked_of_isRegisteredOrDeactivated {s : State A} {operatorId : ℕ}
    {operator : Operator} (active : operator.isRegisteredOrDeactivated s operatorId = true) :
    operator.Tracked s operatorId := by
  unfold Operator.isRegisteredOrDeactivated at active
  constructor <;>
  · intro wrong
    rw [wrong] at active
    cases active

theorem Operator.tracked_of_status_eq {s : State A} {operatorId : ℕ} {operator : Operator}
    {status : OperatorStatus} (is : operator.status s operatorId = status)
    (notSlashed : status ≠ .slashed) (notPending : status ≠ .pendingSlash) :
    operator.Tracked s operatorId :=
  ⟨is ▸ notSlashed, is ▸ notPending⟩

/-- Being scheduled carries over when each set the operator is in carries it
over. -/
theorem State.Scheduled.imp {s s' : State A} {selfDeposits selfDeposits' : Finset ℕ}
    {operatorId : ℕ} (scheduled : s.Scheduled selfDeposits operatorId)
    (next : operatorId ∈ s.summary.nextOperators → operatorId ∈ s'.summary.nextOperators)
    (taxed : operatorId ∈ selfDeposits → operatorId ∈ selfDeposits')
    (invalid : operatorId ∈ s.invalidBundleAuthors → operatorId ∈ s'.invalidBundleAuthors)
    (deregistered : operatorId ∈ s.deregisteredOperators → operatorId ∈ s'.deregisteredOperators)
    (deactivated : operatorId ∈ s.deactivatedOperators → operatorId ∈ s'.deactivatedOperators) :
    s'.Scheduled selfDeposits' operatorId := by
  rcases scheduled with member | member | member | member | member
  · exact .inl (next member)
  · exact .inr (.inl (taxed member))
  · exact .inr (.inr (.inl (invalid member)))
  · exact .inr (.inr (.inr (.inl (deregistered member))))
  · exact .inr (.inr (.inr (.inr (deactivated member))))

theorem State.Scheduled.mono {s s' : State A} {selfDeposits selfDeposits' : Finset ℕ}
    {operatorId : ℕ} (scheduled : s.Scheduled selfDeposits operatorId)
    (next : s.summary.nextOperators ⊆ s'.summary.nextOperators)
    (taxed : selfDeposits ⊆ selfDeposits')
    (invalid : s.invalidBundleAuthors ⊆ s'.invalidBundleAuthors)
    (deregistered : s.deregisteredOperators ⊆ s'.deregisteredOperators)
    (deactivated : s.deactivatedOperators ⊆ s'.deactivatedOperators) :
    s'.Scheduled selfDeposits' operatorId :=
  scheduled.imp (fun member => next member) (fun member => taxed member)
    (fun member => invalid member) (fun member => deregistered member)
    (fun member => deactivated member)

end Views

/-! ## 2. The ledger of epoch share prices -/

section Coverage

/-- The share-price ledger of a staking state, during an epoch transition
that has made the tax deposits `selfDeposits` so far (`∅` between
transitions). -/
structure PriceCoverage (selfDeposits : Finset ℕ) (s : State A) : Prop where
  fresh : ∀ operatorId, s.nextOperatorId ≤ operatorId →
    s.operators operatorId = none ∧ ∀ epoch, ¬s.Awaits operatorId epoch
  bounded : ∀ operatorId epoch, s.Awaits operatorId epoch → epoch ≤ s.summary.currentEpochIndex
  covered : ∀ operatorId operator epoch, s.operators operatorId = some operator →
    operator.Tracked s operatorId → s.Awaits operatorId epoch →
    (s.operatorEpochSharePrice operatorId epoch).isSome ∨
      (epoch = s.summary.currentEpochIndex ∧ operator.ChangedInEpoch)
  scheduled : ∀ operatorId operator, s.operators operatorId = some operator →
    operator.Tracked s operatorId → operator.ChangedInEpoch → s.Scheduled selfDeposits operatorId
  registered : ∀ operatorId operator, s.operators operatorId = some operator →
    operator.status s operatorId = .registered → operatorId ∈ s.summary.nextOperators

theorem PriceCoverage.empty : PriceCoverage ∅ (State.empty : State A) where
  fresh _ _ := ⟨rfl, fun _ ⟨_, awaits⟩ => by simp [State.empty] at awaits⟩
  bounded _ _ awaits := by
    obtain ⟨_, awaits⟩ := awaits
    simp [State.empty] at awaits
  covered _ _ _ present := by cases present
  scheduled _ _ present := by cases present
  registered _ _ present := by cases present

/-- An operator present has an issued id. -/
theorem PriceCoverage.lt_next {selfDeposits : Finset ℕ} {s : State A}
    (inv : PriceCoverage selfDeposits s) {operatorId : ℕ} {operator : Operator}
    (present : s.operators operatorId = some operator) : operatorId < s.nextOperatorId := by
  by_contra notIssued
  rw [(inv.fresh operatorId (by omega)).1] at present
  cases present

/-- A record of an operator neither slashed nor pending slash that waits on an
ended epoch finds its price. -/
theorem PriceCoverage.priced {selfDeposits : Finset ℕ} {s : State A}
    (inv : PriceCoverage selfDeposits s) {operatorId epoch : ℕ} {operator : Operator}
    (present : s.operators operatorId = some operator) (tracked : operator.Tracked s operatorId)
    (awaits : s.Awaits operatorId epoch) (ended : epoch < s.summary.currentEpochIndex) :
    (s.operatorEpochSharePrice operatorId epoch).isSome := by
  rcases inv.covered operatorId operator epoch present tracked awaits with priced | ⟨current, -⟩
  · exact priced
  · omega

section Records

variable {selfDeposits : Finset ℕ} {s : State A} {operatorId : ℕ} {operator : Operator}
  {nominator : A}

theorem PriceCoverage.deposit_priced (inv : PriceCoverage selfDeposits s)
    (present : s.operators operatorId = some operator) (tracked : operator.Tracked s operatorId)
    {deposit : Deposit} {pending : PendingDeposit}
    (stored : s.deposits operatorId nominator = some deposit) (isPending : pending ∈ deposit.pending)
    (ended : pending.effectiveDomainEpoch < s.summary.currentEpochIndex) :
    (s.operatorEpochSharePrice operatorId pending.effectiveDomainEpoch).isSome :=
  inv.priced present tracked ⟨nominator, .inl (by simp [stored, Option.mem_def.mp isPending])⟩ ended

theorem PriceCoverage.withdrawal_priced (inv : PriceCoverage selfDeposits s)
    (present : s.operators operatorId = some operator) (tracked : operator.Tracked s operatorId)
    {withdrawal : Withdrawal} {inShares : WithdrawalInShares}
    (stored : s.withdrawals operatorId nominator = some withdrawal)
    (isInShares : inShares ∈ withdrawal.withdrawalInShares)
    (ended : inShares.domainEpoch < s.summary.currentEpochIndex) :
    (s.operatorEpochSharePrice operatorId inShares.domainEpoch).isSome :=
  inv.priced present tracked
    ⟨nominator, .inr (by simp [stored, Option.mem_def.mp isInShares])⟩ ended

/-- No record of a tracked operator's nominator waits on an ended epoch
without a price: the case the conversions fail on never arises. -/
theorem PriceCoverage.records_priced (inv : PriceCoverage selfDeposits s)
    (present : s.operators operatorId = some operator) (tracked : operator.Tracked s operatorId) :
    ¬((∃ deposit, s.deposits operatorId nominator = some deposit ∧
          ∃ pending ∈ deposit.pending, pending.effectiveDomainEpoch < s.summary.currentEpochIndex ∧
            s.operatorEpochSharePrice operatorId pending.effectiveDomainEpoch = none) ∨
        ∃ withdrawal, s.withdrawals operatorId nominator = some withdrawal ∧
          ∃ inShares ∈ withdrawal.withdrawalInShares,
            inShares.domainEpoch < s.summary.currentEpochIndex ∧
            s.operatorEpochSharePrice operatorId inShares.domainEpoch = none) := by
  rintro (⟨deposit, stored, pending, isPending, ended, missing⟩ |
    ⟨withdrawal, stored, inShares, isInShares, ended, missing⟩)
  · simpa [missing] using inv.deposit_priced present tracked stored isPending ended
  · simpa [missing] using inv.withdrawal_priced present tracked stored isInShares ended

end Records

end Coverage

/-! ## 3. Changes the ledger does not see -/

section Frame

/-- What the share-price ledger reads of a state besides the operators and
the nominators' records. -/
structure PriceData where
  nextOperatorId : ℕ
  currentEpochIndex : ℕ
  nextOperators : Finset ℕ
  invalidBundleAuthors : Finset ℕ
  deregisteredOperators : Finset ℕ
  deactivatedOperators : Finset ℕ
  pendingToSlash : ℕ → Bool
  operatorEpochSharePrice : ℕ → ℕ → Option SharePrice

def State.priceData (s : State A) : PriceData :=
  ⟨s.nextOperatorId, s.summary.currentEpochIndex, s.summary.nextOperators,
    s.invalidBundleAuthors, s.deregisteredOperators, s.deactivatedOperators, s.pendingToSlash,
    s.operatorEpochSharePrice⟩

/-- A change the share-price ledger does not see: what it reads of the state
stays, an operator is only removed or rewritten with its status and epoch
counters, and a nominator's records only lose what they wait on. -/
structure PriceFrame (s s' : State A) : Prop where
  data : s'.priceData = s.priceData
  operators : ∀ operatorId operator', s'.operators operatorId = some operator' →
    ∃ operator, s.operators operatorId = some operator ∧ operator'.priceView = operator.priceView
  deposits : ∀ operatorId nominator epoch,
    depositEpoch (s'.deposits operatorId nominator) = some epoch →
      depositEpoch (s.deposits operatorId nominator) = some epoch
  withdrawals : ∀ operatorId nominator epoch,
    withdrawalEpoch (s'.withdrawals operatorId nominator) = some epoch →
      withdrawalEpoch (s.withdrawals operatorId nominator) = some epoch

namespace PriceFrame

variable {s s' s'' : State A}

theorem refl (s : State A) : PriceFrame s s :=
  ⟨rfl, fun _ operator present => ⟨operator, present, rfl⟩, fun _ _ _ => id, fun _ _ _ => id⟩

theorem trans (first : PriceFrame s s') (second : PriceFrame s' s'') : PriceFrame s s'' where
  data := second.data.trans first.data
  operators operatorId operator'' present'' := by
    obtain ⟨operator', present', view'⟩ := second.operators operatorId operator'' present''
    obtain ⟨operator, present, view⟩ := first.operators operatorId operator' present'
    exact ⟨operator, present, view'.trans view⟩
  deposits operatorId nominator epoch waits :=
    first.deposits operatorId nominator epoch (second.deposits operatorId nominator epoch waits)
  withdrawals operatorId nominator epoch waits :=
    first.withdrawals operatorId nominator epoch (second.withdrawals operatorId nominator epoch waits)

theorem next (frame : PriceFrame s s') : s'.nextOperatorId = s.nextOperatorId :=
  congrArg PriceData.nextOperatorId frame.data

theorem epoch (frame : PriceFrame s s') :
    s'.summary.currentEpochIndex = s.summary.currentEpochIndex :=
  congrArg PriceData.currentEpochIndex frame.data

theorem pendingToSlash (frame : PriceFrame s s') : s'.pendingToSlash = s.pendingToSlash :=
  congrArg PriceData.pendingToSlash frame.data

theorem prices (frame : PriceFrame s s') :
    s'.operatorEpochSharePrice = s.operatorEpochSharePrice :=
  congrArg PriceData.operatorEpochSharePrice frame.data

theorem nextOperators (frame : PriceFrame s s') :
    s'.summary.nextOperators = s.summary.nextOperators :=
  congrArg PriceData.nextOperators frame.data

theorem scheduled (frame : PriceFrame s s') {selfDeposits : Finset ℕ} {operatorId : ℕ}
    (scheduled : s.Scheduled selfDeposits operatorId) : s'.Scheduled selfDeposits operatorId := by
  have invalid := congrArg PriceData.invalidBundleAuthors frame.data
  have deregistered := congrArg PriceData.deregisteredOperators frame.data
  have deactivated := congrArg PriceData.deactivatedOperators frame.data
  dsimp only [State.priceData] at invalid deregistered deactivated
  exact scheduled.mono frame.nextOperators.ge subset_rfl invalid.ge deregistered.ge
    deactivated.ge

theorem awaits (frame : PriceFrame s s') {operatorId epoch : ℕ} (awaits : s'.Awaits operatorId epoch) :
    s.Awaits operatorId epoch := by
  obtain ⟨nominator, waits | waits⟩ := awaits
  · exact ⟨nominator, .inl (frame.deposits operatorId nominator epoch waits)⟩
  · exact ⟨nominator, .inr (frame.withdrawals operatorId nominator epoch waits)⟩

/-- A frame rewrites an operator with the status it had. -/
theorem status (frame : PriceFrame s s') {operatorId : ℕ} {operator operator' : Operator}
    (view : operator'.priceView = operator.priceView) :
    operator'.status s' operatorId = operator.status s operatorId :=
  Operator.status_congr (congrFun frame.pendingToSlash operatorId) (congrArg Prod.fst view)

theorem eq_none (frame : PriceFrame s s') {operatorId : ℕ}
    (absent : s.operators operatorId = none) : s'.operators operatorId = none := by
  cases present' : s'.operators operatorId with
  | none => rfl
  | some operator' =>
    obtain ⟨_, present, -⟩ := frame.operators operatorId operator' present'
    rw [absent] at present
    cases present

/-- An operator taken out of a state is a frame of it. -/
theorem removeOperator (frame : PriceFrame s s') (operatorId : ℕ) [DecidableEq A] :
    PriceFrame s (s'.setOperator operatorId none) where
  data := frame.data
  operators other operator' present' := by
    by_cases same : other = operatorId
    · subst same
      simp at present'
    · simp only [State.setOperator, Function.update_of_ne same] at present'
      exact frame.operators other operator' present'
  deposits := frame.deposits
  withdrawals := frame.withdrawals

/-- An operator rewritten with the view it had in the first state. -/
theorem setOperator [DecidableEq A] (frame : PriceFrame s s') {operatorId : ℕ}
    {operator operator' : Operator} (present : s.operators operatorId = some operator)
    (view : operator'.priceView = operator.priceView) :
    PriceFrame s (s'.setOperator operatorId (some operator')) where
  data := frame.data
  operators other written present' := by
    by_cases same : other = operatorId
    · subst same
      simp only [State.setOperator, Function.update_self, Option.some.injEq] at present'
      exact ⟨operator, present, present' ▸ view⟩
    · simp only [State.setOperator, Function.update_of_ne same] at present'
      exact frame.operators other written present'
  deposits := frame.deposits
  withdrawals := frame.withdrawals

/-- A nominator's deposit rewritten to wait on no epoch but the one it
waited on in the first state. -/
theorem setDeposit [DecidableEq A] (frame : PriceFrame s s') (operatorId : ℕ) (nominator : A)
    (deposit : Option Deposit)
    (waits : ∀ epoch, depositEpoch deposit = some epoch →
      depositEpoch (s.deposits operatorId nominator) = some epoch) :
    PriceFrame s (s'.setDeposit operatorId nominator deposit) where
  data := frame.data
  operators := frame.operators
  deposits other n epoch waits' := by
    by_cases same : (other, n) = (operatorId, nominator)
    · simp only [Prod.mk.injEq] at same
      obtain ⟨rfl, rfl⟩ := same
      simp only [State.setDeposit, Function.update_self] at waits'
      exact waits epoch waits'
    · simp only [State.setDeposit, Function.update_update_apply_of_ne _ _ same] at waits'
      exact frame.deposits other n epoch waits'
  withdrawals := frame.withdrawals

/-- A nominator's withdrawal rewritten to wait on no epoch but the one it
waited on in the first state. -/
theorem setWithdrawal [DecidableEq A] (frame : PriceFrame s s') (operatorId : ℕ) (nominator : A)
    (withdrawal : Option Withdrawal)
    (waits : ∀ epoch, withdrawalEpoch withdrawal = some epoch →
      withdrawalEpoch (s.withdrawals operatorId nominator) = some epoch) :
    PriceFrame s (s'.setWithdrawal operatorId nominator withdrawal) where
  data := frame.data
  operators := frame.operators
  deposits := frame.deposits
  withdrawals other n epoch waits' := by
    by_cases same : (other, n) = (operatorId, nominator)
    · simp only [Prod.mk.injEq] at same
      obtain ⟨rfl, rfl⟩ := same
      simp only [State.setWithdrawal, Function.update_self] at waits'
      exact waits epoch waits'
    · simp only [State.setWithdrawal, Function.update_update_apply_of_ne _ _ same] at waits'
      exact frame.withdrawals other n epoch waits'

theorem setStorageFund [DecidableEq A] (frame : PriceFrame s s') (operatorId amount : ℕ) :
    PriceFrame s (s'.setStorageFund operatorId amount) :=
  ⟨frame.data, frame.operators, frame.deposits, frame.withdrawals⟩

theorem setDepositOnHold [DecidableEq A] (frame : PriceFrame s s') (operatorId : ℕ)
    (nominator : A) (amount : ℕ) : PriceFrame s (s'.setDepositOnHold operatorId nominator amount) :=
  ⟨frame.data, frame.operators, frame.deposits, frame.withdrawals⟩

/-- A write of storage the ledger does not read (balances, holds, the
treasury, counts). -/
theorem keep {s'' : State A} (frame : PriceFrame s s') (data : s''.priceData = s'.priceData)
    (operators : s''.operators = s'.operators) (deposits : s''.deposits = s'.deposits)
    (withdrawals : s''.withdrawals = s'.withdrawals) : PriceFrame s s'' where
  data := data.trans frame.data
  operators operatorId operator present := frame.operators operatorId operator (operators ▸ present)
  deposits operatorId nominator epoch waits := frame.deposits operatorId nominator epoch
    (deposits ▸ waits)
  withdrawals operatorId nominator epoch waits := frame.withdrawals operatorId nominator epoch
    (withdrawals ▸ waits)

/-- A credit to the treasury. -/
theorem withTreasury (frame : PriceFrame s s') (treasury : ℕ) :
    PriceFrame s { s' with treasury := treasury } :=
  frame.keep rfl rfl rfl rfl

end PriceFrame

theorem PriceCoverage.of_frame {selfDeposits : Finset ℕ} {s s' : State A}
    (inv : PriceCoverage selfDeposits s) (frame : PriceFrame s s') :
    PriceCoverage selfDeposits s' where
  fresh operatorId notIssued := by
    rw [frame.next] at notIssued
    obtain ⟨absent, waitsNot⟩ := inv.fresh operatorId notIssued
    exact ⟨frame.eq_none absent, fun epoch awaits => waitsNot epoch (frame.awaits awaits)⟩
  bounded operatorId epoch awaits := by
    rw [frame.epoch]
    exact inv.bounded operatorId epoch (frame.awaits awaits)
  covered operatorId operator' epoch present' tracked' awaits := by
    obtain ⟨operator, present, view⟩ := frame.operators operatorId operator' present'
    have tracked : operator.Tracked s operatorId := by
      simpa only [Operator.Tracked, frame.status view] using tracked'
    have changed : operator'.ChangedInEpoch ↔ operator.ChangedInEpoch := by
      simp only [Operator.priceView, Prod.mk.injEq] at view
      simp only [Operator.ChangedInEpoch, view.2.1, view.2.2]
    rw [frame.prices, frame.epoch, changed]
    exact inv.covered operatorId operator epoch present tracked (frame.awaits awaits)
  scheduled operatorId operator' present' tracked' changed' := by
    obtain ⟨operator, present, view⟩ := frame.operators operatorId operator' present'
    have tracked : operator.Tracked s operatorId := by
      simpa only [Operator.Tracked, frame.status view] using tracked'
    have changed : operator.ChangedInEpoch := by
      simp only [Operator.priceView, Prod.mk.injEq] at view
      simpa only [Operator.ChangedInEpoch, view.2.1, view.2.2] using changed'
    exact frame.scheduled (inv.scheduled operatorId operator present tracked changed)
  registered operatorId operator' present' registered' := by
    obtain ⟨operator, present, view⟩ := frame.operators operatorId operator' present'
    rw [frame.nextOperators]
    exact inv.registered operatorId operator present (frame.status view ▸ registered')

end Frame

/-! ## 4. The three kinds of change -/

section Changes

variable [DecidableEq A] {selfDeposits : Finset ℕ}

/-- Records of other operators and nominators are what they were. -/
theorem State.awaits_of_ne {s s' : State A} {operatorId epoch : ℕ} (nominator : A)
    (deposits : ∀ n, n ≠ nominator → s'.deposits operatorId n = s.deposits operatorId n)
    (withdrawals : ∀ n, n ≠ nominator → s'.withdrawals operatorId n = s.withdrawals operatorId n)
    (awaits : s'.Awaits operatorId epoch) :
    s.Awaits operatorId epoch ∨ depositEpoch (s'.deposits operatorId nominator) = some epoch ∨
      withdrawalEpoch (s'.withdrawals operatorId nominator) = some epoch := by
  obtain ⟨n, waits⟩ := awaits
  by_cases same : n = nominator
  · subst same
    exact .inr waits
  · rw [deposits n same, withdrawals n same] at waits
    exact .inl ⟨n, waits⟩

omit [DecidableEq A] in
/-- A status change: one operator gets another status or another operator set,
or becomes pending to slash; no record, price or epoch counter changes. -/
theorem PriceCoverage.of_status {s s' : State A} (inv : PriceCoverage selfDeposits s)
    (operatorId : ℕ)
    (operators : ∀ other, other ≠ operatorId → s'.operators other = s.operators other)
    (pendingToSlash : ∀ other, other ≠ operatorId →
      s'.pendingToSlash other = s.pendingToSlash other)
    (deposits : s'.deposits = s.deposits) (withdrawals : s'.withdrawals = s.withdrawals)
    (next : s'.nextOperatorId = s.nextOperatorId)
    (epoch : s'.summary.currentEpochIndex = s.summary.currentEpochIndex)
    (prices : s'.operatorEpochSharePrice = s.operatorEpochSharePrice)
    (scheduledKept : ∀ other, other ≠ operatorId →
      s.Scheduled selfDeposits other → s'.Scheduled selfDeposits other)
    (nextKept : ∀ other, other ≠ operatorId →
      other ∈ s.summary.nextOperators → other ∈ s'.summary.nextOperators)
    (written : ∀ operator', s'.operators operatorId = some operator' →
      ∃ operator, s.operators operatorId = some operator ∧
        operator'.depositsInEpoch = operator.depositsInEpoch ∧
        operator'.withdrawalsInEpoch = operator.withdrawalsInEpoch ∧
        (operator'.Tracked s' operatorId → operator.Tracked s operatorId ∧
          (operator'.ChangedInEpoch → s'.Scheduled selfDeposits operatorId)) ∧
        (operator'.status s' operatorId = .registered →
          operatorId ∈ s'.summary.nextOperators)) :
    PriceCoverage selfDeposits s' := by
  have awaits : ∀ other epoch, s'.Awaits other epoch ↔ s.Awaits other epoch := by
    intro other epoch
    simp only [State.Awaits, deposits, withdrawals]
  -- every other operator reads as it did
  have same : ∀ other operator, other ≠ operatorId → s'.operators other = some operator →
      s.operators other = some operator ∧
        operator.status s' other = operator.status s other := fun other operator ne present' =>
    ⟨(operators other ne).symm.trans present', Operator.status_congr (pendingToSlash other ne) rfl⟩
  refine ⟨fun other notIssued => ?_, fun other e waits => ?_,
    fun other operator' e present' tracked' waits => ?_,
    fun other operator' present' tracked' changed' => ?_,
    fun other operator' present' registered' => ?_⟩
  · rw [next] at notIssued
    obtain ⟨absent, waitsNot⟩ := inv.fresh other notIssued
    refine ⟨?_, fun e waits => waitsNot e ((awaits other e).mp waits)⟩
    cases present' : s'.operators other with
    | none => rfl
    | some operator' =>
      by_cases ne : other = operatorId
      · subst ne
        obtain ⟨_, present, -⟩ := written operator' present'
        rw [absent] at present
        cases present
      · rw [(same other operator' ne present').1] at absent
        cases absent
  · rw [epoch]
    exact inv.bounded other e ((awaits other e).mp waits)
  · rw [prices, epoch]
    by_cases ne : other = operatorId
    · subst ne
      obtain ⟨operator, present, deposited, withdrawn, trackedBefore, -⟩ := written operator' present'
      have covered := inv.covered other operator e present (trackedBefore tracked').1
        ((awaits other e).mp waits)
      simpa only [Operator.ChangedInEpoch, deposited, withdrawn] using covered
    · obtain ⟨present, status⟩ := same other operator' ne present'
      exact inv.covered other operator' e present (by simpa only [Operator.Tracked, status]
        using tracked') ((awaits other e).mp waits)
  · by_cases ne : other = operatorId
    · subst ne
      obtain ⟨_, -, -, -, trackedBefore, -⟩ := written operator' present'
      exact (trackedBefore tracked').2 changed'
    · obtain ⟨present, status⟩ := same other operator' ne present'
      exact scheduledKept other ne (inv.scheduled other operator' present
        (by simpa only [Operator.Tracked, status] using tracked') changed')
  · by_cases ne : other = operatorId
    · subst ne
      obtain ⟨_, -, -, -, -, inNext⟩ := written operator' present'
      exact inNext registered'
    · obtain ⟨present, status⟩ := same other operator' ne present'
      exact nextKept other ne (inv.registered other operator' present (status ▸ registered'))

/-- A nominator's call: one operator, tracked, keeps its status and its
counters grow; one of its nominators' records is rewritten, waiting only on
what it waited on or on the current epoch, for which the operator's counters
are then nonzero; and the operator sets only grow. -/
theorem PriceCoverage.of_change {selfDeposits' : Finset ℕ} {s s' : State A}
    (inv : PriceCoverage selfDeposits s) {operatorId : ℕ} (nominator : A)
    {operator operator' : Operator} (present : s.operators operatorId = some operator)
    (tracked : operator.Tracked s operatorId) (written : s'.operators operatorId = some operator')
    (operators : ∀ other, other ≠ operatorId → s'.operators other = s.operators other)
    (deposits : ∀ other n, (other, n) ≠ (operatorId, nominator) →
      s'.deposits other n = s.deposits other n)
    (withdrawals : ∀ other n, (other, n) ≠ (operatorId, nominator) →
      s'.withdrawals other n = s.withdrawals other n)
    (next : s'.nextOperatorId = s.nextOperatorId)
    (epoch : s'.summary.currentEpochIndex = s.summary.currentEpochIndex)
    (nextOperators : s'.summary.nextOperators = s.summary.nextOperators)
    (pendingToSlash : s'.pendingToSlash = s.pendingToSlash)
    (prices : s'.operatorEpochSharePrice = s.operatorEpochSharePrice)
    (scheduledKept : ∀ other, s.Scheduled selfDeposits other → s'.Scheduled selfDeposits' other)
    (stored : operator'.partialStatus = operator.partialStatus)
    (deposited : operator.depositsInEpoch ≤ operator'.depositsInEpoch)
    (withdrawn : operator.withdrawalsInEpoch ≤ operator'.withdrawalsInEpoch)
    (selfScheduled : operator'.ChangedInEpoch → s'.Scheduled selfDeposits' operatorId)
    (records : ∀ e, depositEpoch (s'.deposits operatorId nominator) = some e ∨
        withdrawalEpoch (s'.withdrawals operatorId nominator) = some e →
      (depositEpoch (s.deposits operatorId nominator) = some e ∨
        withdrawalEpoch (s.withdrawals operatorId nominator) = some e) ∨
      (e = s.summary.currentEpochIndex ∧ operator'.ChangedInEpoch)) :
    PriceCoverage selfDeposits' s' := by
  have issued := inv.lt_next present
  have status : operator'.status s' operatorId = operator.status s operatorId :=
    Operator.status_congr (congrFun pendingToSlash operatorId) stored
  have grows : operator.ChangedInEpoch → operator'.ChangedInEpoch := by
    unfold Operator.ChangedInEpoch
    omega
  -- the records of another operator are those of `s`
  have otherAwaits : ∀ other e, other ≠ operatorId → s'.Awaits other e → s.Awaits other e := by
    rintro other e ne ⟨n, waits⟩
    rw [deposits other n (by simp [ne]), withdrawals other n (by simp [ne])] at waits
    exact ⟨n, waits⟩
  -- the operator's records wait on what they waited on, or on the current epoch
  have ownAwaits : ∀ e, s'.Awaits operatorId e →
      s.Awaits operatorId e ∨ (e = s.summary.currentEpochIndex ∧ operator'.ChangedInEpoch) := by
    intro e waits
    rcases State.awaits_of_ne nominator (fun n ne => deposits operatorId n (by simp [ne]))
      (fun n ne => withdrawals operatorId n (by simp [ne])) waits with before | own
    · exact .inl before
    · rcases records e own with before | current
      · exact .inl ⟨nominator, before⟩
      · exact .inr current
  refine ⟨fun other notIssued => ?_, fun other e waits => ?_,
    fun other written' e present' tracked' waits => ?_,
    fun other written' present' tracked' changed' => ?_,
    fun other written' present' registered' => ?_⟩
  · rw [next] at notIssued
    have ne : other ≠ operatorId := by omega
    obtain ⟨absent, waitsNot⟩ := inv.fresh other notIssued
    exact ⟨(operators other ne).trans absent, fun e waits => waitsNot e (otherAwaits other e ne waits)⟩
  · rw [epoch]
    by_cases ne : other = operatorId
    · subst ne
      rcases ownAwaits e waits with before | ⟨current, -⟩
      · exact inv.bounded other e before
      · exact current.le
    · exact inv.bounded other e (otherAwaits other e ne waits)
  · rw [prices, epoch]
    by_cases ne : other = operatorId
    · subst ne
      rw [written, Option.some.injEq] at present'
      subst present'
      rcases ownAwaits e waits with before | current
      · rcases inv.covered other operator e present tracked before with priced | ⟨current, changed⟩
        · exact .inl priced
        · exact .inr ⟨current, grows changed⟩
      · exact .inr current
    · rw [operators other ne] at present'
      have trackedBefore : written'.Tracked s other :=
        (Operator.tracked_congr (congrFun pendingToSlash other) rfl).mp tracked'
      exact inv.covered other written' e present' trackedBefore (otherAwaits other e ne waits)
  · by_cases ne : other = operatorId
    · subst ne
      rw [written, Option.some.injEq] at present'
      exact selfScheduled (present' ▸ changed')
    · rw [operators other ne] at present'
      have trackedBefore : written'.Tracked s other :=
        (Operator.tracked_congr (congrFun pendingToSlash other) rfl).mp tracked'
      exact scheduledKept other (inv.scheduled other written' present' trackedBefore changed')
  · rw [nextOperators]
    by_cases ne : other = operatorId
    · subst ne
      rw [written, Option.some.injEq] at present'
      subst present'
      exact inv.registered other operator present (status ▸ registered')
    · rw [operators other ne] at present'
      exact inv.registered other written' present'
        (Operator.status_congr (congrFun pendingToSlash other) rfl ▸ registered')

omit [DecidableEq A] in
/-- `do_cleanup_operator` of an operator already removed: its fund, owner and
prices go. -/
theorem PriceCoverage.doCleanupOperator {s : State A} (inv : PriceCoverage selfDeposits s)
    {operatorId : ℕ} (absent : s.operators operatorId = none) (totalStake : ℕ) :
    PriceCoverage selfDeposits (doCleanupOperator s operatorId totalStake) where
  fresh := inv.fresh
  bounded := inv.bounded
  covered other operator e present tracked waits := by
    have ne : other ≠ operatorId := by
      rintro rfl
      have stillPresent : s.operators other = some operator := present
      rw [absent] at stillPresent
      cases stillPresent
    simp only [Staking.doCleanupOperator, Function.update_of_ne ne]
    exact inv.covered other operator e present tracked waits
  scheduled := inv.scheduled
  registered := inv.registered

/-- `do_register_operator`: a new operator at the next id joins the next
operator set, with its owner's deposit waiting on the current epoch, whose
price is recorded. -/
theorem PriceCoverage.of_register {s s' : State A} (inv : PriceCoverage selfDeposits s)
    (owner : A)
    (operators : ∀ other, other ≠ s.nextOperatorId → s'.operators other = s.operators other)
    (deposits : ∀ other n, (other, n) ≠ (s.nextOperatorId, owner) →
      s'.deposits other n = s.deposits other n)
    (withdrawals : s'.withdrawals = s.withdrawals)
    (next : s'.nextOperatorId = s.nextOperatorId + 1)
    (epoch : s'.summary.currentEpochIndex = s.summary.currentEpochIndex)
    (pendingToSlash : s'.pendingToSlash = s.pendingToSlash)
    (prices : ∀ other, other ≠ s.nextOperatorId →
      s'.operatorEpochSharePrice other = s.operatorEpochSharePrice other)
    (priced : (s'.operatorEpochSharePrice s.nextOperatorId s.summary.currentEpochIndex).isSome)
    (scheduledKept : ∀ other, s.Scheduled selfDeposits other → s'.Scheduled selfDeposits other)
    (nextKept : s.summary.nextOperators ⊆ s'.summary.nextOperators)
    (joins : s.nextOperatorId ∈ s'.summary.nextOperators)
    (records : ∀ e, depositEpoch (s'.deposits s.nextOperatorId owner) = some e →
      e = s.summary.currentEpochIndex) :
    PriceCoverage selfDeposits s' := by
  obtain ⟨-, noRecords⟩ := inv.fresh s.nextOperatorId le_rfl
  have otherAwaits : ∀ other e, other ≠ s.nextOperatorId → s'.Awaits other e → s.Awaits other e := by
    rintro other e ne ⟨n, waits⟩
    rw [deposits other n (by simp [ne]), withdrawals] at waits
    exact ⟨n, waits⟩
  -- the new operator's only record is its owner's deposit of the current epoch
  have ownAwaits : ∀ e, s'.Awaits s.nextOperatorId e → e = s.summary.currentEpochIndex := by
    intro e waits
    rcases State.awaits_of_ne owner (fun n ne => deposits s.nextOperatorId n (by simp [ne]))
      (fun n _ => by rw [withdrawals]) waits with before | own | own
    · exact absurd before (noRecords e)
    · exact records e own
    · rw [withdrawals] at own
      exact absurd ⟨owner, .inr own⟩ (noRecords e)
  refine ⟨fun other notIssued => ?_, fun other e waits => ?_,
    fun other written' e present' tracked' waits => ?_,
    fun other written' present' tracked' changed' => ?_,
    fun other written' present' registered' => ?_⟩
  · rw [next] at notIssued
    have ne : other ≠ s.nextOperatorId := by omega
    obtain ⟨absent, waitsNot⟩ := inv.fresh other (by omega)
    exact ⟨(operators other ne).trans absent, fun e waits => waitsNot e (otherAwaits other e ne waits)⟩
  · rw [epoch]
    by_cases ne : other = s.nextOperatorId
    · subst ne
      exact (ownAwaits e waits).le
    · exact inv.bounded other e (otherAwaits other e ne waits)
  · by_cases ne : other = s.nextOperatorId
    · subst ne
      rw [ownAwaits e waits]
      exact .inl priced
    · rw [operators other ne] at present'
      rw [prices other ne, epoch]
      have trackedBefore : written'.Tracked s other :=
        (Operator.tracked_congr (congrFun pendingToSlash other) rfl).mp tracked'
      exact inv.covered other written' e present' trackedBefore (otherAwaits other e ne waits)
  · by_cases ne : other = s.nextOperatorId
    · subst ne
      exact .inl joins
    · rw [operators other ne] at present'
      have trackedBefore : written'.Tracked s other :=
        (Operator.tracked_congr (congrFun pendingToSlash other) rfl).mp tracked'
      exact scheduledKept other (inv.scheduled other written' present' trackedBefore changed')
  · by_cases ne : other = s.nextOperatorId
    · subst ne
      exact joins
    · rw [operators other ne] at present'
      exact nextKept (inv.registered other written' present'
        (Operator.status_congr (congrFun pendingToSlash other) rfl ▸ registered'))

end Changes

/-! ## 5. The staking calls -/

section Calls

variable [DecidableEq A] {selfDeposits : Finset ℕ}

/-- A new deposit waits on the epoch it is made in. -/
@[simp] theorem addPendingDeposit_effectiveDomainEpoch (pending : Option PendingDeposit)
    (currentEpochIndex : ℕ) (newDeposit : NewDeposit) :
    (addPendingDeposit pending currentEpochIndex newDeposit).effectiveDomainEpoch =
      currentEpochIndex := by
  cases pending <;> rfl

/-- A new withdrawal waits on the epoch it is made in. -/
@[simp] theorem addWithdrawalInShares_domainEpoch (inShares : Option WithdrawalInShares)
    (epoch unlockAt shares storageFeeRefund : ℕ) :
    (addWithdrawalInShares inShares epoch unlockAt shares storageFeeRefund).domainEpoch =
      epoch := by
  cases inShares <;> rfl

omit [DecidableEq A] in
/-- The deposit a conversion returns waits on nothing, or on what the
deposit waited on. -/
theorem doConvertPreviousEpochDeposits_depositEpoch {s : State A} {operatorId epoch : ℕ}
    {deposit deposit' : Deposit}
    (converted : doConvertPreviousEpochDeposits s operatorId deposit epoch = .ok deposit')
    {e : ℕ} (waits : deposit'.pending.map (·.effectiveDomainEpoch) = some e) :
    deposit.pending.map (·.effectiveDomainEpoch) = some e := by
  rcases doConvertPreviousEpochDeposits_eq_ok converted with ⟨rfl, -⟩ | ⟨_, _, -, -, rfl⟩
  · exact waits
  · cases waits

omit [DecidableEq A] in
/-- The withdrawal a conversion returns waits on nothing, or on what the
withdrawal waited on. -/
theorem doConvertPreviousEpochWithdrawal_withdrawalEpoch {s : State A} {operatorId epoch : ℕ}
    {withdrawal withdrawal' : Withdrawal}
    (converted : doConvertPreviousEpochWithdrawal s operatorId withdrawal epoch = .ok withdrawal')
    {e : ℕ} (waits : withdrawal'.withdrawalInShares.map (·.domainEpoch) = some e) :
    withdrawal.withdrawalInShares.map (·.domainEpoch) = some e := by
  rcases doConvertPreviousEpochWithdrawal_eq_ok converted with ⟨rfl, -⟩ | ⟨_, _, -, -, -, rfl⟩
  · exact waits
  · cases waits

omit [DecidableEq A] in
/-- Only a registered operator reads as registered. -/
theorem Operator.partialStatus_of_status_registered {s : State A} {operatorId : ℕ}
    {operator : Operator} (registered : operator.status s operatorId = .registered) :
    operator.partialStatus = .registered := by
  unfold Operator.status at registered
  split at registered
  · cases registered
  · split at registered
    · cases registered
    · exact registered

omit [DecidableEq A] in
/-- A deactivated operator is stored as deactivated. -/
theorem Operator.isDeactivated_of_status_deactivated {s : State A} {operatorId : ℕ}
    {operator : Operator} {reactivateAfter : ℕ}
    (deactivated : operator.status s operatorId = .deactivated reactivateAfter) :
    operator.partialStatus.isDeactivated = true := by
  unfold Operator.status at deactivated
  split at deactivated
  · cases deactivated
  · split at deactivated
    · cases deactivated
    · rw [deactivated]
      rfl

variable (cfg : StakingConfig A)

omit [DecidableEq A] in
/-- A withdrawal of some shares takes some shares. -/
theorem sharesToWithdraw_pos {s : State A} {operatorId : ℕ} {operator : Operator}
    {deposit : Deposit} {isOperatorOwner : Bool} {toWithdraw remainingShares sharesWithdrew : ℕ}
    (nonzero : toWithdraw ≠ 0)
    (split : sharesToWithdraw cfg s operatorId operator deposit isOperatorOwner toWithdraw =
      .ok (remainingShares, sharesWithdrew)) :
    0 < sharesWithdrew := by
  simp only [sharesToWithdraw, Except.bind_eq_ok] at split
  obtain ⟨remaining, subtracted, split⟩ := split
  obtain ⟨within, rfl⟩ := checkedSub_eq_ok.mp subtracted
  -- every branch withdraws `toWithdraw` or all the known shares, which are at least as many
  split at split
  · split at split
    · cases split
    · simp only [Except.pure_eq_ok, Prod.mk.injEq] at split
      omega
  · simp only [Except.bind_eq_ok] at split
    obtain ⟨_, -, split⟩ := split
    split at split
    · cases split
    · split at split <;>
      · simp only [Except.pure_eq_ok, Prod.mk.injEq] at split
        omega

theorem PriceCoverage.doRegisterOperator {s s' : State A} (inv : PriceCoverage selfDeposits s)
    {operatorOwner : A} {amount : ℕ} {config : OperatorConfig} {operatorId epoch : ℕ}
    (registered : doRegisterOperator cfg s operatorOwner amount config =
      .ok (s', operatorId, epoch)) : PriceCoverage selfDeposits s' := by
  obtain ⟨-, -, -, -, -, -, -, calculated⟩ := doRegisterOperator_eq_ok cfg registered
  obtain ⟨deposit, -, -, rfl⟩ := doCalculatePreviousEpochDepositSharesAndAddNewDeposit_eq_ok calculated
  refine inv.of_register operatorOwner (fun other ne => by simp [holdDeposit, ne])
    (fun other n ne => ?_) rfl rfl rfl rfl (fun other ne => by simp [holdDeposit, ne])
    (by simp) (fun other scheduled => ?_) (Finset.subset_insert _ _) (Finset.mem_insert_self _ _)
    (fun e waits => ?_)
  · simp [holdDeposit, Function.update_update_apply_of_ne _ _ ne]
  · exact scheduled.mono (Finset.subset_insert _ _) subset_rfl subset_rfl subset_rfl subset_rfl
  · simp only [State.setDeposit, Function.update_self, depositEpoch_some, Option.map_some,
      Option.some.injEq, addPendingDeposit_effectiveDomainEpoch] at waits
    exact waits.symm

theorem PriceCoverage.doNominateOperator {s s' : State A} (inv : PriceCoverage selfDeposits s)
    {operatorId : ℕ} {nominator : A} {amount : ℕ}
    (nominated : doNominateOperator cfg s operatorId nominator amount = .ok s') :
    PriceCoverage selfDeposits s' := by
  obtain ⟨operator, count, added, present, nonzero, registered, -, calculated, rfl⟩ :=
    doNominateOperator_eq_ok cfg nominated
  obtain ⟨deposit, -, -, rfl⟩ := doCalculatePreviousEpochDepositSharesAndAddNewDeposit_eq_ok calculated
  have staked : 0 < (NewDeposit.split amount).staking :=
    NewDeposit.staking_pos (Nat.pos_of_ne_zero nonzero)
  have changed : Operator.ChangedInEpoch { operator with
      depositsInEpoch := operator.depositsInEpoch + (NewDeposit.split amount).staking
      totalStorageFeeDeposit :=
        operator.totalStorageFeeDeposit + (NewDeposit.split amount).storageFeeDeposit } :=
    .inl (Nat.lt_of_lt_of_le staked (Nat.le_add_left _ _))
  refine inv.of_change nominator present
    (Operator.tracked_of_status_eq registered (by simp) (by simp)) (Function.update_self _ _ _)
    (fun other ne => by simp [holdDeposit, ne])
    (fun other n ne => by simp [holdDeposit, Function.update_update_apply_of_ne _ _ ne])
    (fun _ _ _ => rfl) rfl rfl rfl rfl rfl (fun _ scheduled => scheduled) rfl
    (Nat.le_add_right _ _) le_rfl
    (fun _ => .inl (inv.registered operatorId operator present registered))
    (fun e waits => ?_)
  -- the deposit now waits on the current epoch; the withdrawal is as it was
  rcases waits with waits | waits
  · simp only [State.setOperator, State.setDeposit, Function.update_self, depositEpoch_some,
      Option.map_some, Option.some.injEq, addPendingDeposit_effectiveDomainEpoch] at waits
    exact .inr ⟨waits.symm, changed⟩
  · exact .inl (.inr waits)

theorem PriceCoverage.doWithdrawStake {s s' : State A} (inv : PriceCoverage selfDeposits s)
    {operatorId : ℕ} {nominator : A} {toWithdraw : ℕ}
    (withdrawn : doWithdrawStake cfg s operatorId nominator toWithdraw = .ok s') :
    PriceCoverage selfDeposits s' := by
  obtain ⟨operator, count, stored, deposit, withdrawal, owner, remainingShares, sharesWithdrew,
    nonzero, present, active, -, hasDeposit, converted, convertedWithdrawal, -, split, -, -, -, -,
    rfl⟩ := doWithdrawStake_eq_ok cfg withdrawn
  have took := sharesToWithdraw_pos cfg nonzero split
  -- a deactivated operator joins `DeactivatedOperators`, a registered one is in the next set
  have deactivatedKept : s.deactivatedOperators ⊆ (if operator.partialStatus.isDeactivated then
      insert operatorId s.deactivatedOperators else s.deactivatedOperators) := by
    split
    · exact Finset.subset_insert _ _
    · exact subset_rfl
  have selfScheduled : ∀ t : State A, t.summary.nextOperators = s.summary.nextOperators →
      t.deactivatedOperators = (if operator.partialStatus.isDeactivated then
        insert operatorId s.deactivatedOperators else s.deactivatedOperators) →
      t.Scheduled selfDeposits operatorId := by
    intro t next deactivated
    unfold Operator.isRegisteredOrDeactivated at active
    split at active
    · rename_i registered
      exact .inl (next ▸ inv.registered operatorId operator present registered)
    · rename_i reactivateAfter deactivatedStatus
      refine .inr (.inr (.inr (.inr ?_)))
      rw [deactivated, if_pos (Operator.isDeactivated_of_status_deactivated deactivatedStatus)]
      exact Finset.mem_insert_self _ _
    · cases active
  refine inv.of_change nominator present (Operator.tracked_of_isRegisteredOrDeactivated active)
    (Function.update_self _ _ _) (fun other ne => by simp [ne])
    (fun other n ne => by simp [Function.update_update_apply_of_ne _ _ ne])
    (fun other n ne => by simp [Function.update_update_apply_of_ne _ _ ne]) rfl rfl rfl rfl rfl
    (fun _ scheduled => scheduled.mono subset_rfl subset_rfl subset_rfl subset_rfl
      deactivatedKept) rfl le_rfl (Nat.le_add_right _ _)
    (fun _ => selfScheduled _ rfl rfl) (fun e waits => ?_)
  -- the deposit waits on what it waited on; the withdrawal on the current epoch
  rcases waits with waits | waits
  · simp only [State.setOperator, State.setWithdrawal, State.setDeposit, Function.update_self,
      depositEpoch_some] at waits
    refine .inl (.inl ?_)
    rw [hasDeposit, depositEpoch_some]
    exact doConvertPreviousEpochDeposits_depositEpoch converted waits
  · simp only [State.setOperator, State.setWithdrawal, Function.update_self, withdrawalEpoch_some,
      Option.map_some, Option.some.injEq, addWithdrawalInShares_domainEpoch] at waits
    exact .inr ⟨waits.symm, .inr (Nat.lt_of_lt_of_le took (Nat.le_add_left _ _))⟩

omit [DecidableEq A] in
/-- `removeEmptyDeposit` only ever removes a deposit. -/
theorem PriceFrame.removeEmptyDeposit [DecidableEq A] {s s' : State A} (frame : PriceFrame s s')
    (operatorId : ℕ) (nominator : A) :
    PriceFrame s (s'.removeEmptyDeposit operatorId nominator) := by
  rcases State.removeEmptyDeposit_eq s' operatorId nominator with kept | ⟨_, -, -, -, removed⟩
  · rw [kept]
    exact frame
  · rw [removed]
    exact frame.setDeposit operatorId nominator none (by simp)

/-- `do_unlock_funds` only takes records away: the withdrawal loses what it
paid out, and an empty deposit goes. -/
theorem PriceFrame.doUnlockFunds {s s' : State A} {operatorId : ℕ} {nominator : A} {count : ℕ}
    (unlocked : doUnlockFunds s operatorId nominator = .ok (s', count)) : PriceFrame s s' := by
  obtain ⟨operator, stored, withdrawal, s₁, -, -, hasWithdrawal, converted, -, -, -, -, -, rfl,
    rfl⟩ := doUnlockFunds_eq_ok unlocked
  have held := (PriceFrame.refl s).setDepositOnHold operatorId nominator
    (s.depositOnHold operatorId nominator - min ((withdrawal.withdrawals.takeWhile fun w =>
      decide (w.unlockAtConfirmedDomainBlockNumber ≤ s.headDomainNumber)).map
      (·.amountToUnlock)).sum (s.depositOnHold operatorId nominator))
  split
  · exact (held.setWithdrawal operatorId nominator none (by simp)).removeEmptyDeposit operatorId
      nominator
  · refine held.setWithdrawal operatorId nominator _ (fun e waits => ?_)
    rw [hasWithdrawal, withdrawalEpoch_some]
    exact doConvertPreviousEpochWithdrawal_withdrawalEpoch converted waits

/-- `do_unlock_nominator` takes the nominator's records away, and the last one
out cleans the operator up. -/
theorem PriceCoverage.doUnlockNominator [Fintype A] {s s' : State A}
    (inv : PriceCoverage selfDeposits s) {operatorId : ℕ} {nominator : A}
    (unlocked : doUnlockNominator s operatorId nominator = .ok s') :
    PriceCoverage selfDeposits s' := by
  obtain ⟨operator, info, sharePrice, stored, deposit, withdrawn, s₂, present, -, -, -, -, -, -, -,
    -, -, rfl, rfl⟩ := doUnlockNominator_eq_ok unlocked
  have cleared := ((((PriceFrame.refl s).setStorageFund operatorId
    (s.storageFundBalance operatorId - (storageFundRedeemPrice s operatorId
      operator.totalStorageFeeDeposit).redeem deposit.totalStorageFeeDeposit)).setDeposit
    operatorId nominator none (by simp)).setWithdrawal operatorId nominator none
    (by simp)).setDepositOnHold operatorId nominator 0
  split
  · exact inv.of_frame (cleared.setOperator present rfl)
  · exact (inv.of_frame (cleared.removeOperator operatorId)).doCleanupOperator (by simp) _

theorem PriceCoverage.doDeregisterOperator {s s' : State A} (inv : PriceCoverage selfDeposits s)
    {operatorOwner : A} {operatorId : ℕ}
    (deregistered : doDeregisterOperator cfg s operatorOwner operatorId = .ok s') :
    PriceCoverage selfDeposits s' := by
  obtain ⟨operator, -, present, active, rfl⟩ := doDeregisterOperator_eq_ok cfg deregistered
  -- out of the next set and `DeactivatedOperators`, into `DeregisteredOperators`
  refine inv.of_status operatorId (fun other ne => by simp [ne]) (fun _ _ => rfl) rfl rfl rfl rfl
    rfl (fun other ne scheduled => scheduled.imp (fun member => by simp [ne, member]) id id
      (fun member => by simp [member]) (fun member => by split <;> simp [ne, member]))
    (fun other ne member => by simp [ne, member]) (fun operator' written => ?_)
  simp only [State.setOperator, Function.update_self, Option.some.injEq] at written
  subst written
  refine ⟨operator, present, rfl, rfl,
    fun _ => ⟨Operator.tracked_of_isRegisteredOrDeactivated active,
      fun _ => .inr (.inr (.inr (.inl (by simp))))⟩,
    fun registered => ?_⟩
  cases Operator.partialStatus_of_status_registered registered

omit [DecidableEq A] in
theorem PriceCoverage.doDeactivateOperator {s s' : State A} (inv : PriceCoverage selfDeposits s)
    {operatorId : ℕ} (deactivated : doDeactivateOperator cfg s operatorId = .ok s') :
    PriceCoverage selfDeposits s' := by
  obtain ⟨operator, summary, present, registered, removed, rfl⟩ :=
    doDeactivateOperator_eq_ok cfg deactivated
  have summary_eq := removeFromCurrentOperators_eq_ok removed
  rw [summary_eq]
  -- out of the next set, into `DeactivatedOperators`
  refine inv.of_status operatorId (fun other ne => by simp [ne]) (fun _ _ => rfl) rfl rfl rfl rfl
    rfl (fun other ne scheduled => scheduled.imp (fun member => by simp [ne, member]) id id id
      (fun member => by simp [member])) (fun other ne member => by simp [ne, member])
    (fun operator' written => ?_)
  simp only [State.setOperator, Function.update_self, Option.some.injEq] at written
  subst written
  refine ⟨operator, present, rfl, rfl,
    fun _ => ⟨Operator.tracked_of_status_eq registered (by simp) (by simp),
      fun _ => .inr (.inr (.inr (.inr (by simp))))⟩,
    fun registered' => ?_⟩
  cases Operator.partialStatus_of_status_registered registered'

omit [DecidableEq A] in
theorem PriceCoverage.doReactivateOperator {s s' : State A} (inv : PriceCoverage selfDeposits s)
    {operatorId : ℕ} (reactivated : doReactivateOperator s operatorId = .ok s') :
    PriceCoverage selfDeposits s' := by
  obtain ⟨operator, reactivationDelay, present, deactivated, -, rfl⟩ :=
    doReactivateOperator_eq_ok reactivated
  -- out of `DeactivatedOperators`, back into the next set
  refine inv.of_status operatorId (fun other ne => by simp [ne]) (fun _ _ => rfl) rfl rfl rfl rfl
    rfl (fun other ne scheduled => scheduled.imp (fun member => by simp [member]) id id id
      (fun member => by simp [ne, member])) (fun other ne member => by simp [member])
    (fun operator' written => ?_)
  simp only [State.setOperator, Function.update_self, Option.some.injEq] at written
  subst written
  exact ⟨operator, present, rfl, rfl,
    fun _ => ⟨Operator.tracked_of_status_eq deactivated (by simp) (by simp),
      fun _ => .inl (by simp)⟩,
    fun _ => by simp⟩

omit [DecidableEq A] in
/-- Rewards are not part of the share-price ledger until the transition. -/
theorem PriceFrame.doRewardOperators {s s' : State A} {operators : List ℕ} {rewards : ℕ}
    (rewarded : doRewardOperators s operators rewards = .ok s') : PriceFrame s s' := by
  obtain ⟨epochRewards, treasury, rfl⟩ := doRewardOperators_eq_ok rewarded
  exact (PriceFrame.refl s).keep rfl rfl rfl rfl

omit [DecidableEq A] in
theorem PriceCoverage.markOperatorAsSlashed {s s' : State A} (inv : PriceCoverage selfDeposits s)
    {operatorId : ℕ} (marked : markOperatorAsSlashed s operatorId = .ok s') :
    PriceCoverage selfDeposits s' := by
  rcases markOperatorAsSlashed_eq_ok marked with rfl | ⟨operator, summary, present, -, removed, rfl⟩
  · exact inv
  have summary_eq := removeFromCurrentOperators_eq_ok removed
  rw [summary_eq]
  -- a slashed operator is out of the ledger's sight
  refine inv.of_status operatorId (fun other ne => by simp [ne]) (fun _ _ => rfl) rfl rfl rfl rfl
    rfl (fun other ne scheduled => scheduled.imp (fun member => by simp [ne, member]) id id id id)
    (fun other ne member => by simp [ne, member]) (fun operator' written => ?_)
  simp only [State.setOperator, Function.update_self, Option.some.injEq] at written
  subst written
  refine ⟨operator, present, rfl, rfl, fun tracked => absurd ?_ tracked.1, fun registered => ?_⟩
  · exact Operator.status_eq_slashed.mpr rfl
  · cases Operator.partialStatus_of_status_registered registered

omit [DecidableEq A] in
theorem PriceCoverage.doMarkOperatorsAsSlashed {s s' : State A}
    (inv : PriceCoverage selfDeposits s) {operatorIds : List ℕ}
    (marked : doMarkOperatorsAsSlashed s operatorIds = .ok s') : PriceCoverage selfDeposits s' :=
  foldlM_invariant (PriceCoverage selfDeposits) inv
    (fun _ _ _ _ kept marked => kept.markOperatorAsSlashed marked) marked

omit [DecidableEq A] in
theorem PriceCoverage.markInvalidBundleAuthor {s s' : State A}
    (inv : PriceCoverage selfDeposits s) {operatorId erHash : ℕ}
    (marked : markInvalidBundleAuthor s operatorId erHash = .ok s') :
    PriceCoverage selfDeposits s' := by
  rcases markInvalidBundleAuthor_eq_ok marked with
    rfl | ⟨operator, summary, present, registered, removed, rfl⟩
  · exact inv
  have summary_eq := removeFromCurrentOperators_eq_ok removed
  rw [summary_eq]
  -- out of the next set, into `InvalidBundleAuthors`
  refine inv.of_status operatorId (fun other ne => by simp [ne]) (fun _ _ => rfl) rfl rfl rfl rfl
    rfl (fun other ne scheduled => scheduled.imp (fun member => by simp [ne, member]) id
      (fun member => by simp [member]) id id) (fun other ne member => by simp [ne, member])
    (fun operator' written => ?_)
  simp only [State.setOperator, Function.update_self, Option.some.injEq] at written
  subst written
  refine ⟨operator, present, rfl, rfl,
    fun _ => ⟨Operator.tracked_of_status_eq registered (by simp) (by simp),
      fun _ => .inr (.inr (.inl (by simp)))⟩,
    fun registered' => ?_⟩
  cases Operator.partialStatus_of_status_registered registered'

omit [DecidableEq A] in
theorem PriceCoverage.doMarkInvalidBundleAuthors {s s' : State A}
    (inv : PriceCoverage selfDeposits s) {authors : List ℕ} {erHash : ℕ}
    (marked : doMarkInvalidBundleAuthors s authors erHash = .ok s') :
    PriceCoverage selfDeposits s' := by
  refine foldlM_invariant (PriceCoverage selfDeposits) inv (fun t operatorId t' _ kept step => ?_)
    marked
  split at step
  · cases step
    exact kept
  · exact kept.markInvalidBundleAuthor step

omit [DecidableEq A] in
theorem PriceCoverage.unmarkInvalidBundleAuthor {s : State A} (inv : PriceCoverage selfDeposits s)
    (operatorId erHash : ℕ) :
    PriceCoverage selfDeposits (unmarkInvalidBundleAuthor s operatorId erHash) := by
  rcases unmarkInvalidBundleAuthor_eq s operatorId erHash with same | ⟨operator, present, marked, unmarked⟩
  · rw [same]
    exact inv
  rw [unmarked]
  -- out of `InvalidBundleAuthors`, back into the next set
  refine inv.of_status operatorId (fun other ne => by simp [ne]) (fun _ _ => rfl) rfl rfl rfl rfl
    rfl (fun other ne scheduled => scheduled.imp (fun member => by simp [member]) id
      (fun member => by simp [ne, member]) id id) (fun other ne member => by simp [member])
    (fun operator' written => ?_)
  simp only [State.setOperator, Function.update_self, Option.some.injEq] at written
  subst written
  refine ⟨operator, present, rfl, rfl, fun tracked => ⟨?_, fun _ => .inl (by simp)⟩,
    fun _ => by simp⟩
  -- tracked as registered, so not pending to slash, so tracked while marked
  have notPending : s.pendingToSlash operatorId = false := tracked.notPending
  have status : operator.status s operatorId = .invalidBundle erHash := by
    simp [Operator.status, marked, notPending]
  exact Operator.tracked_of_status_eq status (by simp) (by simp)

omit [DecidableEq A] in
theorem PriceCoverage.doUnmarkInvalidBundleAuthors {s : State A}
    (inv : PriceCoverage selfDeposits s) (authors : List ℕ) (erHash : ℕ) :
    PriceCoverage selfDeposits (doUnmarkInvalidBundleAuthors s authors erHash) := by
  refine foldl_invariant (PriceCoverage selfDeposits) inv (fun t operatorId _ kept => ?_)
  split
  · exact kept
  · exact kept.unmarkInvalidBundleAuthor operatorId erHash

omit [DecidableEq A] in
/-- The chain marks an operator pending to slash: it is out of the ledger's
sight. -/
theorem PriceCoverage.markPendingToSlash {s : State A} (inv : PriceCoverage selfDeposits s)
    (operatorId : ℕ) :
    PriceCoverage selfDeposits
      { s with pendingToSlash := Function.update s.pendingToSlash operatorId true } := by
  refine inv.of_status operatorId (fun _ _ => rfl) (fun other ne => by simp [ne]) rfl rfl rfl rfl
    rfl (fun _ _ scheduled => scheduled) (fun _ _ member => member) (fun operator present => ?_)
  refine ⟨operator, present, rfl, rfl, fun tracked => ?_, fun registered => ?_⟩
  · have notPending : Function.update s.pendingToSlash operatorId true operatorId = false :=
      tracked.notPending
    simp at notPending
  · have notPending : Function.update s.pendingToSlash operatorId true operatorId = false :=
      (Operator.tracked_of_status_eq registered (by simp) (by simp)).notPending
    simp at notPending

end Calls

/-! ## 6. The epoch transition

The reward loop deposits the tax of an operator for its owner in the current
epoch and adds the operator to the tax deposits; the two finalize loops then
record the epoch's price of every operator scheduled with deposits or
withdrawals in the epoch, and the epoch ends. -/

section Transition

variable [DecidableEq A] {selfDeposits : Finset ℕ}

/-- One operator of the reward loop: its reward is staked, and its tax
becomes a deposit of its owner in the current epoch, which schedules it. -/
theorem PriceCoverage.operatorTakeRewardTax {rewardPerOperator : ℕ} {acc acc' : TaxAcc A}
    {entry : ℕ × ℕ} (inv : PriceCoverage acc.operatorsWithSelfDeposits acc.state)
    (taken : operatorTakeRewardTax rewardPerOperator acc entry = .ok acc') :
    PriceCoverage acc'.operatorsWithSelfDeposits acc'.state := by
  rcases operatorTakeRewardTax_eq_ok taken with rfl | ⟨-, operator, present,
    notSlashed, notPending, ⟨-, staked, sameDeposits⟩ | ⟨s₁, operator₁, taxed, deposited, staked,
    inserted⟩⟩
  · exact inv
  · rw [staked, sameDeposits]
    exact inv.of_frame ((PriceFrame.refl _).setOperator present rfl)
  · rw [staked, inserted]
    obtain ⟨owner, -, calculated, rfl⟩ := depositOperatorTax_eq_ok deposited
    obtain ⟨deposit, -, -, rfl⟩ :=
      doCalculatePreviousEpochDepositSharesAndAddNewDeposit_eq_ok calculated
    have staking : 0 < (NewDeposit.split (operator.nominationTax.mulFloor
        (entry.2 + rewardPerOperator))).staking :=
      NewDeposit.staking_pos (Nat.pos_of_ne_zero taxed)
    refine inv.of_change owner present ⟨notSlashed, notPending⟩ (Function.update_self _ _ _)
      (fun other ne => by simp [holdDeposit, ne])
      (fun other n ne => by simp [holdDeposit, Function.update_update_apply_of_ne _ _ ne])
      (fun _ _ _ => rfl) rfl rfl rfl rfl rfl
      (fun _ scheduled => scheduled.mono subset_rfl (Finset.subset_insert _ _) subset_rfl
        subset_rfl subset_rfl) rfl (Nat.le_add_right _ _) le_rfl
      (fun _ => .inr (.inl (Finset.mem_insert_self _ _))) (fun e waits => ?_)
    -- the owner's deposit now waits on the current epoch
    rcases waits with waits | waits
    · simp only [State.setOperator, State.setDeposit, Function.update_self, depositEpoch_some,
        Option.map_some, Option.some.injEq, addPendingDeposit_effectiveDomainEpoch] at waits
      exact .inr ⟨waits.symm, .inl (Nat.lt_of_lt_of_le staking (Nat.le_add_left _ _))⟩
    · exact .inl (.inr waits)

/-- The reward loop, from a state between transitions, leaves the ledger with
the tax deposits it made. -/
theorem PriceCoverage.operatorTakeRewardTaxAndStake {s s' : State A} (inv : PriceCoverage ∅ s)
    {rewardedOperatorCount : ℕ} {operatorsWithSelfDeposits : Finset ℕ}
    (taken : operatorTakeRewardTaxAndStake s =
      .ok (s', rewardedOperatorCount, operatorsWithSelfDeposits)) :
    PriceCoverage operatorsWithSelfDeposits s' := by
  obtain ⟨acc, ran, rfl, rfl⟩ := operatorTakeRewardTaxAndStake_eq_ok taken
  have start : PriceCoverage ∅ { s with
      domainChainRewards := 0
      summary := { s.summary with currentEpochRewards := .empty 0 } } :=
    inv.of_frame ((PriceFrame.refl s).keep rfl rfl rfl rfl)
  have looped := foldlM_invariant (fun acc => PriceCoverage acc.operatorsWithSelfDeposits acc.state)
    start (fun _ _ _ _ kept step => kept.operatorTakeRewardTax step) ran
  exact looped.of_frame ((PriceFrame.refl _).keep rfl rfl rfl rfl)

/-- What finalizing operators changes: only operators and prices; an operator
keeps its presence and stored status, and prices are only added. -/
structure FinalizeFrame (s s' : State A) : Prop where
  rest : s' = { s with
    operators := s'.operators
    operatorEpochSharePrice := s'.operatorEpochSharePrice }
  operators : ∀ operatorId, (s'.operators operatorId).map Operator.partialStatus =
    (s.operators operatorId).map Operator.partialStatus
  prices : ∀ operatorId epoch, (s.operatorEpochSharePrice operatorId epoch).isSome →
    (s'.operatorEpochSharePrice operatorId epoch).isSome

namespace FinalizeFrame

variable {s s' s'' : State A}

omit [DecidableEq A] in
theorem refl (s : State A) : FinalizeFrame s s := ⟨rfl, fun _ => rfl, fun _ _ => id⟩

omit [DecidableEq A] in
theorem trans (first : FinalizeFrame s s') (second : FinalizeFrame s' s'') :
    FinalizeFrame s s'' where
  rest := by
    rw [second.rest, first.rest]
  operators operatorId := (second.operators operatorId).trans (first.operators operatorId)
  prices operatorId epoch priced := second.prices operatorId epoch (first.prices operatorId epoch priced)

omit [DecidableEq A] in
theorem pendingToSlash (frame : FinalizeFrame s s') : s'.pendingToSlash = s.pendingToSlash := by
  rw [frame.rest]

omit [DecidableEq A] in
theorem eq_some (frame : FinalizeFrame s s') {operatorId : ℕ} {operator' : Operator}
    (present' : s'.operators operatorId = some operator') :
    ∃ operator, s.operators operatorId = some operator ∧
      operator'.partialStatus = operator.partialStatus := by
  have same := frame.operators operatorId
  rw [present'] at same
  cases present : s.operators operatorId with
  | none => simp [present] at same
  | some operator =>
    simp only [present, Option.map_some, Option.some.injEq] at same
    exact ⟨operator, rfl, same⟩

omit [DecidableEq A] in
theorem eq_none (frame : FinalizeFrame s s') {operatorId : ℕ}
    (absent : s.operators operatorId = none) : s'.operators operatorId = none := by
  have same := frame.operators operatorId
  rw [absent, Option.map_none, Option.map_eq_none_iff] at same
  exact same

omit [DecidableEq A] in
/-- Finalizing one operator: its price of the epoch is recorded and it gets
new totals, or nothing changes. -/
theorem doFinalizeOperatorEpochStaking {operatorId previousEpoch totalStake : ℕ}
    {checkStatus stakeChanged : Bool}
    (finalized : doFinalizeOperatorEpochStaking s operatorId previousEpoch checkStatus =
      .ok (s', totalStake, stakeChanged)) : FinalizeFrame s s' := by
  obtain ⟨operator, present, -, ⟨-, -, rfl, -, -⟩ | ⟨sharePrice, _, _, -, -, -, -, -, rfl⟩⟩ :=
    doFinalizeOperatorEpochStaking_eq_ok finalized
  · exact refl _
  refine ⟨rfl, fun other => ?_, fun other epoch priced => ?_⟩
  · by_cases same : other = operatorId
    · subst same
      simp [present]
    · simp [same]
  · by_cases same : other = operatorId
    · subst same
      by_cases sameEpoch : epoch = previousEpoch
      · subst sameEpoch
        simp
      · simpa [sameEpoch] using priced
    · simpa [same] using priced

end FinalizeFrame

section Finalize

variable {s s' : State A} {operatorId previousEpoch totalStake : ℕ} {checkStatus stakeChanged : Bool}

omit [DecidableEq A] in
/-- Finalizing an operator leaves every other operator as it is. -/
theorem doFinalizeOperatorEpochStaking_operators_of_ne
    (finalized : doFinalizeOperatorEpochStaking s operatorId previousEpoch checkStatus =
      .ok (s', totalStake, stakeChanged)) {other : ℕ} (ne : other ≠ operatorId) :
    s'.operators other = s.operators other := by
  obtain ⟨operator, -, -, ⟨-, -, rfl, -, -⟩ | ⟨_, _, _, -, -, -, -, -, rfl⟩⟩ :=
    doFinalizeOperatorEpochStaking_eq_ok finalized
  · rfl
  · simp [ne]

omit [DecidableEq A] in
/-- Finalizing an operator with deposits or withdrawals in the epoch records
the epoch's price and clears its counters. -/
theorem doFinalizeOperatorEpochStaking_of_changed
    (finalized : doFinalizeOperatorEpochStaking s operatorId previousEpoch checkStatus =
      .ok (s', totalStake, stakeChanged)) {operator : Operator}
    (present : s.operators operatorId = some operator) (changed : operator.ChangedInEpoch) :
    (s'.operatorEpochSharePrice operatorId previousEpoch).isSome ∧
      ∀ operator', s'.operators operatorId = some operator' → ¬operator'.ChangedInEpoch := by
  obtain ⟨stored, present', -, ⟨deposits, withdrawals, -, -, -⟩ |
    ⟨_, _, _, -, -, -, -, -, rfl⟩⟩ := doFinalizeOperatorEpochStaking_eq_ok finalized
  · rw [present, Option.some.injEq] at present'
    subst present'
    unfold Operator.ChangedInEpoch at changed
    omega
  · refine ⟨by simp, fun operator' written => ?_⟩
    simp only [State.setOperator, Function.update_self, Option.some.injEq] at written
    subst written
    simp [Operator.ChangedInEpoch]

omit [DecidableEq A] in
/-- Finalizing an operator with nothing in the epoch changes nothing. -/
theorem doFinalizeOperatorEpochStaking_of_unchanged
    (finalized : doFinalizeOperatorEpochStaking s operatorId previousEpoch checkStatus =
      .ok (s', totalStake, stakeChanged)) {operator : Operator}
    (present : s.operators operatorId = some operator) (unchanged : ¬operator.ChangedInEpoch) :
    s' = s := by
  obtain ⟨stored, present', -, ⟨-, -, rfl, -, -⟩ | ⟨_, _, _, changed, -, -, -, -, rfl⟩⟩ :=
    doFinalizeOperatorEpochStaking_eq_ok finalized
  · rfl
  · rw [present, Option.some.injEq] at present'
    subst present'
    unfold Operator.ChangedInEpoch at unchanged
    omega

omit [DecidableEq A] in
/-- The second loop finalizes an operator neither slashed nor pending slash. -/
theorem finalizeOtherOperator_of_tracked {acc acc' : State A × ℕ} {operator : Operator}
    (present : acc.1.operators operatorId = some operator)
    (tracked : operator.Tracked acc.1 operatorId)
    (finalized : finalizeOtherOperator previousEpoch acc operatorId = .ok acc') :
    ∃ s' totalStake stakeChanged,
      doFinalizeOperatorEpochStaking acc.1 operatorId previousEpoch false =
        .ok (s', totalStake, stakeChanged) ∧ acc'.1 = s' := by
  obtain ⟨s, finalizedOperatorCount⟩ := acc
  obtain ⟨notSlashed, notPending⟩ := tracked
  dsimp only at present notSlashed notPending
  cases status : operator.status s operatorId with
  | slashed => exact absurd status notSlashed
  | pendingSlash => exact absurd status notPending
  | _ =>
    simp only [finalizeOtherOperator, present, status, Except.bind_eq_ok,
      Except.pure_eq_ok] at finalized
    obtain ⟨⟨s', operatorStake, stakeChanged⟩, operatorFinalized, rfl⟩ := finalized
    exact ⟨s', operatorStake, stakeChanged, operatorFinalized, rfl⟩

end Finalize

section Loops

variable {previousEpoch : ℕ} {operators : List ℕ}

omit [DecidableEq A] in
/-- One operator of the first loop changes only what finalizing it changes,
and the new next set only grows. -/
theorem finalizeNextOperator_frame {acc acc' : FinalizeAcc A} {operatorId : ℕ}
    (finalized : finalizeNextOperator previousEpoch acc operatorId = .ok acc') :
    FinalizeFrame acc.state acc'.state ∧ acc.nextOperators ⊆ acc'.nextOperators ∧
      ∀ other, other ≠ operatorId → acc'.state.operators other = acc.state.operators other := by
  rcases finalizeNextOperator_eq_ok finalized with ⟨-, rfl⟩ | ⟨s', _, _, -, operatorFinalized, rfl⟩
  · exact ⟨FinalizeFrame.refl _, subset_rfl, fun _ _ => rfl⟩
  · exact ⟨FinalizeFrame.doFinalizeOperatorEpochStaking operatorFinalized,
      Finset.subset_insert _ _,
      fun _ ne => doFinalizeOperatorEpochStaking_operators_of_ne operatorFinalized ne⟩

omit [DecidableEq A] in
theorem firstLoop_frame {acc₀ acc : FinalizeAcc A}
    (ran : operators.foldlM (finalizeNextOperator previousEpoch) acc₀ = .ok acc) :
    FinalizeFrame acc₀.state acc.state ∧ acc₀.nextOperators ⊆ acc.nextOperators :=
  foldlM_invariant (fun acc => FinalizeFrame acc₀.state acc.state ∧
      acc₀.nextOperators ⊆ acc.nextOperators) ⟨FinalizeFrame.refl _, subset_rfl⟩
    (fun _ _ _ _ ⟨frame, grown⟩ step =>
      ⟨frame.trans (finalizeNextOperator_frame step).1,
        grown.trans (finalizeNextOperator_frame step).2.1⟩) ran

omit [DecidableEq A] in
/-- The first loop leaves the operators outside the next set as they are. -/
theorem firstLoop_untouched {acc₀ acc : FinalizeAcc A}
    (ran : operators.foldlM (finalizeNextOperator previousEpoch) acc₀ = .ok acc) {operatorId : ℕ}
    (outside : operatorId ∉ operators) :
    acc.state.operators operatorId = acc₀.state.operators operatorId :=
  foldlM_invariant (fun acc => acc.state.operators operatorId = acc₀.state.operators operatorId) rfl
    (fun _ other _ member kept step => by
      have ne : operatorId ≠ other := fun same => outside (same ▸ member)
      rw [(finalizeNextOperator_frame step).2.2 operatorId ne, kept]) ran

omit [DecidableEq A] in
/-- An operator of the next set that is not pending to slash stays in it. -/
theorem firstLoop_joins {acc₀ acc : FinalizeAcc A}
    (ran : operators.foldlM (finalizeNextOperator previousEpoch) acc₀ = .ok acc) {operatorId : ℕ}
    (member : operatorId ∈ operators) (notPending : acc₀.state.pendingToSlash operatorId = false) :
    operatorId ∈ acc.nextOperators := by
  refine foldlM_establishes (fun acc => acc.state.pendingToSlash operatorId = false)
    (fun acc => operatorId ∈ acc.nextOperators) member notPending
    (fun _ _ _ _ waiting step => ?_) (fun _ _ waiting step => ?_)
    (fun _ _ _ joined step => (finalizeNextOperator_frame step).2.1 joined) ran
  · rw [(finalizeNextOperator_frame step).1.pendingToSlash]
    exact waiting
  · rcases finalizeNextOperator_eq_ok step with ⟨pending, -⟩ | ⟨_, _, _, -, -, rfl⟩
    · rw [waiting] at pending
      cases pending
    · exact Finset.mem_insert_self _ _

omit [DecidableEq A] in
/-- An operator of the next set that is not pending to slash and had deposits
or withdrawals in the epoch gets the epoch's price. -/
theorem firstLoop_priced {acc₀ acc : FinalizeAcc A}
    (ran : operators.foldlM (finalizeNextOperator previousEpoch) acc₀ = .ok acc) {operatorId : ℕ}
    {operator : Operator} (member : operatorId ∈ operators)
    (present : acc₀.state.operators operatorId = some operator)
    (notPending : acc₀.state.pendingToSlash operatorId = false)
    (changed : operator.ChangedInEpoch) :
    (acc.state.operatorEpochSharePrice operatorId previousEpoch).isSome := by
  refine foldlM_establishes (fun acc => acc.state.operators operatorId = some operator ∧
      acc.state.pendingToSlash operatorId = false)
    (fun acc => (acc.state.operatorEpochSharePrice operatorId previousEpoch).isSome) member
    ⟨present, notPending⟩ (fun _ other _ ne ⟨kept, waiting⟩ step => ?_)
    (fun _ _ ⟨kept, waiting⟩ step => ?_)
    (fun _ _ _ priced step => (finalizeNextOperator_frame step).1.prices _ _ priced) ran
  · rw [(finalizeNextOperator_frame step).2.2 operatorId (Ne.symm ne),
      (finalizeNextOperator_frame step).1.pendingToSlash]
    exact ⟨kept, waiting⟩
  · rcases finalizeNextOperator_eq_ok step with ⟨pending, -⟩ | ⟨_, _, _, -, operatorFinalized, rfl⟩
    · rw [waiting] at pending
      cases pending
    · exact (doFinalizeOperatorEpochStaking_of_changed operatorFinalized kept changed).1

omit [DecidableEq A] in
/-- One operator of the second loop changes only what finalizing it changes. -/
theorem finalizeOtherOperator_frame {acc acc' : State A × ℕ} {operatorId : ℕ}
    (finalized : finalizeOtherOperator previousEpoch acc operatorId = .ok acc') :
    FinalizeFrame acc.1 acc'.1 ∧
      ∀ other, other ≠ operatorId → acc'.1.operators other = acc.1.operators other := by
  rcases finalizeOtherOperator_eq_ok finalized with rfl | ⟨_, s', _, _, -, -, -, operatorFinalized,
    rfl⟩
  · exact ⟨FinalizeFrame.refl _, fun _ _ => rfl⟩
  · exact ⟨FinalizeFrame.doFinalizeOperatorEpochStaking operatorFinalized,
      fun _ ne => doFinalizeOperatorEpochStaking_operators_of_ne operatorFinalized ne⟩

omit [DecidableEq A] in
/-- An operator with nothing in the epoch is left as it is by either loop's
visit. -/
theorem finalizeOtherOperator_keeps_unchanged {acc acc' : State A × ℕ} {operatorId other : ℕ}
    {operator : Operator} (present : acc.1.operators other = some operator)
    (unchanged : ¬operator.ChangedInEpoch)
    (finalized : finalizeOtherOperator previousEpoch acc operatorId = .ok acc') :
    acc'.1.operators other = some operator := by
  by_cases same : other = operatorId
  · subst same
    rcases finalizeOtherOperator_eq_ok finalized with rfl | ⟨_, s', _, _, -, -, -, operatorFinalized,
      rfl⟩
    · exact present
    · rw [doFinalizeOperatorEpochStaking_of_unchanged operatorFinalized present unchanged]
      exact present
  · rw [(finalizeOtherOperator_frame finalized).2 other same]
    exact present

omit [DecidableEq A] in
theorem secondLoop_frame {acc₀ acc : State A × ℕ}
    (ran : operators.foldlM (finalizeOtherOperator previousEpoch) acc₀ = .ok acc) :
    FinalizeFrame acc₀.1 acc.1 :=
  foldlM_invariant (fun acc => FinalizeFrame acc₀.1 acc.1) (FinalizeFrame.refl _)
    (fun _ _ _ _ frame step => frame.trans (finalizeOtherOperator_frame step).1) ran

omit [DecidableEq A] in
/-- The second loop leaves an operator with nothing in the epoch as it is. -/
theorem secondLoop_keeps_unchanged {acc₀ acc : State A × ℕ}
    (ran : operators.foldlM (finalizeOtherOperator previousEpoch) acc₀ = .ok acc) {operatorId : ℕ}
    {operator : Operator} (present : acc₀.1.operators operatorId = some operator)
    (unchanged : ¬operator.ChangedInEpoch) : acc.1.operators operatorId = some operator :=
  foldlM_invariant (fun acc => acc.1.operators operatorId = some operator) present
    (fun _ _ _ _ kept step => finalizeOtherOperator_keeps_unchanged kept unchanged step) ran

omit [DecidableEq A] in
/-- An operator the second loop visits, neither slashed nor pending slash,
with deposits or withdrawals in the epoch, gets the epoch's price and has its
counters cleared. -/
theorem secondLoop_priced {acc₀ acc : State A × ℕ}
    (ran : operators.foldlM (finalizeOtherOperator previousEpoch) acc₀ = .ok acc) {operatorId : ℕ}
    {operator : Operator} (member : operatorId ∈ operators)
    (present : acc₀.1.operators operatorId = some operator)
    (tracked : operator.Tracked acc₀.1 operatorId) (changed : operator.ChangedInEpoch) :
    (acc.1.operatorEpochSharePrice operatorId previousEpoch).isSome ∧
      ∀ operator', acc.1.operators operatorId = some operator' → ¬operator'.ChangedInEpoch := by
  refine foldlM_establishes (fun acc => acc.1.operators operatorId = some operator ∧
      operator.Tracked acc.1 operatorId)
    (fun acc => (acc.1.operatorEpochSharePrice operatorId previousEpoch).isSome ∧
      ∀ operator', acc.1.operators operatorId = some operator' → ¬operator'.ChangedInEpoch)
    member ⟨present, tracked⟩ (fun _ other _ ne ⟨kept, stillTracked⟩ step => ?_)
    (fun _ _ ⟨kept, stillTracked⟩ step => ?_) (fun visited _ _ ⟨priced, cleared⟩ step => ?_) ran
  · have frame := finalizeOtherOperator_frame step
    rw [frame.2 operatorId (Ne.symm ne)]
    exact ⟨kept, (Operator.tracked_congr (congrFun frame.1.pendingToSlash operatorId) rfl).mpr
      stillTracked⟩
  · obtain ⟨s', _, _, operatorFinalized, rfl⟩ := finalizeOtherOperator_of_tracked kept stillTracked step
    exact doFinalizeOperatorEpochStaking_of_changed operatorFinalized kept changed
  · refine ⟨(finalizeOtherOperator_frame step).1.prices _ _ priced, fun operator' present' => ?_⟩
    -- a second visit finds the counters cleared and changes nothing
    cases present : visited.1.operators operatorId with
    | none =>
      rw [(finalizeOtherOperator_frame step).1.eq_none present] at present'
      cases present'
    | some cleared' =>
      have stays := finalizeOtherOperator_keeps_unchanged present (cleared cleared' present) step
      rw [stays, Option.some.injEq] at present'
      exact present' ▸ cleared cleared' present

end Loops

omit [DecidableEq A] in
/-- A scheduled operator outside the next set is one the second loop prices. -/
theorem State.Scheduled.mem_operatorsToCalculateSharePrice {s : State A} {operatorId : ℕ}
    (scheduled : s.Scheduled selfDeposits operatorId)
    (outside : operatorId ∉ s.summary.nextOperators) :
    operatorId ∈ operatorsToCalculateSharePrice s selfDeposits := by
  unfold operatorsToCalculateSharePrice
  rcases scheduled with inNext | member | member | member | member
  · exact absurd inNext outside
  all_goals simp [member, outside]

omit [DecidableEq A] in
/-- `do_finalize_domain_epoch_staking`: every operator scheduled with deposits
or withdrawals in the epoch gets the epoch's price, and the epoch ends with
the counters of every operator outside the new next set cleared. -/
theorem PriceCoverage.doFinalizeDomainEpochStaking {s s' : State A}
    (inv : PriceCoverage selfDeposits s) {completedEpochIndex finalizedOperatorCount : ℕ}
    (finalized : doFinalizeDomainEpochStaking s selfDeposits =
      .ok (s', completedEpochIndex, finalizedOperatorCount)) : PriceCoverage ∅ s' := by
  obtain ⟨acc, s₂, firstLoop, secondLoop, -, rfl⟩ := doFinalizeDomainEpochStaking_eq_ok finalized
  have first : FinalizeFrame s acc.state := (firstLoop_frame firstLoop).1
  have second : FinalizeFrame _ s₂ := secondLoop_frame secondLoop
  -- what the loops leave as it was in `s`
  have deposits : s₂.deposits = s.deposits := by rw [second.rest, first.rest]
  have withdrawals : s₂.withdrawals = s.withdrawals := by rw [second.rest, first.rest]
  have next : s₂.nextOperatorId = s.nextOperatorId := by rw [second.rest, first.rest]
  have pending : s₂.pendingToSlash = s.pendingToSlash := by rw [second.rest, first.rest]
  have awaits : ∀ operatorId epoch, s₂.Awaits operatorId epoch ↔ s.Awaits operatorId epoch := by
    intro operatorId epoch
    simp only [State.Awaits, deposits, withdrawals]
  have before : ∀ operatorId operator', s₂.operators operatorId = some operator' →
      ∃ operator, s.operators operatorId = some operator ∧
        operator'.partialStatus = operator.partialStatus := by
    intro operatorId operator' present'
    obtain ⟨middle, present, stored⟩ := second.eq_some present'
    obtain ⟨operator, present₀, stored₀⟩ := first.eq_some present
    exact ⟨operator, present₀, stored.trans stored₀⟩
  have scheduledAcc : ∀ operatorId, s.Scheduled selfDeposits operatorId →
      acc.state.Scheduled selfDeposits operatorId := by
    intro operatorId scheduled
    rw [first.rest]
    exact scheduled
  have nextAcc : acc.state.summary.nextOperators = s.summary.nextOperators := by rw [first.rest]
  -- every tracked operator with deposits or withdrawals in the epoch gets its price
  have priced : ∀ operatorId operator, s.operators operatorId = some operator →
      operator.Tracked s operatorId → operator.ChangedInEpoch →
      (s₂.operatorEpochSharePrice operatorId s.summary.currentEpochIndex).isSome := by
    intro operatorId operator present tracked changed
    by_cases inNext : operatorId ∈ s.summary.nextOperators
    · exact second.prices _ _ (firstLoop_priced firstLoop (Finset.mem_ascending.mpr inNext) present
        tracked.notPending changed)
    · have untouched := firstLoop_untouched firstLoop (fun member => inNext
        (Finset.mem_ascending.mp member))
      have member := (scheduledAcc operatorId (inv.scheduled operatorId operator present tracked
        changed)).mem_operatorsToCalculateSharePrice (nextAcc ▸ inNext)
      have trackedAcc : operator.Tracked { acc.state with
          invalidBundleAuthors := ∅
          deregisteredOperators := ∅
          deactivatedOperators := ∅ } operatorId :=
        (Operator.tracked_congr (congrFun first.pendingToSlash operatorId) rfl).mpr tracked
      exact (secondLoop_priced secondLoop (Finset.mem_ascending.mpr member)
        (untouched.trans present) trackedAcc changed).1
  -- an operator outside the next set ends the epoch with its counters cleared
  have cleared : ∀ operatorId operator operator', s.operators operatorId = some operator →
      operator.Tracked s operatorId → operatorId ∉ s.summary.nextOperators →
      s₂.operators operatorId = some operator' → ¬operator'.ChangedInEpoch := by
    intro operatorId operator operator' present tracked inNext present'
    have untouched := firstLoop_untouched firstLoop (fun member => inNext
      (Finset.mem_ascending.mp member))
    by_cases changed : operator.ChangedInEpoch
    · have member := (scheduledAcc operatorId (inv.scheduled operatorId operator present tracked
        changed)).mem_operatorsToCalculateSharePrice (nextAcc ▸ inNext)
      have trackedAcc : operator.Tracked { acc.state with
          invalidBundleAuthors := ∅
          deregisteredOperators := ∅
          deactivatedOperators := ∅ } operatorId :=
        (Operator.tracked_congr (congrFun first.pendingToSlash operatorId) rfl).mpr tracked
      exact (secondLoop_priced secondLoop (Finset.mem_ascending.mpr member)
        (untouched.trans present) trackedAcc changed).2 operator' present'
    · have kept := secondLoop_keeps_unchanged secondLoop (untouched.trans present) changed
      rw [present', Option.some.injEq] at kept
      exact kept ▸ changed
  have trackedBefore : ∀ operatorId (operator operator' : Operator),
      s.operators operatorId = some operator →
      operator'.partialStatus = operator.partialStatus →
      (operator'.Tracked s₂ operatorId ↔ operator.Tracked s operatorId) :=
    fun operatorId _ _ _ stored => Operator.tracked_congr (congrFun pending operatorId) stored
  refine ⟨fun operatorId notIssued => ?_, fun operatorId epoch waits => ?_,
    fun operatorId operator' epoch present' tracked' waits => ?_,
    fun operatorId operator' present' tracked' changed' => ?_,
    fun operatorId operator' present' registered' => ?_⟩
  · -- no operator and no record at an id not issued
    have notIssued' : s.nextOperatorId ≤ operatorId := next ▸ notIssued
    obtain ⟨absent, waitsNot⟩ := inv.fresh operatorId notIssued'
    exact ⟨second.eq_none (first.eq_none absent),
      fun epoch waits => waitsNot epoch ((awaits operatorId epoch).mp waits)⟩
  · exact Nat.le_succ_of_le (inv.bounded operatorId epoch ((awaits operatorId epoch).mp waits))
  · obtain ⟨operator, present, stored⟩ := before operatorId operator' present'
    have tracked := (trackedBefore operatorId operator operator' present stored).mp tracked'
    refine .inl ?_
    rcases inv.covered operatorId operator epoch present tracked ((awaits operatorId epoch).mp waits)
      with pricedBefore | ⟨rfl, changed⟩
    · exact second.prices _ _ (first.prices _ _ pricedBefore)
    · exact priced operatorId operator present tracked changed
  · obtain ⟨operator, present, stored⟩ := before operatorId operator' present'
    have tracked := (trackedBefore operatorId operator operator' present stored).mp tracked'
    by_cases inNext : operatorId ∈ s.summary.nextOperators
    · exact .inl (firstLoop_joins firstLoop (Finset.mem_ascending.mpr inNext) tracked.notPending)
    · exact absurd changed' (cleared operatorId operator operator' present tracked inNext present')
  · obtain ⟨operator, present, stored⟩ := before operatorId operator' present'
    have registered : operator.status s operatorId = .registered :=
      (Operator.status_congr (congrFun pending operatorId) stored) ▸ registered'
    have notPending := (Operator.tracked_of_status_eq registered (by simp) (by simp)).notPending
    exact firstLoop_joins firstLoop
      (Finset.mem_ascending.mpr (inv.registered operatorId operator present registered)) notPending

/-- `do_finalize_domain_current_epoch`: the reward loop, then the finalize
loops. -/
theorem PriceCoverage.doFinalizeDomainCurrentEpoch {s s' : State A} (inv : PriceCoverage ∅ s)
    {result : EpochTransitionResult}
    (transitioned : doFinalizeDomainCurrentEpoch s = .ok (s', result)) : PriceCoverage ∅ s' := by
  obtain ⟨s₁, operatorsWithSelfDeposits, taken, finalized⟩ :=
    doFinalizeDomainCurrentEpoch_eq_ok transitioned
  have counted : PriceCoverage ∅ { s with pendingStakingOperationCount := 0 } :=
    inv.of_frame ((PriceFrame.refl s).keep rfl rfl rfl rfl)
  exact (counted.operatorTakeRewardTaxAndStake taken).doFinalizeDomainEpochStaking finalized

end Transition

/-! ## 7. Slashing, the whole ledger, and the calls that convert -/

section Ledger

variable [DecidableEq A] {selfDeposits : Finset ℕ}

omit [DecidableEq A] in
/-- One nominator of `do_slash_operator`: its records go, with balances the
ledger does not read. -/
theorem PriceFrame.slashNominator {s : State A} {operatorId epoch : ℕ} {sharePrice : SharePrice}
    {acc acc' : SlashAcc A} {nominator : A} {deposit : Deposit} [DecidableEq A]
    (frame : PriceFrame s acc.state)
    (slashed : slashNominator operatorId sharePrice epoch acc nominator deposit = .ok acc') :
    PriceFrame s acc'.state ∧ acc'.state.operators = acc.state.operators := by
  obtain ⟨_, fund, treasury, -, written, -, -⟩ := slashNominator_eq_ok slashed
  rw [written]
  refine ⟨?_, rfl⟩
  exact ((((frame.setDeposit operatorId nominator none (by simp)).setDepositOnHold operatorId
    nominator 0).setWithdrawal operatorId nominator none (by simp)).withTreasury
    treasury).setStorageFund operatorId fund

/-- `do_slash_operator`: the operator is taken out while its nominators are
slashed, and comes back as it was or is cleaned up. -/
theorem PriceCoverage.doSlashOperator [Fintype A] {s s' : State A}
    (inv : PriceCoverage selfDeposits s) {maxNominatorCount count : ℕ} {order : List A}
    (slashed : doSlashOperator s maxNominatorCount order = .ok (s', count)) :
    PriceCoverage selfDeposits s' := by
  rcases doSlashOperator_eq_ok slashed with ⟨-, rfl⟩ | ⟨_, -, -, rfl⟩ |
    ⟨pendingSlashes, operatorId, rest, operator, sharePrice, acc, -, -, present, -, ran, rfl⟩
  · exact inv
  · exact inv.of_frame ((PriceFrame.refl s).keep rfl rfl rfl rfl)
  · have drained : PriceFrame s acc.state ∧ acc.state.operators operatorId = none := by
      refine slashNominators_invariant (fun acc => PriceFrame s acc.state ∧
          acc.state.operators operatorId = none)
        (fun _ _ _ _ _ step ⟨frame, absent⟩ => ?_)
        ⟨(PriceFrame.refl s).removeOperator operatorId, by simp⟩ ran
      obtain ⟨frame', sameOperators⟩ := frame.slashNominator step
      exact ⟨frame', sameOperators ▸ absent⟩
    split
    · exact inv.of_frame (drained.1.setOperator present rfl)
    · have cleaned := (inv.of_frame drained.1).doCleanupOperator drained.2 acc.totalStake
      exact cleaned.of_frame ((PriceFrame.refl _).keep rfl rfl rfl rfl)

variable [Fintype A] (cfg : StakingConfig A)

/-- Every step of the ledger keeps the share-price ledger. -/
theorem PriceCoverage.step {s s' : State A} (inv : PriceCoverage ∅ s) {a : Action A}
    (stepped : step cfg s a = some s') : PriceCoverage ∅ s' := by
  cases a with
  | registerOperator owner amount config =>
    simp only [Staking.step, Except.toOption_eq_some, Except.map_ok_iff] at stepped
    obtain ⟨⟨_, _, _⟩, registered, rfl⟩ := stepped
    exact inv.doRegisterOperator cfg registered
  | nominateOperator operatorId nominator amount =>
    simp only [Staking.step, Except.toOption_eq_some] at stepped
    exact inv.doNominateOperator cfg stepped
  | withdrawStake operatorId nominator toWithdraw =>
    simp only [Staking.step, Except.toOption_eq_some] at stepped
    exact inv.doWithdrawStake cfg stepped
  | unlockFunds operatorId nominator =>
    simp only [Staking.step, Except.toOption_eq_some, Except.map_ok_iff] at stepped
    obtain ⟨⟨_, _⟩, unlocked, rfl⟩ := stepped
    exact inv.of_frame (PriceFrame.doUnlockFunds unlocked)
  | unlockNominator operatorId nominator =>
    simp only [Staking.step, Except.toOption_eq_some] at stepped
    exact inv.doUnlockNominator stepped
  | deregisterOperator owner operatorId =>
    simp only [Staking.step, Except.toOption_eq_some] at stepped
    exact inv.doDeregisterOperator cfg stepped
  | deactivateOperator operatorId =>
    simp only [Staking.step, Except.toOption_eq_some] at stepped
    exact inv.doDeactivateOperator cfg stepped
  | reactivateOperator operatorId =>
    simp only [Staking.step, Except.toOption_eq_some] at stepped
    exact inv.doReactivateOperator stepped
  | rewardOperators operators rewards =>
    simp only [Staking.step, Except.toOption_eq_some] at stepped
    exact inv.of_frame (PriceFrame.doRewardOperators stepped)
  | markOperatorsAsSlashed operators =>
    simp only [Staking.step, Except.toOption_eq_some] at stepped
    exact inv.doMarkOperatorsAsSlashed stepped
  | markInvalidBundleAuthors authors erHash =>
    simp only [Staking.step, Except.toOption_eq_some] at stepped
    exact inv.doMarkInvalidBundleAuthors stepped
  | unmarkInvalidBundleAuthors authors erHash =>
    simp only [Staking.step, Option.some.injEq] at stepped
    exact stepped ▸ inv.doUnmarkInvalidBundleAuthors authors erHash
  | finalizeDomainCurrentEpoch =>
    simp only [Staking.step, Except.toOption_eq_some, Except.map_ok_iff] at stepped
    obtain ⟨⟨_, _⟩, transitioned, rfl⟩ := stepped
    exact inv.doFinalizeDomainCurrentEpoch transitioned
  | slashOperator maxNominatorCount order =>
    simp only [Staking.step] at stepped
    split at stepped
    · simp only [Except.toOption_eq_some, Except.map_ok_iff] at stepped
      obtain ⟨⟨_, _⟩, slashed, rfl⟩ := stepped
      exact inv.doSlashOperator slashed
    · cases stepped
  | markPendingToSlash operatorId =>
    cases stepped
    exact inv.markPendingToSlash operatorId
  -- the rest of the chain writes nothing the ledger reads
  | advanceHead blocks =>
    cases stepped
    exact inv.of_frame ((PriceFrame.refl s).keep rfl rfl rfl rfl)
  | addDomainChainRewards amount =>
    cases stepped
    exact inv.of_frame ((PriceFrame.refl s).keep rfl rfl rfl rfl)
  | chargeBundleStorageFee operatorId amount =>
    simp only [Staking.step] at stepped
    split at stepped
    · cases stepped
      exact inv.of_frame ((PriceFrame.refl s).setStorageFund _ _)
    · cases stepped
  | refundStorageFee operatorId amount =>
    simp only [Staking.step] at stepped
    split at stepped
    · cases stepped
      exact inv.of_frame ((PriceFrame.refl s).setStorageFund _ _)
    · cases stepped

theorem Reachable.priceCoverage {s : State A} (reachable : Reachable cfg s) :
    PriceCoverage ∅ s := by
  induction reachable with
  | init => exact PriceCoverage.empty
  | step a _ stepped inv => exact inv.step cfg stepped

/-- Every ended epoch a tracked operator's nominator waits on has its share
price, so none of the four calls that convert a nominator's records fails for
a missing one. -/
theorem epoch_share_prices_available {s : State A} (reachable : Reachable cfg s) :
    (∀ operatorId operator nominator, s.operators operatorId = some operator →
      operator.status s operatorId ≠ .slashed → operator.status s operatorId ≠ .pendingSlash →
      (∀ deposit pending, s.deposits operatorId nominator = some deposit →
        pending ∈ deposit.pending → pending.effectiveDomainEpoch < s.summary.currentEpochIndex →
        (s.operatorEpochSharePrice operatorId pending.effectiveDomainEpoch).isSome) ∧
      (∀ withdrawal inShares, s.withdrawals operatorId nominator = some withdrawal →
        inShares ∈ withdrawal.withdrawalInShares →
        inShares.domainEpoch < s.summary.currentEpochIndex →
        (s.operatorEpochSharePrice operatorId inShares.domainEpoch).isSome)) ∧
    (∀ operatorId nominator amount, doNominateOperator cfg s operatorId nominator amount ≠
      .error .missingOperatorEpochSharePrice) ∧
    (∀ operatorId nominator toWithdraw, doWithdrawStake cfg s operatorId nominator toWithdraw ≠
      .error .missingOperatorEpochSharePrice) ∧
    (∀ operatorId nominator,
      doUnlockFunds s operatorId nominator ≠ .error .missingOperatorEpochSharePrice) ∧
    (∀ operatorId nominator,
      doUnlockNominator s operatorId nominator ≠ .error .missingOperatorEpochSharePrice) := by
  have inv := reachable.priceCoverage cfg
  refine ⟨?available, ?nominate, ?withdraw, ?unlockFunds, ?unlockNominator⟩
  case available =>
    intro operatorId operator nominator present notSlashed notPending
    have tracked : operator.Tracked s operatorId := ⟨notSlashed, notPending⟩
    exact ⟨fun _ _ stored isPending ended => inv.deposit_priced present tracked stored isPending ended,
      fun _ _ stored isInShares ended => inv.withdrawal_priced present tracked stored isInShares ended⟩
  case nominate =>
    intro operatorId nominator amount failed
    obtain ⟨operator, present, registered, pending, isPending, ended, missing⟩ :=
      doNominateOperator_missing cfg failed
    have tracked := Operator.tracked_of_status_eq registered nofun nofun
    -- a nominator without a deposit converts the empty one, which has nothing pending
    cases stored : s.deposits operatorId nominator with
    | none => simp [stored, Deposit.default] at isPending
    | some deposit =>
      rw [stored, Option.getD_some] at isPending
      exact inv.records_priced present tracked (.inl ⟨deposit, stored, pending, isPending, ended,
        missing⟩)
  case withdraw =>
    intro operatorId nominator toWithdraw failed
    obtain ⟨operator, present, active, missing⟩ := doWithdrawStake_missing cfg failed
    exact inv.records_priced present (Operator.tracked_of_isRegisteredOrDeactivated active) missing
  case unlockFunds =>
    intro operatorId nominator failed
    obtain ⟨operator, present, active, missing⟩ := doUnlockFunds_missing failed
    exact inv.records_priced present (Operator.tracked_of_isRegisteredOrDeactivated active)
      (.inr missing)
  case unlockNominator =>
    intro operatorId nominator failed
    obtain ⟨operator, info, present, deregistered, missing⟩ := doUnlockNominator_missing failed
    exact inv.records_priced present (Operator.tracked_of_status_eq deregistered nofun nofun)
      missing

end Ledger

/-- After `nominateAndWithdraw` the owner's deposit waits on the price of epoch
`0` and the nominator's withdrawal in shares on the price of the epoch it was
made in, both ended: those prices are there. -/
theorem epoch_share_prices_available_after_withdrawals :
    ∃ s, Reachable sampleConfig s ∧
    ((s.deposits 0 false).bind (·.pending)).any
      (·.effectiveDomainEpoch < s.summary.currentEpochIndex) = true ∧
    ((s.withdrawals 0 true).bind (·.withdrawalInShares)).any
      (·.domainEpoch < s.summary.currentEpochIndex) = true ∧
    (∀ operatorId operator nominator, s.operators operatorId = some operator →
      operator.status s operatorId ≠ .slashed → operator.status s operatorId ≠ .pendingSlash →
      (∀ deposit pending, s.deposits operatorId nominator = some deposit →
        pending ∈ deposit.pending → pending.effectiveDomainEpoch < s.summary.currentEpochIndex →
        (s.operatorEpochSharePrice operatorId pending.effectiveDomainEpoch).isSome) ∧
      (∀ withdrawal inShares, s.withdrawals operatorId nominator = some withdrawal →
        inShares ∈ withdrawal.withdrawalInShares →
        inShares.domainEpoch < s.summary.currentEpochIndex →
        (s.operatorEpochSharePrice operatorId inShares.domainEpoch).isSome)) ∧
    (∀ operatorId nominator amount, doNominateOperator sampleConfig s operatorId nominator amount ≠
      .error .missingOperatorEpochSharePrice) ∧
    (∀ operatorId nominator toWithdraw,
      doWithdrawStake sampleConfig s operatorId nominator toWithdraw ≠
        .error .missingOperatorEpochSharePrice) ∧
    (∀ operatorId nominator,
      doUnlockFunds s operatorId nominator ≠ .error .missingOperatorEpochSharePrice) ∧
    (∀ operatorId nominator,
      doUnlockNominator s operatorId nominator ≠ .error .missingOperatorEpochSharePrice) := by
  obtain ⟨s, reachable, deposited, withdrawn⟩ := exists_reachable_of_run sampleConfig
    nominateAndWithdraw
    (P := fun s => ((s.deposits 0 false).bind (·.pending)).any
        (·.effectiveDomainEpoch < s.summary.currentEpochIndex) = true ∧
      ((s.withdrawals 0 true).bind (·.withdrawalInShares)).any
        (·.domainEpoch < s.summary.currentEpochIndex) = true) (by decide)
  exact ⟨s, reachable, deposited, withdrawn, epoch_share_prices_available sampleConfig reachable⟩

end Subspace.Staking
