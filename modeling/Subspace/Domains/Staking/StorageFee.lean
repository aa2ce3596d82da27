import Subspace.Domains.Staking.Ledger
import Subspace.Domains.Staking.EpochSpec
import Subspace.Domains.Staking.Failures
import Mathlib.Algebra.Order.BigOperators.Group.Finset

/-!
# The storage fee ledger

Every deposit puts a fifth of its amount into the operator's storage fund
and notes it twice: in the nominator's deposit (`storage_fee_deposit` of the
known and the pending part) and in the operator's
`total_storage_fee_deposit`. A withdrawal takes the fee of the shares it
withdraws out of both, an unlock takes the nominator's whole fee out of
both, and the conversion of a pending deposit moves its fee from the pending
to the known part. So for every operator that is not slashed the total is
the sum of its nominators' fees (`StorageFeeInvariant.balanced`); slashing
takes only the pending fees off the total, which then covers the fees left
(`covered`).

The invariant needs three facts besides: an operator id not yet issued has
no operator and no deposits (`fresh`), a deposit without shares and nothing
pending has no fee (`emptyFeeFree`, so `do_unlock_funds` drops no fee when it
removes such a deposit), and an operator pending slash is present and
slashed (`slashing`).
-/

namespace Subspace.Staking


section Fees

variable {A : Type}

/-- The storage fee a deposit, if there is one, paid into the fund. -/
def depositFee : Option Deposit → ℕ
  | some deposit => deposit.totalStorageFeeDeposit
  | none => 0

@[simp] theorem depositFee_none : depositFee none = 0 := rfl

@[simp] theorem depositFee_some (deposit : Deposit) :
    depositFee (some deposit) = deposit.totalStorageFeeDeposit := rfl

@[simp] theorem depositFee_getD (deposit : Option Deposit) :
    (deposit.getD .default).totalStorageFeeDeposit = depositFee deposit := by
  cases deposit <;> rfl

/-- A deposit with no shares and nothing pending has paid no fee. -/
def Deposit.EmptyFeeFree (deposit : Deposit) : Prop :=
  deposit.known.shares = 0 → deposit.pending = none → deposit.known.storageFeeDeposit = 0

/-- What the invariant reads of an operator. -/
def Operator.feeView (operator : Operator) : Bool × ℕ :=
  (decide (operator.partialStatus = .slashed), operator.totalStorageFeeDeposit)

/-- `s'` keeps what the storage fee invariant reads of `s`: the deposits, the
operator ids, which operators are slashed and their totals; and it has no
new pending slashes. -/
structure FeeFrame (s s' : State A) : Prop where
  next : s'.nextOperatorId = s.nextOperatorId
  deposits : s'.deposits = s.deposits
  pendingSlashes : s'.pendingSlashes.getD ∅ ⊆ s.pendingSlashes.getD ∅
  operators : ∀ operatorId,
    (s'.operators operatorId).map Operator.feeView = (s.operators operatorId).map Operator.feeView

namespace FeeFrame

theorem refl (s : State A) : FeeFrame s s := ⟨rfl, rfl, subset_rfl, fun _ => rfl⟩

theorem trans {s₁ s₂ s₃ : State A} (first : FeeFrame s₁ s₂) (second : FeeFrame s₂ s₃) :
    FeeFrame s₁ s₃ :=
  ⟨second.next.trans first.next, second.deposits.trans first.deposits,
    second.pendingSlashes.trans first.pendingSlashes,
    fun operatorId => (second.operators operatorId).trans (first.operators operatorId)⟩

theorem exists_of_some {s s' : State A} (frame : FeeFrame s s') {operatorId : ℕ}
    {operator' : Operator} (present : s'.operators operatorId = some operator') :
    ∃ operator, s.operators operatorId = some operator ∧ operator.feeView = operator'.feeView := by
  have same := frame.operators operatorId
  rw [present, Option.map_some] at same
  obtain ⟨operator, present, view⟩ := Option.map_eq_some_iff.mp same.symm
  exact ⟨operator, present, view⟩

theorem exists_of_some' {s s' : State A} (frame : FeeFrame s s') {operatorId : ℕ}
    {operator : Operator} (present : s.operators operatorId = some operator) :
    ∃ operator', s'.operators operatorId = some operator' ∧
      operator.feeView = operator'.feeView := by
  have same := frame.operators operatorId
  rw [present, Option.map_some] at same
  obtain ⟨operator', present', view⟩ := Option.map_eq_some_iff.mp same
  exact ⟨operator', present', view.symm⟩

theorem eq_none {s s' : State A} (frame : FeeFrame s s') {operatorId : ℕ}
    (absent : s.operators operatorId = none) : s'.operators operatorId = none := by
  have same := frame.operators operatorId
  rw [absent, Option.map_none] at same
  exact Option.map_eq_none_iff.mp same

/-- Rewriting an operator with the same view. -/
theorem setOperator [DecidableEq A] {s : State A} {operatorId : ℕ} {operator operator' : Operator}
    (present : s.operators operatorId = some operator)
    (view : operator'.feeView = operator.feeView) :
    FeeFrame s (s.setOperator operatorId (some operator')) := by
  refine ⟨rfl, rfl, subset_rfl, fun other => ?_⟩
  by_cases same : other = operatorId
  · subst same
    simp [present, view]
  · simp [same]

/-- A new status other than `Slashed` for an operator that is not slashed
keeps what the invariant reads. -/
theorem setStatus [DecidableEq A] {s s' : State A} {operatorId : ℕ} {operator : Operator}
    {status : OperatorStatus} (present : s.operators operatorId = some operator)
    (notSlashed : operator.partialStatus ≠ .slashed) (newNotSlashed : status ≠ .slashed)
    (others : FeeFrame s s') :
    FeeFrame s (s'.setOperator operatorId (some { operator with partialStatus := status })) := by
  obtain ⟨operator', present', view⟩ := others.exists_of_some' present
  refine others.trans (setOperator present' ?_)
  rw [← view]
  simp [Operator.feeView, notSlashed, newNotSlashed]

end FeeFrame

end Fees

section Ledger

variable {A : Type} [Fintype A]

/-- The storage fee all nominators of an operator paid in by their deposits. -/
def depositedStorageFee (s : State A) (operatorId : ℕ) : ℕ :=
  ∑ nominator, depositFee (s.deposits operatorId nominator)

theorem depositFee_le_depositedStorageFee (s : State A) (operatorId : ℕ) (nominator : A) :
    depositFee (s.deposits operatorId nominator) ≤ depositedStorageFee s operatorId :=
  Finset.single_le_sum (fun n _ => Nat.zero_le (depositFee (s.deposits operatorId n)))
    (Finset.mem_univ nominator)

/-- The storage fee ledger of the staking state. -/
structure StorageFeeInvariant (s : State A) : Prop where
  fresh : ∀ operatorId, s.nextOperatorId ≤ operatorId →
    s.operators operatorId = none ∧ ∀ nominator, s.deposits operatorId nominator = none
  emptyFeeFree : ∀ operatorId nominator deposit,
    s.deposits operatorId nominator = some deposit → deposit.EmptyFeeFree
  slashing : ∀ operatorId ∈ s.pendingSlashes.getD ∅,
    ∃ operator, s.operators operatorId = some operator ∧ operator.partialStatus = .slashed
  covered : ∀ operatorId operator, s.operators operatorId = some operator →
    depositedStorageFee s operatorId ≤ operator.totalStorageFeeDeposit
  balanced : ∀ operatorId operator, s.operators operatorId = some operator →
    operator.partialStatus ≠ .slashed →
    operator.totalStorageFeeDeposit = depositedStorageFee s operatorId

theorem StorageFeeInvariant.empty : StorageFeeInvariant (State.empty : State A) where
  fresh _ _ := ⟨rfl, fun _ => rfl⟩
  emptyFeeFree _ _ _ stored := by cases stored
  slashing _ member := by simp [State.empty] at member
  covered _ _ present := by cases present
  balanced _ _ present := by cases present

/-- An issued operator id is below `nextOperatorId`. -/
theorem StorageFeeInvariant.lt_next {s : State A} (inv : StorageFeeInvariant s)
    {operatorId : ℕ} {operator : Operator} (present : s.operators operatorId = some operator) :
    operatorId < s.nextOperatorId := by
  by_contra notIssued
  rw [(inv.fresh operatorId (by omega)).1] at present
  cases present

theorem StorageFeeInvariant.of_frame {s s' : State A} (inv : StorageFeeInvariant s)
    (frame : FeeFrame s s') : StorageFeeInvariant s' where
  fresh operatorId notIssued := by
    rw [frame.next] at notIssued
    obtain ⟨absent, noDeposits⟩ := inv.fresh operatorId notIssued
    exact ⟨frame.eq_none absent, by rw [frame.deposits]; exact noDeposits⟩
  emptyFeeFree operatorId nominator deposit stored := by
    rw [frame.deposits] at stored
    exact inv.emptyFeeFree operatorId nominator deposit stored
  slashing operatorId member := by
    obtain ⟨operator, present, slashed⟩ := inv.slashing operatorId (frame.pendingSlashes member)
    obtain ⟨operator', present', view⟩ := frame.exists_of_some' present
    refine ⟨operator', present', ?_⟩
    simpa [Operator.feeView, slashed] using (congrArg Prod.fst view).symm
  covered operatorId operator' present' := by
    obtain ⟨operator, present, view⟩ := frame.exists_of_some present'
    have total : operator.totalStorageFeeDeposit = operator'.totalStorageFeeDeposit :=
      congrArg Prod.snd view
    simp only [depositedStorageFee, frame.deposits]
    exact total ▸ inv.covered operatorId operator present
  balanced operatorId operator' present' notSlashed := by
    obtain ⟨operator, present, view⟩ := frame.exists_of_some present'
    have total : operator.totalStorageFeeDeposit = operator'.totalStorageFeeDeposit :=
      congrArg Prod.snd view
    have status : decide (operator.partialStatus = .slashed) =
        decide (operator'.partialStatus = .slashed) := congrArg Prod.fst view
    simp only [depositedStorageFee, frame.deposits]
    rw [← total]
    exact inv.balanced operatorId operator present (by simpa [notSlashed] using status)

end Ledger

variable {A : Type} [DecidableEq A] [Fintype A]

/-- Writing one nominator's deposit changes the operator's sum by the
difference of the two fees. -/
theorem depositedStorageFee_update (deposits : A → Option Deposit) (nominator : A)
    (deposit : Option Deposit) :
    ∑ n, depositFee (Function.update deposits nominator deposit n) + depositFee (deposits nominator) =
      ∑ n, depositFee (deposits n) + depositFee deposit := by
  have pointwise : ∀ n, depositFee (Function.update deposits nominator deposit n) =
      Function.update (fun n => depositFee (deposits n)) nominator (depositFee deposit) n :=
    Function.apply_update (fun _ => depositFee) deposits nominator deposit
  simp only [pointwise]
  exact Finset.sum_update_add Finset.univ (Finset.mem_univ nominator) _ _

/-- The general step of the ledger: one operator, not slashed, is rewritten
or removed, and one of its nominators' deposits is rewritten or removed, with
the operator's total and the deposit's fee moving by the same amount;
nothing else the invariant reads changes. -/
theorem StorageFeeInvariant.of_change {s s' : State A} (inv : StorageFeeInvariant s)
    {operatorId : ℕ} (nominator : A) {operator : Operator}
    (present : s.operators operatorId = some operator) (notSlashed : operator.partialStatus ≠ .slashed)
    (operators : ∀ other, other ≠ operatorId → s'.operators other = s.operators other)
    (deposits : ∀ other n, (other, n) ≠ (operatorId, nominator) →
      s'.deposits other n = s.deposits other n)
    (next : s'.nextOperatorId = s.nextOperatorId)
    (slashes : s'.pendingSlashes = s.pendingSlashes)
    (kept : ∀ written, s'.operators operatorId = some written →
      written.partialStatus = operator.partialStatus ∧
      written.totalStorageFeeDeposit + depositFee (s.deposits operatorId nominator) =
        operator.totalStorageFeeDeposit + depositFee (s'.deposits operatorId nominator))
    (emptyFeeFree : ∀ deposit, s'.deposits operatorId nominator = some deposit →
      deposit.EmptyFeeFree) : StorageFeeInvariant s' := by
  have issued := inv.lt_next present
  have rewritten : s'.deposits operatorId = Function.update (s.deposits operatorId) nominator
      (s'.deposits operatorId nominator) := by
    funext n
    by_cases same : n = nominator
    · subst same
      simp
    · simp [same, deposits operatorId n (by simp [same])]
  -- the operator's sum moves with its deposit; every other sum stays
  have moved : depositedStorageFee s' operatorId + depositFee (s.deposits operatorId nominator) =
      depositedStorageFee s operatorId + depositFee (s'.deposits operatorId nominator) := by
    unfold depositedStorageFee
    rw [rewritten, Function.update_self]
    exact depositedStorageFee_update (s.deposits operatorId) nominator
      (s'.deposits operatorId nominator)
  have others : ∀ other, other ≠ operatorId →
      depositedStorageFee s' other = depositedStorageFee s other := by
    intro other ne
    unfold depositedStorageFee
    exact Finset.sum_congr rfl fun n _ => by rw [deposits other n (by simp [ne])]
  have before := inv.balanced operatorId operator present notSlashed
  refine ⟨fun other notIssued => ?_, fun other n deposit stored => ?_, fun other member => ?_,
    fun other written present' => ?_, fun other written present' notSlashed' => ?_⟩
  · have ne : other ≠ operatorId := by rintro rfl; omega
    rw [next] at notIssued
    obtain ⟨absent, noDeposits⟩ := inv.fresh other notIssued
    exact ⟨(operators other ne).trans absent,
      fun n => (deposits other n (by simp [ne])).trans (noDeposits n)⟩
  · by_cases same : (other, n) = (operatorId, nominator)
    · simp only [Prod.mk.injEq] at same
      obtain ⟨rfl, rfl⟩ := same
      exact emptyFeeFree deposit stored
    · rw [deposits other n same] at stored
      exact inv.emptyFeeFree other n deposit stored
  · rw [slashes] at member
    obtain ⟨slashedOperator, slashedPresent, slashed⟩ := inv.slashing other member
    have ne : other ≠ operatorId := by
      rintro rfl
      rw [present, Option.some.injEq] at slashedPresent
      exact notSlashed (slashedPresent ▸ slashed)
    exact ⟨slashedOperator, (operators other ne).trans slashedPresent, slashed⟩
  · by_cases same : other = operatorId
    · subst same
      have fee := (kept written present').2
      omega
    · rw [operators other same] at present'
      rw [others other same]
      exact inv.covered other written present'
  · by_cases same : other = operatorId
    · subst same
      have fee := (kept written present').2
      omega
    · rw [operators other same] at present'
      rw [others other same]
      exact inv.balanced other written present' notSlashed'

/-- `do_register_operator`: a new operator at the next id, with its owner's
deposit paying exactly its total. -/
theorem StorageFeeInvariant.of_register {s s' : State A} (inv : StorageFeeInvariant s)
    (owner : A)
    (operators : ∀ other, other ≠ s.nextOperatorId → s'.operators other = s.operators other)
    (deposits : ∀ other n, (other, n) ≠ (s.nextOperatorId, owner) →
      s'.deposits other n = s.deposits other n)
    (next : s'.nextOperatorId = s.nextOperatorId + 1)
    (slashes : s'.pendingSlashes = s.pendingSlashes)
    (paid : ∀ written, s'.operators s.nextOperatorId = some written →
      written.totalStorageFeeDeposit = depositFee (s'.deposits s.nextOperatorId owner))
    (emptyFeeFree : ∀ deposit, s'.deposits s.nextOperatorId owner = some deposit →
      deposit.EmptyFeeFree) : StorageFeeInvariant s' := by
  obtain ⟨absent, noDeposits⟩ := inv.fresh s.nextOperatorId le_rfl
  have single : depositedStorageFee s' s.nextOperatorId =
      depositFee (s'.deposits s.nextOperatorId owner) := by
    unfold depositedStorageFee
    refine Finset.sum_eq_single owner (fun n _ ne => ?_) (fun outside => absurd
      (Finset.mem_univ owner) outside)
    rw [deposits _ n (by simp [ne]), noDeposits n, depositFee_none]
  have others : ∀ other, other ≠ s.nextOperatorId →
      depositedStorageFee s' other = depositedStorageFee s other := by
    intro other ne
    unfold depositedStorageFee
    exact Finset.sum_congr rfl fun n _ => by rw [deposits other n (by simp [ne])]
  refine ⟨fun other notIssued => ?_, fun other n deposit stored => ?_, fun other member => ?_,
    fun other written present' => ?_, fun other written present' notSlashed' => ?_⟩
  · have ne : other ≠ s.nextOperatorId := by omega
    obtain ⟨absent', noDeposits'⟩ := inv.fresh other (by omega)
    exact ⟨(operators other ne).trans absent',
      fun n => (deposits other n (by simp [ne])).trans (noDeposits' n)⟩
  · by_cases same : (other, n) = (s.nextOperatorId, owner)
    · simp only [Prod.mk.injEq] at same
      obtain ⟨rfl, rfl⟩ := same
      exact emptyFeeFree deposit stored
    · rw [deposits other n same] at stored
      exact inv.emptyFeeFree other n deposit stored
  · rw [slashes] at member
    obtain ⟨slashedOperator, slashedPresent, slashed⟩ := inv.slashing other member
    have ne : other ≠ s.nextOperatorId := by
      rintro rfl
      rw [absent] at slashedPresent
      cases slashedPresent
    exact ⟨slashedOperator, (operators other ne).trans slashedPresent, slashed⟩
  · by_cases same : other = s.nextOperatorId
    · subst same
      rw [single, paid written present']
    · rw [operators other same] at present'
      rw [others other same]
      exact inv.covered other written present'
  · by_cases same : other = s.nextOperatorId
    · subst same
      rw [single, paid written present']
    · rw [operators other same] at present'
      rw [others other same]
      exact inv.balanced other written present' notSlashed'

omit [Fintype A] in
/-- A new deposit adds its fee to the nominator's, and leaves it pending. -/
theorem doCalculatePreviousEpochDepositSharesAndAddNewDeposit_storageFee {s s' : State A}
    {operatorId : ℕ} {nominator : A} {epoch : ℕ} {newDeposit : NewDeposit}
    {requiredMinimumNominatorStake : Option ℕ}
    (added : doCalculatePreviousEpochDepositSharesAndAddNewDeposit s operatorId nominator epoch
      newDeposit requiredMinimumNominatorStake = .ok s') :
    ∃ deposit, s' = s.setDeposit operatorId nominator (some deposit) ∧
      deposit.totalStorageFeeDeposit =
        depositFee (s.deposits operatorId nominator) + newDeposit.storageFeeDeposit ∧
      deposit.EmptyFeeFree := by
  obtain ⟨deposit, converted, -, rfl⟩ :=
    doCalculatePreviousEpochDepositSharesAndAddNewDeposit_eq_ok added
  have kept := doConvertPreviousEpochDeposits_totalStorageFeeDeposit converted
  rw [depositFee_getD] at kept
  refine ⟨_, rfl, ?_, fun _ pending => by cases pending⟩
  rw [← kept]
  cases hp : deposit.pending <;>
  · simp only [Deposit.totalStorageFeeDeposit, addPendingDeposit, hp, Option.map_some,
      Option.getD_some, Option.map_none, Option.getD_none]
    omega

section Steps

variable (cfg : StakingConfig A)

theorem StorageFeeInvariant.doRegisterOperator {s s' : State A} (inv : StorageFeeInvariant s)
    {operatorOwner : A} {amount : ℕ} {config : OperatorConfig} {operatorId epoch : ℕ}
    (registered : doRegisterOperator cfg s operatorOwner amount config =
      .ok (s', operatorId, epoch)) : StorageFeeInvariant s' := by
  obtain ⟨-, -, -, -, -, -, -, calculated⟩ := doRegisterOperator_eq_ok cfg registered
  obtain ⟨deposit, rfl, fee, emptyFeeFree⟩ :=
    doCalculatePreviousEpochDepositSharesAndAddNewDeposit_storageFee calculated
  obtain ⟨-, noDeposits⟩ := inv.fresh s.nextOperatorId le_rfl
  refine inv.of_register operatorOwner (fun other ne => ?_) (fun other n ne => ?_) rfl rfl
    (fun written present => ?_) (fun deposit stored => ?_)
  · simp [holdDeposit, ne]
  · simp only [ne_eq, Prod.mk.injEq, not_and] at ne
    by_cases same : other = s.nextOperatorId
    · simp [holdDeposit, same, ne same]
    · simp [holdDeposit, same]
  · simp [holdDeposit] at present
    subst present
    simp only [holdDeposit, State.setDepositOnHold, State.setStorageFund, State.setOperator,
      State.setSharePrice, noDeposits, depositFee_none, zero_add] at fee
    simp [fee, Operator.ofConfig]
  · simp only [State.setDeposit, Function.update_self, Option.some.injEq] at stored
    exact stored ▸ emptyFeeFree

theorem StorageFeeInvariant.doNominateOperator {s s' : State A} (inv : StorageFeeInvariant s)
    {operatorId : ℕ} {nominator : A} {amount : ℕ}
    (nominated : doNominateOperator cfg s operatorId nominator amount = .ok s') :
    StorageFeeInvariant s' := by
  obtain ⟨operator, count, added, present, -, registered, -, calculated, rfl⟩ :=
    doNominateOperator_eq_ok cfg nominated
  obtain ⟨deposit, rfl, fee, emptyFeeFree⟩ :=
    doCalculatePreviousEpochDepositSharesAndAddNewDeposit_storageFee calculated
  have notSlashed : operator.partialStatus ≠ .slashed := fun slashed => by
    rw [Operator.status_eq_slashed.mpr slashed] at registered
    cases registered
  refine inv.of_change nominator present notSlashed (fun other ne => ?_) (fun other n ne => ?_)
    rfl rfl (fun written present' => ?_) (fun stored hasDeposit => ?_)
  · simp [holdDeposit, ne]
  · simp [holdDeposit, Function.update_update_apply_of_ne _ _ ne]
  · simp only [State.setOperator, Function.update_self, Option.some.injEq] at present'
    subst present'
    refine ⟨rfl, ?_⟩
    simp only [holdDeposit, State.setDepositOnHold, State.setStorageFund] at fee
    simp only [State.setOperator, State.setDeposit, Function.update_self, depositFee_some, fee]
    omega
  · simp only [State.setOperator, State.setDeposit, Function.update_self,
      Option.some.injEq] at hasDeposit
    exact hasDeposit ▸ emptyFeeFree

theorem StorageFeeInvariant.doWithdrawStake {s s' : State A} (inv : StorageFeeInvariant s)
    {operatorId : ℕ} {nominator : A} {toWithdraw : ℕ}
    (withdrawn : doWithdrawStake cfg s operatorId nominator toWithdraw = .ok s') :
    StorageFeeInvariant s' := by
  obtain ⟨operator, count, stored, deposit, withdrawal, owner, remainingShares, sharesWithdrew,
    -, present, active, -, hasDeposit, converted, -, -, split, -, knownWithin, totalWithin, -,
    rfl⟩ := doWithdrawStake_eq_ok cfg withdrawn
  have notSlashed := Operator.partialStatus_ne_slashed_of_isRegisteredOrDeactivated active
  have kept := doConvertPreviousEpochDeposits_totalStorageFeeDeposit converted
  refine inv.of_change nominator present notSlashed (fun other ne => ?_) (fun other n ne => ?_)
    rfl rfl (fun written present' => ?_) (fun left hasDeposit' => ?_)
  · simp [ne]
  · simp [Function.update_update_apply_of_ne _ _ ne]
  · simp only [State.setOperator, Function.update_self, Option.some.injEq] at present'
    subst present'
    refine ⟨rfl, ?_⟩
    simp only [State.setOperator, State.setWithdrawal, State.setDeposit, Function.update_self,
      depositFee_some, hasDeposit]
    unfold Deposit.totalStorageFeeDeposit at kept ⊢
    dsimp only
    omega
  · simp only [State.setOperator, State.setWithdrawal, State.setDeposit, Function.update_self,
      Option.some.injEq] at hasDeposit'
    subst hasDeposit'
    -- a withdrawal that leaves no shares takes the whole known fee
    intro noShares _
    simp only at noShares
    subst noShares
    rw [sharesToWithdraw_zero cfg split, storageFeeOfShares_self, Nat.sub_self]

theorem StorageFeeInvariant.doUnlockFunds {s s' : State A} (inv : StorageFeeInvariant s)
    {operatorId : ℕ} {nominator : A} {count : ℕ}
    (unlocked : doUnlockFunds s operatorId nominator = .ok (s', count)) :
    StorageFeeInvariant s' := by
  obtain ⟨operator, stored, withdrawal, s₁, present, active, -, -, -, -, -, -, -, rfl, rfl⟩ :=
    doUnlockFunds_eq_ok unlocked
  have notSlashed := Operator.partialStatus_ne_slashed_of_isRegisteredOrDeactivated active
  split
  · -- the records go, and the deposit with them when it is empty, which has no fee
    rcases State.removeEmptyDeposit_eq
      ((s.setDepositOnHold operatorId nominator _).setWithdrawal operatorId nominator none)
      operatorId nominator with same | ⟨deposit, hasDeposit, noShares, noPending, removed⟩
    · rw [same]
      exact inv.of_frame ⟨rfl, rfl, subset_rfl, fun _ => rfl⟩
    · rw [removed]
      simp only [State.setWithdrawal, State.setDepositOnHold] at hasDeposit
      have noFee := inv.emptyFeeFree operatorId nominator deposit hasDeposit noShares noPending
      refine inv.of_change nominator present notSlashed (fun _ _ => rfl) (fun other n ne => ?_)
        rfl rfl (fun written present' => ?_) (fun left gone => ?_)
      · simp [Function.update_update_apply_of_ne _ _ ne]
      · simp only [State.setDeposit, State.setWithdrawal, State.setDepositOnHold, present,
          Option.some.injEq] at present'
        subst present'
        simp [hasDeposit, Deposit.totalStorageFeeDeposit, noPending, noFee]
      · simp at gone
  · exact inv.of_frame ⟨rfl, rfl, subset_rfl, fun _ => rfl⟩

theorem StorageFeeInvariant.doUnlockNominator {s s' : State A} (inv : StorageFeeInvariant s)
    {operatorId : ℕ} {nominator : A}
    (unlocked : doUnlockNominator s operatorId nominator = .ok s') : StorageFeeInvariant s' := by
  obtain ⟨operator, info, sharePrice, stored, deposit, withdrawn, s₂, present, status, -, -,
    hasDeposit, converted, -, -, -, -, rfl, rfl⟩ := doUnlockNominator_eq_ok unlocked
  have notSlashed : operator.partialStatus ≠ .slashed := fun slashed => by
    rw [Operator.status_eq_slashed.mpr slashed] at status
    cases status
  have kept := doConvertPreviousEpochDeposits_totalStorageFeeDeposit converted
  -- the nominator's fee is part of the operator's total
  have within : stored.totalStorageFeeDeposit ≤ operator.totalStorageFeeDeposit := by
    have single := depositFee_le_depositedStorageFee s operatorId nominator
    rw [hasDeposit, depositFee_some] at single
    exact single.trans (inv.covered operatorId operator present)
  split
  · refine inv.of_change nominator present notSlashed (fun other ne => ?_) (fun other n ne => ?_)
      rfl rfl (fun written present' => ?_) (fun left gone => ?_)
    · simp [ne]
    · simp [Function.update_update_apply_of_ne _ _ ne]
    · simp only [State.setOperator, Function.update_self, Option.some.injEq] at present'
      subst present'
      refine ⟨rfl, ?_⟩
      simp only [State.setOperator, State.setDepositOnHold, State.setWithdrawal,
        State.setDeposit, State.setStorageFund, Function.update_self, depositFee_none,
        hasDeposit, depositFee_some, kept]
      omega
    · simp at gone
  · refine inv.of_change nominator present notSlashed (fun other ne => ?_) (fun other n ne => ?_)
      rfl rfl (fun written present' => ?_) (fun left gone => ?_)
    · simp [doCleanupOperator, ne]
    · simp [doCleanupOperator, Function.update_update_apply_of_ne _ _ ne]
    · simp [doCleanupOperator] at present'
    · simp [doCleanupOperator] at gone

theorem StorageFeeInvariant.doDeregisterOperator {s s' : State A} (inv : StorageFeeInvariant s)
    {operatorOwner : A} {operatorId : ℕ}
    (deregistered : doDeregisterOperator cfg s operatorOwner operatorId = .ok s') :
    StorageFeeInvariant s' := by
  obtain ⟨operator, -, present, active, rfl⟩ := doDeregisterOperator_eq_ok cfg deregistered
  exact inv.of_frame (FeeFrame.setStatus present
    (Operator.partialStatus_ne_slashed_of_isRegisteredOrDeactivated active) (by simp)
    ⟨rfl, rfl, subset_rfl, fun _ => rfl⟩)

theorem StorageFeeInvariant.doDeactivateOperator {s s' : State A} (inv : StorageFeeInvariant s)
    {operatorId : ℕ} (deactivated : doDeactivateOperator cfg s operatorId = .ok s') :
    StorageFeeInvariant s' := by
  obtain ⟨operator, summary, present, registered, -, rfl⟩ :=
    doDeactivateOperator_eq_ok cfg deactivated
  have notSlashed : operator.partialStatus ≠ .slashed := fun slashed => by
    rw [Operator.status_eq_slashed.mpr slashed] at registered
    cases registered
  exact inv.of_frame (FeeFrame.setStatus present notSlashed (by simp)
    ⟨rfl, rfl, subset_rfl, fun _ => rfl⟩)

end Steps

omit [Fintype A] in
theorem FeeFrame.doReactivateOperator {s s' : State A} {operatorId : ℕ}
    (reactivated : doReactivateOperator s operatorId = .ok s') : FeeFrame s s' := by
  obtain ⟨operator, reactivationDelay, present, status, -, rfl⟩ :=
    doReactivateOperator_eq_ok reactivated
  have notSlashed : operator.partialStatus ≠ .slashed := fun slashed => by
    rw [Operator.status_eq_slashed.mpr slashed] at status
    cases status
  exact FeeFrame.setStatus present notSlashed (by simp) ⟨rfl, rfl, subset_rfl, fun _ => rfl⟩

omit [DecidableEq A] [Fintype A] in
theorem FeeFrame.doRewardOperators {s s' : State A} {operators : List ℕ} {rewards : ℕ}
    (rewarded : doRewardOperators s operators rewards = .ok s') : FeeFrame s s' := by
  obtain ⟨epochRewards, treasury, rfl⟩ := doRewardOperators_eq_ok rewarded
  exact ⟨rfl, rfl, subset_rfl, fun _ => rfl⟩

omit [Fintype A] in
theorem FeeFrame.markInvalidBundleAuthor {s s' : State A} {operatorId erHash : ℕ}
    (marked : markInvalidBundleAuthor s operatorId erHash = .ok s') : FeeFrame s s' := by
  rcases markInvalidBundleAuthor_eq_ok marked with rfl | ⟨operator, summary, present, registered,
    -, rfl⟩
  · exact FeeFrame.refl _
  · have notSlashed : operator.partialStatus ≠ .slashed := fun slashed => by
      rw [Operator.status_eq_slashed.mpr slashed] at registered
      cases registered
    exact FeeFrame.setStatus present notSlashed (by simp) ⟨rfl, rfl, subset_rfl, fun _ => rfl⟩

omit [Fintype A] in
theorem FeeFrame.unmarkInvalidBundleAuthor (s : State A) (operatorId erHash : ℕ) :
    FeeFrame s (unmarkInvalidBundleAuthor s operatorId erHash) := by
  rcases unmarkInvalidBundleAuthor_eq s operatorId erHash with same | ⟨operator, present, marked,
    unmarked⟩
  · rw [same]
    exact FeeFrame.refl s
  · rw [unmarked]
    exact FeeFrame.setStatus present (by simp [marked]) (by simp)
      ⟨rfl, rfl, subset_rfl, fun _ => rfl⟩

omit [Fintype A] in
theorem FeeFrame.doMarkInvalidBundleAuthors {s s' : State A} {authors : List ℕ} {erHash : ℕ}
    (marked : doMarkInvalidBundleAuthors s authors erHash = .ok s') : FeeFrame s s' := by
  refine foldlM_invariant (FeeFrame s) (FeeFrame.refl s) (fun s₁ operatorId s₂ _ frame step => ?_)
    marked
  split at step
  · cases step
    exact frame
  · exact frame.trans (FeeFrame.markInvalidBundleAuthor step)

omit [Fintype A] in
theorem FeeFrame.doUnmarkInvalidBundleAuthors (s : State A) (authors : List ℕ) (erHash : ℕ) :
    FeeFrame s (doUnmarkInvalidBundleAuthors s authors erHash) := by
  refine foldl_invariant (FeeFrame s) (FeeFrame.refl s) (fun s₁ operatorId _ frame => ?_)
  split
  · exact frame
  · exact frame.trans (FeeFrame.unmarkInvalidBundleAuthor s₁ operatorId erHash)

omit [DecidableEq A] in
/-- `do_mark_operators_as_slashed`, for one operator: it becomes `Slashed`
with its total unchanged, which still covers its nominators' fees. -/
theorem StorageFeeInvariant.markOperatorAsSlashed {s s' : State A} (inv : StorageFeeInvariant s)
    {operatorId : ℕ} (marked : markOperatorAsSlashed s operatorId = .ok s') :
    StorageFeeInvariant s' := by
  rcases markOperatorAsSlashed_eq_ok marked with rfl | ⟨operator, summary, present, -, -, rfl⟩
  · exact inv
  have issued := inv.lt_next present
  refine ⟨fun other notIssued => ?_, fun other n deposit stored => ?_, fun other member => ?_,
    fun other written present' => ?_, fun other written present' notSlashed' => ?_⟩
  · have ne : other ≠ operatorId := by rintro rfl; simp at notIssued; omega
    simpa [ne] using inv.fresh other (by simpa using notIssued)
  · exact inv.emptyFeeFree other n deposit (by simpa using stored)
  · by_cases same : other = operatorId
    · subst same
      simp
    · simp only [State.setOperator, Option.getD_some, Finset.mem_insert, same, false_or]
        at member
      simpa [same] using inv.slashing other member
  · by_cases same : other = operatorId
    · subst same
      simp only [State.setOperator, Function.update_self, Option.some.injEq] at present'
      subst present'
      exact inv.covered other operator present
    · simp only [State.setOperator, Function.update_of_ne same] at present'
      exact inv.covered other written present'
  · by_cases same : other = operatorId
    · subst same
      simp only [State.setOperator, Function.update_self, Option.some.injEq] at present'
      subst present'
      exact absurd rfl notSlashed'
    · simp only [State.setOperator, Function.update_of_ne same] at present'
      exact inv.balanced other written present' notSlashed'

omit [DecidableEq A] in
theorem StorageFeeInvariant.doMarkOperatorsAsSlashed {s s' : State A}
    (inv : StorageFeeInvariant s) {operatorIds : List ℕ}
    (marked : doMarkOperatorsAsSlashed s operatorIds = .ok s') : StorageFeeInvariant s' :=
  foldlM_invariant StorageFeeInvariant inv (fun _ _ _ _ inv step => inv.markOperatorAsSlashed step)
    marked

omit [Fintype A] in
theorem FeeFrame.doFinalizeOperatorEpochStaking {s s' : State A} {operatorId previousEpoch : ℕ}
    {checkStatus : Bool} {totalStake : ℕ} {stakeChanged : Bool}
    (finalized : doFinalizeOperatorEpochStaking s operatorId previousEpoch checkStatus =
      .ok (s', totalStake, stakeChanged)) : FeeFrame s s' := by
  obtain ⟨operator, present, -, ⟨-, -, rfl, -, -⟩ | ⟨sharePrice, settledStake, settledShares, -, -,
    -, -, -, rfl⟩⟩ := doFinalizeOperatorEpochStaking_eq_ok finalized
  · exact FeeFrame.refl _
  · have priced : (s.setSharePrice operatorId previousEpoch sharePrice).operators operatorId =
        some operator := present
    have recorded : FeeFrame s (s.setSharePrice operatorId previousEpoch sharePrice) :=
      ⟨rfl, rfl, subset_rfl, fun _ => rfl⟩
    exact recorded.trans (FeeFrame.setOperator priced (by rfl))

omit [Fintype A] in
/-- The two finalize loops change no operator's status or fee total. -/
theorem FeeFrame.doFinalizeDomainEpochStaking {s s' : State A}
    {operatorsWithSelfDeposits : Finset ℕ} {completedEpochIndex finalizedOperatorCount : ℕ}
    (finalized : doFinalizeDomainEpochStaking s operatorsWithSelfDeposits =
      .ok (s', completedEpochIndex, finalizedOperatorCount)) : FeeFrame s s' := by
  obtain ⟨acc, s₂, firstLoop, secondLoop, -, rfl⟩ := doFinalizeDomainEpochStaking_eq_ok finalized
  have first : FeeFrame s acc.state := by
    refine foldlM_invariant (fun acc => FeeFrame s acc.state) (FeeFrame.refl s)
      (fun acc₁ operatorId acc₂ _ frame step => ?_) firstLoop
    rcases finalizeNextOperator_eq_ok step with ⟨-, rfl⟩ | ⟨s₃, _, _, -, operatorFinalized, rfl⟩
    · exact frame
    · exact frame.trans (FeeFrame.doFinalizeOperatorEpochStaking operatorFinalized)
  have second : FeeFrame s s₂ := by
    refine foldlM_invariant (fun acc => FeeFrame s acc.1)
      (first.trans ⟨rfl, rfl, subset_rfl, fun _ => rfl⟩)
      (fun acc₁ operatorId acc₂ _ frame step => ?_) secondLoop
    rcases finalizeOtherOperator_eq_ok step with rfl | ⟨_, s₃, _, _, -, -, -, operatorFinalized,
      rfl⟩
    · exact frame
    · exact frame.trans (FeeFrame.doFinalizeOperatorEpochStaking operatorFinalized)
  exact second.trans ⟨rfl, rfl, subset_rfl, fun _ => rfl⟩

/-- One operator of the reward loop: its tax is deposited for the owner, with
the fee in the owner's deposit and in the operator's total. -/
theorem StorageFeeInvariant.operatorTakeRewardTax {rewardPerOperator : ℕ} {acc acc' : TaxAcc A}
    {entry : ℕ × ℕ} (inv : StorageFeeInvariant acc.state)
    (taken : operatorTakeRewardTax rewardPerOperator acc entry = .ok acc') :
    StorageFeeInvariant acc'.state := by
  rcases operatorTakeRewardTax_eq_ok taken with rfl | ⟨-, operator, present, notSlashedStatus,
    -, ⟨-, staked, -⟩ | ⟨s₁, operator₁, -, deposited, staked, -⟩⟩
  · exact inv
  · rw [staked]
    exact inv.of_frame (FeeFrame.setOperator present (by rfl))
  · rw [staked]
    have notSlashed : operator.partialStatus ≠ .slashed := fun slashed =>
      notSlashedStatus (Operator.status_eq_slashed.mpr slashed)
    obtain ⟨owner, -, calculated, rfl⟩ := depositOperatorTax_eq_ok deposited
    obtain ⟨deposit, rfl, fee, emptyFeeFree⟩ :=
      doCalculatePreviousEpochDepositSharesAndAddNewDeposit_storageFee calculated
    refine inv.of_change owner present notSlashed (fun other ne => ?_) (fun other n ne => ?_)
      rfl rfl (fun written present' => ?_) (fun stored hasDeposit => ?_)
    · simp [holdDeposit, ne]
    · simp [holdDeposit, Function.update_update_apply_of_ne _ _ ne]
    · simp only [State.setOperator, Function.update_self, Option.some.injEq] at present'
      subst present'
      refine ⟨rfl, ?_⟩
      simp only [holdDeposit, State.setDepositOnHold, State.setStorageFund] at fee
      simp only [State.setOperator, State.setDeposit, Function.update_self, depositFee_some, fee]
      omega
    · simp only [State.setOperator, State.setDeposit, Function.update_self,
        Option.some.injEq] at hasDeposit
      exact hasDeposit ▸ emptyFeeFree

theorem StorageFeeInvariant.doFinalizeDomainCurrentEpoch {s s' : State A}
    (inv : StorageFeeInvariant s) {result : EpochTransitionResult}
    (transitioned : doFinalizeDomainCurrentEpoch s = .ok (s', result)) :
    StorageFeeInvariant s' := by
  obtain ⟨s₁, selfDeposits, taken, finalized⟩ := doFinalizeDomainCurrentEpoch_eq_ok transitioned
  obtain ⟨acc, ran, rfl, -⟩ := operatorTakeRewardTaxAndStake_eq_ok taken
  have rewarded : StorageFeeInvariant acc.state :=
    foldlM_invariant (fun acc => StorageFeeInvariant acc.state)
      (inv.of_frame ⟨rfl, rfl, subset_rfl, fun _ => rfl⟩)
      (fun _ _ _ _ inv step => inv.operatorTakeRewardTax step) ran
  have paid : StorageFeeInvariant { acc.state with
      treasury := acc.state.treasury + acc.toTreasury } :=
    rewarded.of_frame ⟨rfl, rfl, subset_rfl, fun _ => rfl⟩
  exact paid.of_frame (FeeFrame.doFinalizeDomainEpochStaking finalized)

omit [DecidableEq A] in
/-- A slash of one operator: its deposits may go, and it either goes or stays
slashed with a total that covers what is left; it may leave the pending
slashes, which gain nothing. -/
theorem StorageFeeInvariant.of_slash {s s' : State A} (inv : StorageFeeInvariant s)
    {operatorId : ℕ} {operator : Operator} (present : s.operators operatorId = some operator)
    (operators : ∀ other, other ≠ operatorId → s'.operators other = s.operators other)
    (written : ∀ slashed, s'.operators operatorId = some slashed →
      slashed.partialStatus = .slashed ∧
      depositedStorageFee s' operatorId ≤ slashed.totalStorageFeeDeposit)
    (deposits : ∀ other n, s'.deposits other n = s.deposits other n ∨
      (other = operatorId ∧ s'.deposits other n = none))
    (next : s'.nextOperatorId = s.nextOperatorId)
    (slashes : ∀ other ∈ s'.pendingSlashes.getD ∅, other ∈ s.pendingSlashes.getD ∅ ∧
      (other = operatorId → (s'.operators operatorId).isSome)) : StorageFeeInvariant s' := by
  have issued := inv.lt_next present
  have others : ∀ other, other ≠ operatorId →
      depositedStorageFee s' other = depositedStorageFee s other := by
    intro other ne
    unfold depositedStorageFee
    refine Finset.sum_congr rfl fun n _ => ?_
    rcases deposits other n with same | ⟨wrong, -⟩
    · rw [same]
    · exact absurd wrong ne
  refine ⟨fun other notIssued => ?_, fun other n deposit stored => ?_, fun other member => ?_,
    fun other kept present' => ?_, fun other kept present' notSlashed' => ?_⟩
  · have ne : other ≠ operatorId := by rintro rfl; omega
    rw [next] at notIssued
    obtain ⟨absent, noDeposits⟩ := inv.fresh other notIssued
    refine ⟨(operators other ne).trans absent, fun n => ?_⟩
    rcases deposits other n with same | ⟨-, gone⟩
    · exact same.trans (noDeposits n)
    · exact gone
  · rcases deposits other n with same | ⟨-, gone⟩
    · exact inv.emptyFeeFree other n deposit (same ▸ stored)
    · rw [gone] at stored
      cases stored
  · obtain ⟨member, stays⟩ := slashes other member
    by_cases same : other = operatorId
    · subst same
      obtain ⟨slashed, present'⟩ := Option.isSome_iff_exists.mp (stays rfl)
      exact ⟨slashed, present', (written slashed present').1⟩
    · obtain ⟨slashedOperator, slashedPresent, slashed⟩ := inv.slashing other member
      exact ⟨slashedOperator, (operators other same).trans slashedPresent, slashed⟩
  · by_cases same : other = operatorId
    · subst same
      exact (written kept present').2
    · rw [operators other same] at present'
      rw [others other same]
      exact inv.covered other kept present'
  · by_cases same : other = operatorId
    · subst same
      exact absurd (written kept present').1 notSlashed'
    · rw [operators other same] at present'
      rw [others other same]
      exact inv.balanced other kept present' notSlashed'

/-- What the nominator loop of `do_slash_operator` keeps: only the slashed
operator's deposits go, and its running fee total covers the fees left. -/
def SlashFeeLoop (s : State A) (operatorId : ℕ) (acc : SlashAcc A) : Prop :=
  acc.state.operators = Function.update s.operators operatorId none ∧
    acc.state.nextOperatorId = s.nextOperatorId ∧
    acc.state.pendingSlashes = s.pendingSlashes ∧
    (∀ other n, acc.state.deposits other n = s.deposits other n ∨
      (other = operatorId ∧ acc.state.deposits other n = none)) ∧
    depositedStorageFee acc.state operatorId ≤ acc.totalStorageFeeDeposit

theorem SlashFeeLoop.slashNominator {s : State A} {operatorId epoch : ℕ}
    {sharePrice : SharePrice} {acc acc' : SlashAcc A} {nominator : A} {deposit : Deposit}
    (hasDeposit : acc.state.deposits operatorId nominator = some deposit)
    (slashed : slashNominator operatorId sharePrice epoch acc nominator deposit = .ok acc')
    (loop : SlashFeeLoop s operatorId acc) : SlashFeeLoop s operatorId acc' := by
  obtain ⟨operators, next, slashes, deposits, covered⟩ := loop
  obtain ⟨deposit', fund, treasury, kept, state, total, -⟩ := slashNominator_eq_ok slashed
  have fee := keepOnMissingPrice_totalStorageFeeDeposit kept
  have moved := depositedStorageFee_update (acc.state.deposits operatorId) nominator none
  rw [hasDeposit, depositFee_some, depositFee_none, add_zero] at moved
  refine ⟨by simp [state, operators], by simp [state, next], by simp [state, slashes],
    fun other n => ?_, ?_⟩
  · by_cases same : (other, n) = (operatorId, nominator)
    · simp only [Prod.mk.injEq] at same
      obtain ⟨rfl, rfl⟩ := same
      exact .inr ⟨rfl, by simp [state]⟩
    · simp only [state, State.setStorageFund, State.setWithdrawal, State.setDepositOnHold,
        State.setDeposit, Function.update_update_apply_of_ne _ _ same]
      exact deposits other n
  · have left : depositedStorageFee acc'.state operatorId + deposit.totalStorageFeeDeposit =
        depositedStorageFee acc.state operatorId := by
      simpa [depositedStorageFee, state] using moved
    have pendingWithin : (deposit'.pending.map (·.storageFeeDeposit)).getD 0 ≤
        deposit.totalStorageFeeDeposit := by
      rw [← fee]
      unfold Deposit.totalStorageFeeDeposit
      omega
    rw [total]
    omega

theorem StorageFeeInvariant.doSlashOperator {s s' : State A} (inv : StorageFeeInvariant s)
    {maxNominatorCount count : ℕ} {order : List A}
    (slashed : doSlashOperator s maxNominatorCount order = .ok (s', count)) :
    StorageFeeInvariant s' := by
  rcases doSlashOperator_eq_ok slashed with ⟨-, rfl⟩ | ⟨_, -, -, rfl⟩ |
    ⟨pendingSlashes, operatorId, rest, operator, sharePrice, acc, pending, first, present, -, ran,
      rfl⟩
  · exact inv
  · exact inv.of_frame ⟨rfl, rfl, by simp, fun _ => rfl⟩
  -- the operator slashed is the least pending slash, so it is slashed already
  have member : operatorId ∈ s.pendingSlashes.getD ∅ := by
    rw [pending, Option.getD_some, ← Finset.mem_ascending, first]
    exact List.mem_cons_self
  obtain ⟨slashedOperator, slashedPresent, isSlashed⟩ := inv.slashing operatorId member
  rw [present, Option.some.injEq] at slashedPresent
  subst slashedPresent
  obtain ⟨operators, next, slashes, deposits, covered⟩ : SlashFeeLoop s operatorId acc := by
    refine slashNominators_invariant (SlashFeeLoop s operatorId)
      (fun _ _ _ _ hasDeposit slashed loop => loop.slashNominator hasDeposit slashed) ?_ ran
    exact ⟨rfl, rfl, rfl, fun _ _ => .inl rfl, inv.covered operatorId operator present⟩
  split
  · refine inv.of_slash present (fun other ne => by simp [operators, ne])
      (fun written present' => ?_) deposits next (fun other member => ?_)
    · simp only [State.setOperator, Function.update_self, Option.some.injEq] at present'
      subst present'
      exact ⟨isSlashed, by simpa [depositedStorageFee] using covered⟩
    · simp only [State.setOperator, slashes] at member
      exact ⟨member, fun _ => by simp⟩
  · refine inv.of_slash present (fun other ne => by simp [doCleanupOperator, operators, ne])
      (fun written present' => by simp [doCleanupOperator, operators] at present') deposits next
      (fun other member => ?_)
    split at member
    · simp at member
    · simp only [Option.getD_some, Finset.mem_erase] at member
      obtain ⟨ne, member⟩ := member
      rw [pending, Option.getD_some]
      exact ⟨member, fun same => absurd same ne⟩

section Ledger

variable (cfg : StakingConfig A)

/-- Every step of the ledger keeps the storage fee ledger. -/
theorem StorageFeeInvariant.step {s s' : State A} (inv : StorageFeeInvariant s) {a : Action A}
    (stepped : step cfg s a = some s') : StorageFeeInvariant s' := by
  cases a with
  | registerOperator owner amount config =>
    simp only [Staking.step, Except.toOption_eq_some, Except.map_ok_iff] at stepped
    obtain ⟨⟨_, _, _⟩, registered, rfl⟩ := stepped
    exact inv.doRegisterOperator cfg registered
  | nominateOperator operatorId nominator amount =>
    simp only [Staking.step, Except.toOption_eq_some] at stepped
    exact inv.doNominateOperator cfg stepped
  | withdrawStake operatorId nominator toWithdraw =>
    simp only [Staking.step, Except.toOption_eq_some] at stepped
    exact inv.doWithdrawStake cfg stepped
  | unlockFunds operatorId nominator =>
    simp only [Staking.step, Except.toOption_eq_some, Except.map_ok_iff] at stepped
    obtain ⟨⟨_, _⟩, unlocked, rfl⟩ := stepped
    exact inv.doUnlockFunds unlocked
  | unlockNominator operatorId nominator =>
    simp only [Staking.step, Except.toOption_eq_some] at stepped
    exact inv.doUnlockNominator stepped
  | deregisterOperator owner operatorId =>
    simp only [Staking.step, Except.toOption_eq_some] at stepped
    exact inv.doDeregisterOperator cfg stepped
  | deactivateOperator operatorId =>
    simp only [Staking.step, Except.toOption_eq_some] at stepped
    exact inv.doDeactivateOperator cfg stepped
  | reactivateOperator operatorId =>
    simp only [Staking.step, Except.toOption_eq_some] at stepped
    exact inv.of_frame (FeeFrame.doReactivateOperator stepped)
  | rewardOperators operators rewards =>
    simp only [Staking.step, Except.toOption_eq_some] at stepped
    exact inv.of_frame (FeeFrame.doRewardOperators stepped)
  | markOperatorsAsSlashed operators =>
    simp only [Staking.step, Except.toOption_eq_some] at stepped
    exact inv.doMarkOperatorsAsSlashed stepped
  | markInvalidBundleAuthors authors erHash =>
    simp only [Staking.step, Except.toOption_eq_some] at stepped
    exact inv.of_frame (FeeFrame.doMarkInvalidBundleAuthors stepped)
  | unmarkInvalidBundleAuthors authors erHash =>
    simp only [Staking.step, Option.some.injEq] at stepped
    exact stepped ▸ inv.of_frame (FeeFrame.doUnmarkInvalidBundleAuthors s authors erHash)
  | finalizeDomainCurrentEpoch =>
    simp only [Staking.step, Except.toOption_eq_some, Except.map_ok_iff] at stepped
    obtain ⟨⟨_, _⟩, transitioned, rfl⟩ := stepped
    exact inv.doFinalizeDomainCurrentEpoch transitioned
  | slashOperator maxNominatorCount order =>
    simp only [Staking.step] at stepped
    split at stepped
    · simp only [Except.toOption_eq_some, Except.map_ok_iff] at stepped
      obtain ⟨⟨_, _⟩, slashed, rfl⟩ := stepped
      exact inv.doSlashOperator slashed
    · cases stepped
  -- the chain around the ledger changes nothing the storage fee ledger reads
  | advanceHead blocks =>
    cases stepped
    exact inv.of_frame ⟨rfl, rfl, subset_rfl, fun _ => rfl⟩
  | markPendingToSlash operatorId =>
    cases stepped
    exact inv.of_frame ⟨rfl, rfl, subset_rfl, fun _ => rfl⟩
  | addDomainChainRewards amount =>
    cases stepped
    exact inv.of_frame ⟨rfl, rfl, subset_rfl, fun _ => rfl⟩
  | chargeBundleStorageFee operatorId amount =>
    simp only [Staking.step] at stepped
    split at stepped
    · cases stepped
      exact inv.of_frame ⟨rfl, rfl, subset_rfl, fun _ => rfl⟩
    · cases stepped
  | refundStorageFee operatorId amount =>
    simp only [Staking.step] at stepped
    split at stepped
    · cases stepped
      exact inv.of_frame ⟨rfl, rfl, subset_rfl, fun _ => rfl⟩
    · cases stepped

theorem Reachable.storageFeeInvariant {s : State A} (reachable : Reachable cfg s) :
    StorageFeeInvariant s := by
  induction reachable with
  | init => exact StorageFeeInvariant.empty
  | step a _ stepped inv => exact inv.step cfg stepped

/-- The storage fee ledger of every reachable state: an operator that is not
slashed holds exactly its nominators' storage fee deposits, so the storage fee
steps of a withdrawal and of an unlock never fail, and a redeem never pays out
more than the fund holds. -/
theorem storage_fee_ledger_consistent {s : State A} (reachable : Reachable cfg s) :
    (∀ operatorId operator, s.operators operatorId = some operator →
      operator.status s operatorId ≠ .slashed →
      operator.totalStorageFeeDeposit = depositedStorageFee s operatorId) ∧
    (∀ operatorId nominator toWithdraw,
      doWithdrawStake cfg s operatorId nominator toWithdraw ≠ .error .balanceOverflow ∧
      doWithdrawStake cfg s operatorId nominator toWithdraw ≠
        .error (.bundleStorageFund .withdrawAndHold)) ∧
    (∀ operatorId nominator,
      doUnlockNominator s operatorId nominator ≠ .error (.bundleStorageFund .failToWithdraw)) ∧
    (∀ operatorId operator nominator deposit, s.operators operatorId = some operator →
      s.deposits operatorId nominator = some deposit →
      (storageFundRedeemPrice s operatorId operator.totalStorageFeeDeposit).redeem
        deposit.totalStorageFeeDeposit ≤ s.storageFundBalance operatorId) := by
  have inv := reachable.storageFeeInvariant
  -- a nominator's fee is part of what the operator holds
  have nominatorCovered : ∀ operatorId nominator operator deposit,
      s.operators operatorId = some operator → s.deposits operatorId nominator = some deposit →
      deposit.totalStorageFeeDeposit ≤ operator.totalStorageFeeDeposit := by
    intro operatorId nominator operator deposit present stored
    have inPool := depositFee_le_depositedStorageFee s operatorId nominator
    rw [stored, depositFee_some] at inPool
    exact inPool.trans (inv.covered operatorId operator present)
  refine ⟨?balanced, ?withdraw, ?unlock, ?redeem⟩
  case balanced =>
    intro operatorId operator present notSlashed
    exact inv.balanced operatorId operator present (mt Operator.status_eq_slashed.mpr notSlashed)
  case withdraw =>
    intro operatorId nominator toWithdraw
    exact ⟨fun failed => doWithdrawStake_storage_fee_ok cfg (nominatorCovered operatorId nominator)
        (Or.inl rfl) failed,
      fun failed => doWithdrawStake_storage_fee_ok cfg (nominatorCovered operatorId nominator)
        (Or.inr rfl) failed⟩
  case unlock =>
    intro operatorId nominator
    exact doUnlockNominator_storage_fee_ok (nominatorCovered operatorId nominator)
  case redeem =>
    intro operatorId operator nominator deposit present stored
    exact StorageFundRedeemPrice.redeem_le_totalBalance _
      (nominatorCovered operatorId nominator operator deposit present stored)

end Ledger

/-- After `nominateAndWithdraw` operator `0` holds the storage fees of both of
its nominators, and the nominator still has a deposit. -/
theorem storage_fee_ledger_consistent_after_withdrawals :
    ∃ s, Reachable sampleConfig s ∧
    ((s.operators 0).any fun operator => operator.totalStorageFeeDeposit ≠ 0) = true ∧
    (s.deposits 0 true).isSome = true ∧
    (∀ operatorId operator, s.operators operatorId = some operator →
      operator.status s operatorId ≠ .slashed →
      operator.totalStorageFeeDeposit = depositedStorageFee s operatorId) ∧
    (∀ operatorId nominator toWithdraw,
      doWithdrawStake sampleConfig s operatorId nominator toWithdraw ≠ .error .balanceOverflow ∧
      doWithdrawStake sampleConfig s operatorId nominator toWithdraw ≠
        .error (.bundleStorageFund .withdrawAndHold)) ∧
    (∀ operatorId nominator,
      doUnlockNominator s operatorId nominator ≠ .error (.bundleStorageFund .failToWithdraw)) ∧
    (∀ operatorId operator nominator deposit, s.operators operatorId = some operator →
      s.deposits operatorId nominator = some deposit →
      (storageFundRedeemPrice s operatorId operator.totalStorageFeeDeposit).redeem
        deposit.totalStorageFeeDeposit ≤ s.storageFundBalance operatorId) := by
  obtain ⟨s, reachable, funded, deposited⟩ := exists_reachable_of_run sampleConfig
    nominateAndWithdraw
    (P := fun s => ((s.operators 0).any fun operator => operator.totalStorageFeeDeposit ≠ 0) = true ∧
      (s.deposits 0 true).isSome = true) (by decide)
  exact ⟨s, reachable, funded, deposited, storage_fee_ledger_consistent sampleConfig reachable⟩

end Subspace.Staking
