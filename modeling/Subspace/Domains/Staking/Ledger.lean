import Subspace.Domains.Staking.Epoch

/-!
# The staking ledger as a state machine

`Reachable cfg` is every ledger state of one domain that the pallet can reach
from an empty ledger through any interleaving of the staking calls, the epoch
transition and slashing, with the chain around the ledger changing between
them:

* the head domain number only grows;
* an operator becomes pending to slash when a fraud proof reverts the head
  below a receipt it submitted, and stays so: the head reaches that receipt
  again only through a new receipt at its height, which slashes it first;
* the domain's chain rewards grow with the protocol fees it collects;
* bundle storage fees are charged from, and refunded to, storage funds.

A call that fails leaves the state unchanged, so only successful calls are
steps. `do_slash_operator` takes the nominators of the operator it slashes in
the order of the storage iterator, which the model leaves open: any order of
exactly those nominators, each once.
-/

namespace Subspace.Staking

variable {A : Type} [DecidableEq A] [Fintype A]

/-- A call into the staking ledger, or a change of the chain around it. -/
inductive Action (A : Type) where
  | registerOperator (operatorOwner : A) (amount : ℕ) (config : OperatorConfig)
  | nominateOperator (operatorId : ℕ) (nominator : A) (amount : ℕ)
  | withdrawStake (operatorId : ℕ) (nominator : A) (toWithdraw : ℕ)
  | unlockFunds (operatorId : ℕ) (nominator : A)
  | unlockNominator (operatorId : ℕ) (nominator : A)
  | deregisterOperator (operatorOwner : A) (operatorId : ℕ)
  | deactivateOperator (operatorId : ℕ)
  | reactivateOperator (operatorId : ℕ)
  | rewardOperators (operators : List ℕ) (rewards : ℕ)
  | markOperatorsAsSlashed (operators : List ℕ)
  | markInvalidBundleAuthors (authors : List ℕ) (erHash : ℕ)
  | unmarkInvalidBundleAuthors (authors : List ℕ) (erHash : ℕ)
  | finalizeDomainCurrentEpoch
  | slashOperator (maxNominatorCount : ℕ) (order : List A)
  | advanceHead (blocks : ℕ)
  | markPendingToSlash (operatorId : ℕ)
  | addDomainChainRewards (amount : ℕ)
  | chargeBundleStorageFee (operatorId amount : ℕ)
  | refundStorageFee (operatorId amount : ℕ)

/-- The operator `do_slash_operator` works on: the least one pending slash. -/
def State.operatorToSlash (s : State A) : Option ℕ :=
  s.pendingSlashes.bind fun pending => pending.ascending.head?

/-- `order` lists each nominator with a deposit to the operator being
slashed exactly once, as `Deposits::drain_prefix` does. -/
def State.isDrainOrder (s : State A) (order : List A) : Bool :=
  match s.operatorToSlash with
  | none => true
  | some operatorId => order.Nodup ∧ ∀ n, n ∈ order ↔ (s.deposits operatorId n).isSome

variable (cfg : StakingConfig A)

/-- One step of the ledger; `none` when the call fails or is not allowed. -/
def step (s : State A) : Action A → Option (State A)
  | .registerOperator owner amount config =>
    ((doRegisterOperator cfg s owner amount config).map Prod.fst).toOption
  | .nominateOperator operatorId nominator amount =>
    (doNominateOperator cfg s operatorId nominator amount).toOption
  | .withdrawStake operatorId nominator toWithdraw =>
    (doWithdrawStake cfg s operatorId nominator toWithdraw).toOption
  | .unlockFunds operatorId nominator => ((doUnlockFunds s operatorId nominator).map Prod.fst).toOption
  | .unlockNominator operatorId nominator => (doUnlockNominator s operatorId nominator).toOption
  | .deregisterOperator owner operatorId => (doDeregisterOperator cfg s owner operatorId).toOption
  | .deactivateOperator operatorId => (doDeactivateOperator cfg s operatorId).toOption
  | .reactivateOperator operatorId => (doReactivateOperator s operatorId).toOption
  | .rewardOperators operators rewards => (doRewardOperators s operators rewards).toOption
  | .markOperatorsAsSlashed operators => (doMarkOperatorsAsSlashed s operators).toOption
  | .markInvalidBundleAuthors authors erHash =>
    (doMarkInvalidBundleAuthors s authors erHash).toOption
  | .unmarkInvalidBundleAuthors authors erHash =>
    some (doUnmarkInvalidBundleAuthors s authors erHash)
  | .finalizeDomainCurrentEpoch => ((doFinalizeDomainCurrentEpoch s).map Prod.fst).toOption
  | .slashOperator maxNominatorCount order =>
    if s.isDrainOrder order then ((doSlashOperator s maxNominatorCount order).map Prod.fst).toOption
    else none
  | .advanceHead blocks => some { s with headDomainNumber := s.headDomainNumber + blocks }
  | .markPendingToSlash operatorId =>
    some { s with pendingToSlash := Function.update s.pendingToSlash operatorId true }
  | .addDomainChainRewards amount =>
    some { s with domainChainRewards := s.domainChainRewards + amount }
  | .chargeBundleStorageFee operatorId amount =>
    if amount ≤ s.storageFundBalance operatorId then
      some (s.setStorageFund operatorId (s.storageFundBalance operatorId - amount))
    else none
  | .refundStorageFee operatorId amount =>
    if (s.operators operatorId).isSome then
      some (s.setStorageFund operatorId (s.storageFundBalance operatorId + amount))
    else none

/-- The states the ledger reaches from an empty one. -/
inductive Reachable : State A → Prop where
  | init : Reachable .empty
  | step {s s' : State A} (a : Action A) : Reachable s → step cfg s a = some s' → Reachable s'

/-- Run a list of actions, stopping at the first that fails. -/
def run : List (Action A) → State A → Option (State A)
  | [], s => some s
  | a :: rest, s => (step cfg s a).bind (run rest)

theorem reachable_of_run {actions : List (Action A)} {s s' : State A}
    (ran : run cfg actions s = some s') (start : Reachable cfg s) : Reachable cfg s' := by
  induction actions generalizing s with
  | nil =>
    cases ran
    exact start
  | cons a rest ih =>
    obtain ⟨next, stepped, ranRest⟩ := Option.bind_eq_some_iff.mp ran
    exact ih ranRest (.step a start stepped)

/-- A run from the empty ledger that ends in a state with a decidable
property exhibits a reachable state with it. -/
theorem exists_reachable_of_run (actions : List (Action A)) {P : State A → Prop}
    [DecidablePred P] (ends : (run cfg actions .empty).any (fun s => decide (P s)) = true) :
    ∃ s, Reachable cfg s ∧ P s := by
  cases ran : run cfg actions .empty with
  | none =>
    rw [ran] at ends
    cases ends
  | some s =>
    rw [ran, Option.any_some, decide_eq_true_eq] at ends
    exact ⟨s, reachable_of_run cfg ran .init, ends⟩

/-- A configuration with room for several withdrawals and a one-block
withdrawal lock. -/
def sampleConfig : StakingConfig Bool where
  minOperatorStake := 10
  minNominatorStake := 1
  stakeWithdrawalLockingPeriod := 1
  maxPendingStakingOperation := 100
  withdrawalLimit := 100
  operatorActivationDelayInEpochs := 0
  isOperatorAllowed := fun _ => true

/-- The owner (`false`) registers operator `0` and the nominator (`true`)
nominates; the nominator then withdraws shares in each of the next two
epochs. The run ends with the owner's deposit still pending from epoch `0`,
a withdrawal in shares of an ended epoch, and a queued withdrawal in balance. -/
def nominateAndWithdraw : List (Action Bool) :=
  [.registerOperator false 100 ⟨1, 1, PerThing.fromParts 0⟩,
   .nominateOperator 0 true 50,
   .finalizeDomainCurrentEpoch,
   .withdrawStake 0 true 10,
   .finalizeDomainCurrentEpoch,
   .withdrawStake 0 true 10,
   .finalizeDomainCurrentEpoch]

end Subspace.Staking
