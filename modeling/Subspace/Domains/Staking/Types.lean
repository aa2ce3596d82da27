import Subspace.Lib.PerThing
import Subspace.Lib.BTree
import Mathlib.Data.Fintype.Basic

/-!
# The staking ledger of a domain: data

The storage of `pallet-domains` that staking reads and writes (`staking.rs`,
`staking_epoch.rs`, `bundle_storage_fund.rs`), for one domain. Every
operator of the model belongs to this domain: an operator's
`current_domain_id` is set at registration and never changes, and each
staking function reads the domain entries of the operator it is given, so
the storage of other domains is left out. Balances and shares are `ℕ`: the
model assumes that the total issuance fits in the balance type, so the
`checked_add` calls never fail, while every `checked_sub` keeps its error.

Nominators range over a type `A` with decidable equality (`AccountId`).
-/

namespace Subspace.Staking

/-- `Perquintill`: parts per `10 ^ 18`. -/
abbrev Perquintill := PerThing (10 ^ 18)

/-- `Percent`: parts per hundred. -/
abbrev Percent := PerThing 100

/-- The largest `u128`, where `saturating_reciprocal_mul_floor` saturates. -/
def balanceMax : ℕ := 2 ^ 128 - 1

/-- `SharePrice(Perquintill)`: shares per unit of stake. -/
structure SharePrice where
  price : Perquintill
deriving DecidableEq, Repr

/-- `KnownDeposit`: shares already issued and the storage fee paid for them. -/
structure KnownDeposit where
  shares : ℕ
  storageFeeDeposit : ℕ
deriving DecidableEq, Repr

/-- `PendingDeposit`: stake waiting for the end of `effectiveDomainEpoch`. The
domain part of `DomainEpoch` is always this domain and is left out. -/
structure PendingDeposit where
  effectiveDomainEpoch : ℕ
  amount : ℕ
  storageFeeDeposit : ℕ
deriving DecidableEq, Repr

/-- `Deposit` of a nominator to an operator pool. -/
structure Deposit where
  known : KnownDeposit
  pending : Option PendingDeposit
deriving DecidableEq, Repr

/-- `Deposit::default()`. -/
def Deposit.default : Deposit := ⟨⟨0, 0⟩, none⟩

/-- `WithdrawalInBalance`: an amount unlocking at a confirmed domain block. -/
structure WithdrawalInBalance where
  unlockAtConfirmedDomainBlockNumber : ℕ
  amountToUnlock : ℕ
  storageFeeRefund : ℕ
deriving DecidableEq, Repr

/-- `WithdrawalInShares`: shares withdrawn in `domainEpoch`, priced at its end. -/
structure WithdrawalInShares where
  domainEpoch : ℕ
  unlockAtConfirmedDomainBlockNumber : ℕ
  shares : ℕ
  storageFeeRefund : ℕ
deriving DecidableEq, Repr

/-- `Withdrawal` of a nominator from an operator pool. -/
structure Withdrawal where
  totalWithdrawalAmount : ℕ
  totalStorageFeeWithdrawal : ℕ
  withdrawals : List WithdrawalInBalance
  withdrawalInShares : Option WithdrawalInShares
deriving DecidableEq, Repr

/-- `Withdrawal::default()`. -/
def Withdrawal.default : Withdrawal := ⟨0, 0, [], none⟩

/-- `OperatorDeregisteredInfo`. -/
structure OperatorDeregisteredInfo where
  domainEpoch : ℕ
  unlockAtConfirmedDomainBlockNumber : ℕ
deriving DecidableEq, Repr

/-- `OperatorStatus`. -/
inductive OperatorStatus where
  | registered
  | deregistered (info : OperatorDeregisteredInfo)
  | slashed
  | pendingSlash
  | invalidBundle (receipt : ℕ)
  | deactivated (reactivateAfter : ℕ)
deriving DecidableEq, Repr

/-- `matches!(status, OperatorStatus::Deactivated(_))`. -/
def OperatorStatus.isDeactivated : OperatorStatus → Bool
  | .deactivated _ => true
  | _ => false

/-- `Operator`, with the fields the staking functions read. `partialStatus`
is the stored status; `Operator.status` is the one to query. -/
structure Operator where
  minimumNominatorStake : ℕ
  nominationTax : Percent
  currentTotalStake : ℕ
  currentTotalShares : ℕ
  partialStatus : OperatorStatus
  depositsInEpoch : ℕ
  withdrawalsInEpoch : ℕ
  totalStorageFeeDeposit : ℕ
deriving DecidableEq, Repr

/-- `StakingSummary` of the domain. -/
structure StakingSummary where
  currentEpochIndex : ℕ
  currentTotalStake : ℕ
  currentOperators : BTreeMap ℕ ℕ
  nextOperators : Finset ℕ
  currentEpochRewards : BTreeMap ℕ ℕ

/-- `OperatorConfig` given at registration; a `signingKey` of `0` is the
default (all-zero) public key. -/
structure OperatorConfig where
  signingKey : ℕ
  minimumNominatorStake : ℕ
  nominationTax : Percent
deriving DecidableEq, Repr

/-- The runtime constants of the pallet and the domain's operator allow list. -/
structure StakingConfig (A : Type) where
  minOperatorStake : ℕ
  minNominatorStake : ℕ
  stakeWithdrawalLockingPeriod : ℕ
  maxPendingStakingOperation : ℕ
  withdrawalLimit : ℕ
  operatorActivationDelayInEpochs : ℕ
  isOperatorAllowed : A → Bool

/-- `bundle_storage_fund::Error`: the transfers out of a storage fund that can
fail for lack of balance, and the remaining fee of a refund running out. -/
inductive BundleStorageFundError where
  | balanceUnderflow
  | withdrawAndHold
  | failToWithdraw
deriving DecidableEq, Repr

/-- The staking `Error` variants the modelled functions return. -/
inductive Error where
  | maximumOperatorId
  | insufficientShares
  | zeroWithdraw
  | minimumOperatorStake
  | unknownOperator
  | minimumNominatorStake
  | balanceOverflow
  | balanceUnderflow
  | notOperatorOwner
  | operatorNotRegistered
  | operatorNotDeactivated
  | unknownNominator
  | missingOperatorOwner
  | shareUnderflow
  | shareOverflow
  | tooManyPendingStakingOperation
  | operatorNotAllowed
  | invalidOperatorSigningKey
  | missingOperatorEpochSharePrice
  | missingWithdrawal
  | unlockPeriodNotComplete
  | operatorNotDeregistered
  | tooManyWithdrawals
  | zeroDeposit
  | zeroSharePrice
  | reactivationDelayPeriodIncomplete
  | operatorNotRegisterdOrDeactivated
  | bundleStorageFund (e : BundleStorageFundError)
deriving DecidableEq, Repr

/-- The errors of the epoch transition (`staking_epoch::Error`). -/
inductive EpochError where
  | finalizeDomainEpochStaking (e : Error)
  | operatorRewardStaking (e : Error)
deriving DecidableEq, Repr

/-- The storage of one domain's staking ledger. Maps are keyed by operator
id, then nominator or epoch index, as in the pallet.

* `pendingToSlash` is `is_operator_pending_to_slash`, which reads the block
  tree (`LatestSubmittedER`, `HeadReceiptNumber`);
* `storageFundBalance` is the balance of each operator's storage fund account;
* `treasury` is what the treasury has been credited, its account and
  `AccumulatedTreasuryFunds` together;
* `domainChainRewards` is `DomainChainRewards` of the domain. -/
structure State (A : Type) where
  operators : ℕ → Option Operator
  nextOperatorId : ℕ
  operatorIdOwner : ℕ → Option A
  deposits : ℕ → A → Option Deposit
  withdrawals : ℕ → A → Option Withdrawal
  depositOnHold : ℕ → A → ℕ
  summary : StakingSummary
  operatorEpochSharePrice : ℕ → ℕ → Option SharePrice
  deactivatedOperators : Finset ℕ
  deregisteredOperators : Finset ℕ
  invalidBundleAuthors : Finset ℕ
  pendingSlashes : Option (Finset ℕ)
  pendingStakingOperationCount : ℕ
  headDomainNumber : ℕ
  pendingToSlash : ℕ → Bool
  storageFundBalance : ℕ → ℕ
  treasury : ℕ
  domainChainRewards : ℕ

variable {A : Type}

/-- `Operator::status`: `Slashed` first, then the pending-slash check, then
the stored status. -/
def Operator.status (s : State A) (operatorId : ℕ) (operator : Operator) :
    OperatorStatus :=
  if operator.partialStatus = .slashed then .slashed
  else if s.pendingToSlash operatorId then .pendingSlash
  else operator.partialStatus

/-- The status is `Slashed` exactly when the stored status is. -/
theorem Operator.status_eq_slashed {s : State A} {operatorId : ℕ} {operator : Operator} :
    operator.status s operatorId = .slashed ↔ operator.partialStatus = .slashed := by
  unfold Operator.status
  split
  · simp_all
  · split <;> simp_all

/-- `is_operator_registered_or_deactivated`. -/
def Operator.isRegisteredOrDeactivated (s : State A) (operatorId : ℕ)
    (operator : Operator) : Bool :=
  match operator.status s operatorId with
  | .registered | .deactivated _ => true
  | _ => false

/-- The ledger of a freshly instantiated domain: no operators, epoch `0`. -/
def State.empty : State A where
  operators := fun _ => none
  nextOperatorId := 0
  operatorIdOwner := fun _ => none
  deposits := fun _ _ => none
  withdrawals := fun _ _ => none
  depositOnHold := fun _ _ => 0
  summary := ⟨0, 0, .empty 0, ∅, .empty 0⟩
  operatorEpochSharePrice := fun _ _ => none
  deactivatedOperators := ∅
  deregisteredOperators := ∅
  invalidBundleAuthors := ∅
  pendingSlashes := none
  pendingStakingOperationCount := 0
  headDomainNumber := 0
  pendingToSlash := fun _ => false
  storageFundBalance := fun _ => 0
  treasury := 0
  domainChainRewards := 0

/-- An operator registered or deactivated is not slashed. -/
theorem Operator.partialStatus_ne_slashed_of_isRegisteredOrDeactivated {s : State A}
    {operatorId : ℕ} {operator : Operator}
    (active : operator.isRegisteredOrDeactivated s operatorId = true) :
    operator.partialStatus ≠ .slashed := by
  intro slashed
  unfold Operator.isRegisteredOrDeactivated at active
  rw [Operator.status_eq_slashed.mpr slashed] at active
  cases active

end Subspace.Staking
