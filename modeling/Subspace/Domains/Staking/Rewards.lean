import Subspace.Domains.Staking.EpochSpec
import Subspace.Domains.Staking.Ledger
import Mathlib.Algebra.Order.BigOperators.Group.Finset

/-!
# Rewards and refunds move value without loss

Three loops of the pallet split an amount over operators and send what is
left to the treasury.

* `do_reward_operators` gives each operator `from_rational(weight, n) · R`,
  rounded down, where the weights count the list of `n` operator ids. The
  weights sum to `n`, so the rounded shares sum to at most `R`, and the
  treasury gets exactly the rest.
* `refund_storage_fee` gives each operator present in the paid map
  `from_rational(paid, total) · F`, rounded down. The sizes are `u32` and so is
  their `total`, which wraps in a release build: when the sizes sum to `2³²` or
  more, a small wrapped total makes each fraction saturate at one, and the
  second refund underflows the remaining fee. Below the wrap the refunds sum
  to at most `F` and every unit of `F` reaches a fund or the treasury.
* `operator_take_reward_tax_and_stake` pays each rewarded operator its reward
  and an equal part of the domain chain rewards, as stake and as the tax
  deposit of its owner; what an operator that is gone or slashed would get, and
  the dust of the split, goes to the treasury.
-/

namespace Subspace.Staking

variable {A : Type}

/-! ## `do_reward_operators` -/

section RewardOperators

/-- The reward `do_reward_operators` gives an operator of weight `weight`. -/
def operatorReward (rewards totalCount weight : ℕ) : ℕ :=
  (PerThing.fromRational weight totalCount : Perquintill).mulFloor rewards

/-- The weights count the list: they sum to its length. -/
theorem operatorWeights_total (operators : List ℕ) :
    ∑ k ∈ (operatorWeights operators).keys, (operatorWeights operators).val k = operators.length := by
  have counted : ∑ k ∈ (operatorWeights operators).keys, (operatorWeights operators).val k =
      ∑ k ∈ (BTreeMap.empty 0 : BTreeMap ℕ ℕ).keys, (BTreeMap.empty 0 : BTreeMap ℕ ℕ).val k +
        (operators.map fun _ => 1).sum :=
    foldl_measure (fun m : BTreeMap ℕ ℕ => ∑ k ∈ m.keys, m.val k) (fun _ => 1)
      fun m operatorId _ => BTreeMap.sum_upsert_add m operatorId 1
  simpa using counted

/-- The reward loop adds each entry's reward to the total allocated. -/
theorem rewardOperator_loop_allocated (rewards totalCount : ℕ) (entries : List (ℕ × ℕ))
    (init : BTreeMap ℕ ℕ × ℕ) :
    (entries.foldl (rewardOperator rewards totalCount) init).2 =
      init.2 + (entries.map fun entry => operatorReward rewards totalCount entry.2).sum :=
  foldl_measure Prod.snd _ fun _ _ _ => rfl

/-- The reward loop adds each entry's reward to the epoch rewards. -/
theorem rewardOperator_loop_total (rewards totalCount : ℕ) (entries : List (ℕ × ℕ))
    (init : BTreeMap ℕ ℕ × ℕ) :
    ∑ k ∈ (entries.foldl (rewardOperator rewards totalCount) init).1.keys,
        (entries.foldl (rewardOperator rewards totalCount) init).1.val k =
      ∑ k ∈ init.1.keys, init.1.val k +
        (entries.map fun entry => operatorReward rewards totalCount entry.2).sum :=
  foldl_measure (fun acc : BTreeMap ℕ ℕ × ℕ => ∑ k ∈ acc.1.keys, acc.1.val k) _
    fun acc entry _ => BTreeMap.sum_upsert_add acc.1 entry.1 _

/-- The reward loop lowers no operator's epoch reward and drops none. -/
theorem rewardOperator_loop_le (rewards totalCount : ℕ) (entries : List (ℕ × ℕ))
    (init : BTreeMap ℕ ℕ × ℕ) {operatorId : ℕ} (present : operatorId ∈ init.1.keys) :
    operatorId ∈ (entries.foldl (rewardOperator rewards totalCount) init).1.keys ∧
      init.1.val operatorId ≤ (entries.foldl (rewardOperator rewards totalCount) init).1.val operatorId :=
  foldl_invariant (fun acc : BTreeMap ℕ ℕ × ℕ =>
      operatorId ∈ acc.1.keys ∧ init.1.val operatorId ≤ acc.1.val operatorId)
    ⟨present, le_rfl⟩ fun (acc : BTreeMap ℕ ℕ × ℕ) (entry : ℕ × ℕ) _ ⟨kept, below⟩ =>
      have grown := BTreeMap.le_val_upsert_add acc.1 entry.1
        (operatorReward rewards totalCount entry.2) kept
      ⟨grown.1, below.trans grown.2⟩

/-- The rewarded shares of a list of operators sum to at most the rewards:
the weights sum to the length of the list, so their fractions sum to at most
one. -/
theorem operatorRewards_sum_le (rewards : ℕ) (operators : List ℕ) :
    ((operatorWeights operators).entries.map fun entry =>
      operatorReward rewards operators.length entry.2).sum ≤ rewards := by
  rcases Nat.eq_zero_or_pos operators.length with empty | positive
  · -- no operators give no weights
    rw [List.length_eq_zero_iff.mp empty]
    simp [operatorWeights]
  · have weights : ((operatorWeights operators).entries.map Prod.snd).sum ≤ operators.length := by
      rw [BTreeMap.sum_entries]
      exact (operatorWeights_total operators).le
    have parts : (((operatorWeights operators).entries.map Prod.snd).map fun weight =>
        (PerThing.fromRational weight operators.length : Perquintill).parts).sum ≤ 10 ^ 18 :=
      PerThing.sum_fromRational_parts_le _ positive weights
    rw [List.map_map] at parts
    have shares := PerThing.sum_mulFloor_le
      ((operatorWeights operators).entries.map fun entry =>
        (PerThing.fromRational entry.2 operators.length : Perquintill)) rewards (by norm_num)
      (by rw [List.map_map]; exact parts)
    rw [List.map_map] at shares
    exact shares

/-- `do_reward_operators` always succeeds. The rewards it adds to the epoch
rewards sum to some `allocated ≤ rewards`, no entry is lowered or dropped, and
the treasury receives exactly `rewards - allocated`; nothing else changes. -/
theorem doRewardOperators_conserves (s : State A) (operators : List ℕ) (rewards : ℕ) :
    ∃ s' allocated, doRewardOperators s operators rewards = .ok s' ∧ allocated ≤ rewards ∧
      ∑ k ∈ s'.summary.currentEpochRewards.keys, s'.summary.currentEpochRewards.val k =
        ∑ k ∈ s.summary.currentEpochRewards.keys, s.summary.currentEpochRewards.val k +
          allocated ∧
      s'.treasury = s.treasury + (rewards - allocated) ∧
      (∀ k ∈ s.summary.currentEpochRewards.keys, k ∈ s'.summary.currentEpochRewards.keys ∧
        s.summary.currentEpochRewards.val k ≤ s'.summary.currentEpochRewards.val k) ∧
      s' = { s with
        summary := { s.summary with
          currentEpochRewards := s'.summary.currentEpochRewards }
        treasury := s'.treasury } := by
  by_cases zero : rewards = 0
  · -- no rewards: the source returns at once
    refine ⟨s, 0, by simp [doRewardOperators, zero], Nat.zero_le _, rfl, by simp [zero],
      fun k present => ⟨present, le_rfl⟩, rfl⟩
  · have allocated : ((operatorWeights operators).entries.foldl
        (rewardOperator rewards operators.length) (s.summary.currentEpochRewards, 0)).2 =
          ((operatorWeights operators).entries.map fun entry =>
            operatorReward rewards operators.length entry.2).sum :=
      (rewardOperator_loop_allocated _ _ _ _).trans (Nat.zero_add _)
    have within := operatorRewards_sum_le rewards operators
    rw [← allocated] at within
    refine ⟨{ s with
        summary := { s.summary with
          currentEpochRewards := ((operatorWeights operators).entries.foldl
            (rewardOperator rewards operators.length) (s.summary.currentEpochRewards, 0)).1 }
        treasury := s.treasury + (rewards - ((operatorWeights operators).entries.foldl
            (rewardOperator rewards operators.length) (s.summary.currentEpochRewards, 0)).2) },
      _, ?computed, within, ?total, rfl, ?grown, rfl⟩
    case computed =>
      simp only [doRewardOperators, zero, if_false, checkedSub, if_pos within]
      rfl
    case total =>
      rw [rewardOperator_loop_total, allocated]
    case grown =>
      exact fun k present => rewardOperator_loop_le _ _ _ _ present

end RewardOperators

/-! ## `refund_storage_fee` -/

section Refunds

/-- The refund `refund_storage_fee` credits for one entry of the paid sizes:
nothing to an operator that is gone or paid for no storage. -/
def storageFeeRefund (operators : ℕ → Option Operator) (totalStorageFee totalPaidStorage : ℕ)
    (entry : ℕ × UInt32) : ℕ :=
  if (operators entry.1).isNone ∨ entry.2 = 0 then 0
  else (PerThing.fromRational entry.2.toNat totalPaidStorage : Perquintill).mulFloor totalStorageFee

theorem storageFeeRefund_le (operators : ℕ → Option Operator) (totalStorageFee totalPaidStorage : ℕ)
    (entry : ℕ × UInt32) :
    storageFeeRefund operators totalStorageFee totalPaidStorage entry ≤
      (PerThing.fromRational entry.2.toNat totalPaidStorage : Perquintill).mulFloor
        totalStorageFee := by
  unfold storageFeeRefund
  split
  · exact Nat.zero_le _
  · exact le_rfl

/-- One iteration of the refund loop credits the entry's refund to the
operator's fund and takes it off the remaining fee, if the fee covers it. -/
theorem refundOperatorStorageFee_eq (totalStorageFee totalPaidStorage : ℕ) (s : State A)
    (remainingFee : ℕ) (entry : ℕ × UInt32)
    (enough : storageFeeRefund s.operators totalStorageFee totalPaidStorage entry ≤ remainingFee) :
    refundOperatorStorageFee totalStorageFee totalPaidStorage (s, remainingFee) entry =
      .ok (s.setStorageFund entry.1 (s.storageFundBalance entry.1 +
          storageFeeRefund s.operators totalStorageFee totalPaidStorage entry),
        remainingFee - storageFeeRefund s.operators totalStorageFee totalPaidStorage entry) := by
  unfold refundOperatorStorageFee
  by_cases skipped : (s.operators entry.1).isNone ∨ entry.2 = 0
  · have nothing : storageFeeRefund s.operators totalStorageFee totalPaidStorage entry = 0 :=
      if_pos skipped
    simp only [skipped, if_true, nothing, Nat.add_zero, Nat.sub_zero, State.setStorageFund_self]
    rfl
  · have refund : storageFeeRefund s.operators totalStorageFee totalPaidStorage entry =
        (PerThing.fromRational entry.2.toNat totalPaidStorage : Perquintill).mulFloor
          totalStorageFee := if_neg skipped
    rw [refund] at enough ⊢
    simp only [skipped, if_false, checkedSub, if_pos enough]
    rfl

/-- The refund loop over entries whose refunds the remaining fee covers: each
operator's fund grows by the refunds of its entries, and the remaining fee
shrinks by all of them. The loop reads the operators and writes only funds,
so the refunds are those of the operators the loop starts with. -/
theorem refundOperatorStorageFee_loop {totalStorageFee totalPaidStorage : ℕ}
    {operators : ℕ → Option Operator} (entries : List (ℕ × UInt32)) (s : State A)
    (remainingFee : ℕ) (same : s.operators = operators)
    (enough : (entries.map (storageFeeRefund operators totalStorageFee totalPaidStorage)).sum ≤
      remainingFee) :
    entries.foldlM (refundOperatorStorageFee totalStorageFee totalPaidStorage) (s, remainingFee) =
      .ok ({ s with
          storageFundBalance := fun operatorId => s.storageFundBalance operatorId +
            (entries.map fun entry => if entry.1 = operatorId then
              storageFeeRefund operators totalStorageFee totalPaidStorage entry else 0).sum },
        remainingFee -
          (entries.map (storageFeeRefund operators totalStorageFee totalPaidStorage)).sum) := by
  induction entries generalizing s remainingFee with
  | nil => rfl
  | cons entry rest ih =>
    rw [List.map_cons, List.sum_cons] at enough
    have first := refundOperatorStorageFee_eq totalStorageFee totalPaidStorage s remainingFee
      entry (by rw [same]; omega)
    rw [same] at first
    rw [List.foldlM_cons, first, Except.ok_bind, ih (s.setStorageFund entry.1
      (s.storageFundBalance entry.1 + storageFeeRefund operators totalStorageFee totalPaidStorage
        entry)) _ same (by omega)]
    simp only [State.setStorageFund, List.map_cons, List.sum_cons, Nat.sub_sub]
    congr 3
    funext operatorId
    by_cases here : entry.1 = operatorId
    · subst here
      simp only [Function.update_self, if_true]
      exact Nat.add_assoc _ _ _
    · simp [Function.update_of_ne (Ne.symm here), here]

/-- A `u32` sum is the sum of the sizes modulo `2³²`. -/
theorem toNat_sum_uint32 (sizes : List UInt32) :
    sizes.sum.toNat = (sizes.map UInt32.toNat).sum % 2 ^ 32 := by
  induction sizes with
  | nil => rfl
  | cons size rest ih =>
    rw [List.sum_cons, UInt32.toNat_add, ih, List.map_cons, List.sum_cons, Nat.add_mod_mod]

/-- The paid sizes summed without wrapping. -/
def paidTotal (paid : BTreeMap ℕ UInt32) : ℕ := ∑ k ∈ paid.keys, (paid.val k).toNat

/-- What `refund_storage_fee` credits to an operator's fund when the total of
the paid sizes does not wrap. -/
def storageFeeCredit (operators : ℕ → Option Operator) (totalStorageFee : ℕ)
    (paid : BTreeMap ℕ UInt32) (operatorId : ℕ) : ℕ :=
  if operatorId ∈ paid.keys then
    storageFeeRefund operators totalStorageFee (paidTotal paid) (operatorId, paid.val operatorId)
  else 0

theorem sum_entries_storageFeeRefund (operators : ℕ → Option Operator) (totalStorageFee : ℕ)
    (paid : BTreeMap ℕ UInt32) :
    (paid.entries.map (storageFeeRefund operators totalStorageFee (paidTotal paid))).sum =
      ∑ operatorId ∈ paid.keys, storageFeeCredit operators totalStorageFee paid operatorId := by
  rw [BTreeMap.sum_entries]
  exact Finset.sum_congr rfl fun operatorId member => (if_pos member).symm

/-- The loop credits each operator its own entry's refund. -/
theorem sum_entries_storageFeeRefund_of (operators : ℕ → Option Operator) (totalStorageFee : ℕ)
    (paid : BTreeMap ℕ UInt32) (operatorId : ℕ) :
    (paid.entries.map fun entry => if entry.1 = operatorId then
        storageFeeRefund operators totalStorageFee (paidTotal paid) entry else 0).sum =
      storageFeeCredit operators totalStorageFee paid operatorId := by
  rw [BTreeMap.sum_entries]
  exact Finset.sum_ite_eq' paid.keys operatorId _

/-- Without a wrap the refunds take at most the fee: the fractions of the
paid sizes sum to at most one. Sizes that sum to zero are all zero, and an
entry of no size is refunded nothing. -/
theorem storageFeeRefunds_le (operators : ℕ → Option Operator) (totalStorageFee : ℕ)
    (paid : BTreeMap ℕ UInt32) :
    (paid.entries.map (storageFeeRefund operators totalStorageFee (paidTotal paid))).sum ≤
      totalStorageFee := by
  rcases Nat.eq_zero_or_pos (paidTotal paid) with zero | positive
  · -- every size is zero, so every entry is skipped
    have skipped : ∀ refund ∈ paid.entries.map
        (storageFeeRefund operators totalStorageFee (paidTotal paid)), refund = 0 := by
      intro refund listed
      obtain ⟨entry, member, rfl⟩ := List.mem_map.mp listed
      obtain ⟨operatorId, present, rfl⟩ := List.mem_map.mp member
      have noSize : (paid.val operatorId).toNat = 0 := by
        have below := Finset.single_le_sum (fun k _ => Nat.zero_le ((paid.val k).toNat))
          (Finset.mem_ascending.mp present)
        unfold paidTotal at zero
        omega
      have empty : paid.val operatorId = 0 := UInt32.toNat_inj.mp noSize
      simp [storageFeeRefund, empty]
    rw [List.sum_eq_zero skipped]
    exact Nat.zero_le _
  · have sizes : (paid.entries.map fun entry => entry.2.toNat).sum ≤ paidTotal paid := by
      rw [BTreeMap.sum_entries]
      exact le_rfl
    have parts : ((paid.entries.map fun entry => entry.2.toNat).map fun size =>
        (PerThing.fromRational size (paidTotal paid) : Perquintill).parts).sum ≤ 10 ^ 18 :=
      PerThing.sum_fromRational_parts_le _ positive sizes
    rw [List.map_map] at parts
    have shares := PerThing.sum_mulFloor_le
      (paid.entries.map fun entry =>
        (PerThing.fromRational entry.2.toNat (paidTotal paid) : Perquintill)) totalStorageFee
      (by norm_num) (by rw [List.map_map]; exact parts)
    rw [List.map_map] at shares
    exact (List.sum_le_sum fun entry _ => storageFeeRefund_le _ _ _ entry).trans shares

/-- `refund_storage_fee` when the paid sizes sum to less than `2³²`: it
succeeds, credits each operator present in the map the refund of its size,
and sends the rest of the fee to the treasury. -/
theorem refundStorageFee_eq (s : State A) (totalStorageFee : ℕ) (paid : BTreeMap ℕ UInt32)
    (fits : paidTotal paid < 2 ^ 32) :
    ∑ operatorId ∈ paid.keys, storageFeeCredit s.operators totalStorageFee paid operatorId ≤
        totalStorageFee ∧
      refundStorageFee s totalStorageFee paid = .ok { s with
        storageFundBalance := fun operatorId => s.storageFundBalance operatorId +
          storageFeeCredit s.operators totalStorageFee paid operatorId
        treasury := s.treasury + (totalStorageFee -
          ∑ operatorId ∈ paid.keys, storageFeeCredit s.operators totalStorageFee paid operatorId) } := by
  have wrapped : (paid.entries.map Prod.snd).sum.toNat = paidTotal paid := by
    rw [toNat_sum_uint32, List.map_map, BTreeMap.sum_entries]
    exact Nat.mod_eq_of_lt fits
  have within := storageFeeRefunds_le s.operators totalStorageFee paid
  rw [sum_entries_storageFeeRefund] at within
  refine ⟨within, ?_⟩
  unfold refundStorageFee
  by_cases zero : totalStorageFee = 0
  · -- no fee: the source returns before the loop, and every credit is zero
    subst zero
    have nothing : ∀ operatorId, storageFeeCredit s.operators 0 paid operatorId = 0 := by
      intro operatorId
      unfold storageFeeCredit storageFeeRefund
      split_ifs <;> simp [PerThing.mulFloor]
    simp only [↓reduceIte, nothing, Nat.add_zero, Finset.sum_const_zero, Nat.sub_zero]
    rfl
  · have loop := refundOperatorStorageFee_loop paid.entries s totalStorageFee rfl
      ((sum_entries_storageFeeRefund s.operators totalStorageFee paid).trans_le within)
    simp only [zero, if_false, wrapped, loop, Except.ok_bind, sum_entries_storageFeeRefund_of,
      sum_entries_storageFeeRefund]
    rfl

/-- Without a wrap the fee is conserved: the funds of the operators in the
map and the treasury grow by exactly the fee, and no other fund changes. -/
theorem refundStorageFee_conserves (s : State A) (totalStorageFee : ℕ)
    (paid : BTreeMap ℕ UInt32) (fits : paidTotal paid < 2 ^ 32) :
    ∃ s', refundStorageFee s totalStorageFee paid = .ok s' ∧
      ∑ operatorId ∈ paid.keys, s'.storageFundBalance operatorId + s'.treasury =
        ∑ operatorId ∈ paid.keys, s.storageFundBalance operatorId + s.treasury +
          totalStorageFee ∧
      ∀ operatorId ∉ paid.keys, s'.storageFundBalance operatorId = s.storageFundBalance operatorId := by
  obtain ⟨within, refunded⟩ := refundStorageFee_eq s totalStorageFee paid fits
  refine ⟨_, refunded, ?conserved, fun operatorId outside => ?untouched⟩
  case conserved =>
    show ∑ operatorId ∈ paid.keys, (s.storageFundBalance operatorId +
        storageFeeCredit s.operators totalStorageFee paid operatorId) + (s.treasury +
          (totalStorageFee - ∑ operatorId ∈ paid.keys,
            storageFeeCredit s.operators totalStorageFee paid operatorId)) = _
    rw [Finset.sum_add_distrib]
    omega
  case untouched =>
    show s.storageFundBalance operatorId +
      storageFeeCredit s.operators totalStorageFee paid operatorId = _
    rw [storageFeeCredit, if_neg outside, Nat.add_zero]

/-- Sizes that sum past `u32::MAX` wrap to a total of one: both operators'
fractions saturate at one, the first refund takes the whole fee and the
second underflows. -/
theorem refundStorageFee_wrapped_total :
    refundStorageFee { (State.empty : State Bool) with
        operators := fun _ => some ⟨0, PerThing.one, 0, 0, .registered, 0, 0, 0⟩ } 1
      ⟨{0, 1}, fun operatorId => if operatorId = 0 then 2147483648 else 2147483649⟩ =
      .error .balanceUnderflow := by
  rfl

end Refunds

/-! ## `operator_take_reward_tax_and_stake` -/

section Tax

/-- What an operator record holds of the value paid to it: the stake of its
pool, the stake deposited in the epoch and the storage fee deposited. -/
def Operator.heldValue (operator : Operator) : ℕ :=
  operator.currentTotalStake + operator.depositsInEpoch + operator.totalStorageFeeDeposit

/-- The value the operator under `operatorId` holds; nothing if there is none. -/
def State.operatorValue (s : State A) (operatorId : ℕ) : ℕ :=
  ((s.operators operatorId).map Operator.heldValue).getD 0

/-- The split of a deposit loses nothing. -/
theorem NewDeposit.split_total (depositAmount : ℕ) :
    (NewDeposit.split depositAmount).staking + (NewDeposit.split depositAmount).storageFeeDeposit =
      depositAmount :=
  Nat.sub_add_cancel (PerThing.mulFloor_le_self _ _)

/-- The split of the domain chain rewards loses nothing: the equal parts of
the rewarded operators and the part for the treasury make up the rewards. -/
theorem splitDomainRewards_total (activeOperatorCount domainRewards : ℕ) :
    (splitDomainRewards activeOperatorCount domainRewards).2 +
        activeOperatorCount * (splitDomainRewards activeOperatorCount domainRewards).1 =
      domainRewards := by
  unfold splitDomainRewards
  split
  · rename_i active
    have allocated : activeOperatorCount * (PerThing.fromRational 1 activeOperatorCount :
        Perquintill).mulFloor domainRewards ≤ domainRewards :=
      PerThing.mul_mulFloor_fromRational_one_le (by norm_num) active.1 domainRewards
    show domainRewards - _ * activeOperatorCount + activeOperatorCount * _ = domainRewards
    rw [Nat.mul_comm _ activeOperatorCount]
    exact Nat.sub_add_cancel allocated
  · split
    · simp
    · rename_i none
      simp only [Nat.mul_zero, Nat.add_zero]
      exact (not_not.mp none).symm

/-- Replacing an operator's record changes the value held over a key set that
contains it by the difference of the records. The state written to may differ
from the one read elsewhere, but not in its operators. -/
theorem sum_operatorValue_of_setOperator {base s s' : State A} {keys : Finset ℕ}
    {operatorId : ℕ} {operator operator' : Operator} (member : operatorId ∈ keys)
    (present : base.operators operatorId = some operator)
    (written : s' = s.setOperator operatorId (some operator'))
    (sameOperators : s.operators = base.operators) :
    ∑ o ∈ keys, s'.operatorValue o + operator.heldValue =
      ∑ o ∈ keys, base.operatorValue o + operator'.heldValue := by
  have held : base.operatorValue operatorId = operator.heldValue := by
    simp [State.operatorValue, present]
  have values : s'.operatorValue =
      Function.update base.operatorValue operatorId operator'.heldValue := by
    funext other
    by_cases same : other = operatorId
    · subst same
      simp [State.operatorValue, written]
    · simp [State.operatorValue, written, sameOperators, same]
  rw [values, ← held]
  exact Finset.sum_update_add keys member base.operatorValue operator'.heldValue

variable [DecidableEq A]

/-- One operator of the reward loop: its reward and its part of the domain
chain rewards end up in the treasury amount or in the value its record holds,
as stake or as the owner's tax deposit. -/
theorem operatorTakeRewardTax_routes {rewardPerOperator : ℕ} {acc acc' : TaxAcc A}
    {entry : ℕ × ℕ} {keys : Finset ℕ} (member : entry.1 ∈ keys)
    (taken : operatorTakeRewardTax rewardPerOperator acc entry = .ok acc') :
    acc'.toTreasury + ∑ o ∈ keys, acc'.state.operatorValue o =
      acc.toTreasury + ∑ o ∈ keys, acc.state.operatorValue o + (entry.2 + rewardPerOperator) := by
  rcases operatorTakeRewardTax_eq_ok taken with rfl | ⟨kept, operator, present, -, -,
    ⟨-, staked, -⟩ | ⟨s₁, operator₁, -, deposited, staked, -⟩⟩
  · -- gone, slashed or pending slash: the treasury takes the reward
    simp only
    omega
  · -- no tax: the reward is staked whole
    have moved := sum_operatorValue_of_setOperator member present staked rfl
    simp only [Operator.heldValue] at moved
    omega
  · -- the tax is deposited for the owner, split into stake and storage fee
    obtain ⟨owner, -, calculated, rfl⟩ := depositOperatorTax_eq_ok deposited
    obtain ⟨deposit, -, -, rfl⟩ :=
      doCalculatePreviousEpochDepositSharesAndAddNewDeposit_eq_ok calculated
    have moved := sum_operatorValue_of_setOperator member present staked rfl
    have split := NewDeposit.split_total
      (operator.nominationTax.mulFloor (entry.2 + rewardPerOperator))
    have taxed := PerThing.mulFloor_le_self operator.nominationTax (entry.2 + rewardPerOperator)
    simp only [Operator.heldValue] at moved
    omega

/-- One operator of the reward loop writes no treasury, domain chain rewards
or summary, and no other operator. -/
theorem operatorTakeRewardTax_frame {rewardPerOperator : ℕ} {acc acc' : TaxAcc A}
    {entry : ℕ × ℕ} (taken : operatorTakeRewardTax rewardPerOperator acc entry = .ok acc') :
    acc'.state.treasury = acc.state.treasury ∧
      acc'.state.domainChainRewards = acc.state.domainChainRewards ∧
      acc'.state.summary = acc.state.summary ∧
      ∀ o ≠ entry.1, acc'.state.operators o = acc.state.operators o := by
  rcases operatorTakeRewardTax_eq_ok taken with rfl | ⟨-, operator, -, -, -,
    ⟨-, staked, -⟩ | ⟨s₁, operator₁, -, deposited, staked, -⟩⟩
  · exact ⟨rfl, rfl, rfl, fun _ _ => rfl⟩
  · rw [staked]
    exact ⟨rfl, rfl, rfl, fun o other => by simp [other]⟩
  · obtain ⟨owner, -, calculated, rfl⟩ := depositOperatorTax_eq_ok deposited
    obtain ⟨deposit, -, -, rfl⟩ :=
      doCalculatePreviousEpochDepositSharesAndAddNewDeposit_eq_ok calculated
    rw [staked]
    exact ⟨rfl, rfl, rfl, fun o other => by simp [other, holdDeposit]⟩

/-- `operator_take_reward_tax_and_stake` loses and creates nothing: the
treasury and the value held by the rewarded operators grow by exactly the
domain chain rewards and the epoch rewards, which it clears. Operators without
an epoch reward are not touched. -/
theorem operatorTakeRewardTaxAndStake_routes {s s' : State A} {rewardedOperatorCount : ℕ}
    {operatorsWithSelfDeposits : Finset ℕ}
    (taken : operatorTakeRewardTaxAndStake s =
      .ok (s', rewardedOperatorCount, operatorsWithSelfDeposits)) :
    s'.treasury + ∑ o ∈ s.summary.currentEpochRewards.keys, s'.operatorValue o =
        s.treasury + ∑ o ∈ s.summary.currentEpochRewards.keys, s.operatorValue o +
          (s.domainChainRewards +
            ∑ o ∈ s.summary.currentEpochRewards.keys, s.summary.currentEpochRewards.val o) ∧
      s'.domainChainRewards = 0 ∧ s'.summary.currentEpochRewards = .empty 0 ∧
      ∀ o ∉ s.summary.currentEpochRewards.keys, s'.operators o = s.operators o := by
  obtain ⟨acc, ran, rfl, -⟩ := operatorTakeRewardTaxAndStake_eq_ok taken
  -- the loop runs over the epoch rewards; each iteration pays out its entry
  have routed := foldlM_measure (fun acc : TaxAcc A =>
      acc.toTreasury + ∑ o ∈ s.summary.currentEpochRewards.keys, acc.state.operatorValue o)
    (fun entry : ℕ × ℕ => entry.2 +
      (splitDomainRewards s.summary.currentEpochRewards.keys.card s.domainChainRewards).1)
    (fun _ _ _ listed step =>
      operatorTakeRewardTax_routes (BTreeMap.mem_keys_of_mem_entries listed) step) ran
  have framed := foldlM_invariant (fun acc : TaxAcc A =>
      acc.state.treasury = s.treasury ∧ acc.state.domainChainRewards = 0 ∧
        acc.state.summary.currentEpochRewards = .empty 0 ∧
        ∀ o ∉ s.summary.currentEpochRewards.keys, acc.state.operators o = s.operators o)
    ⟨rfl, rfl, rfl, fun _ _ => rfl⟩
    (fun _ entry _ listed ⟨treasury, rewards, summary, others⟩ step =>
      have kept := operatorTakeRewardTax_frame step
      ⟨kept.1.trans treasury, kept.2.1.trans rewards, (congrArg _ kept.2.2.1).trans summary,
        fun o outside => (kept.2.2.2 o fun same => outside
          (same ▸ BTreeMap.mem_keys_of_mem_entries listed)).trans (others o outside)⟩) ran
  obtain ⟨treasury, rewards, summary, others⟩ := framed
  have split := splitDomainRewards_total s.summary.currentEpochRewards.keys.card
    s.domainChainRewards
  have paid : (s.summary.currentEpochRewards.entries.map fun entry : ℕ × ℕ => entry.2 +
      (splitDomainRewards s.summary.currentEpochRewards.keys.card s.domainChainRewards).1).sum =
      ∑ o ∈ s.summary.currentEpochRewards.keys, s.summary.currentEpochRewards.val o +
        s.summary.currentEpochRewards.keys.card *
          (splitDomainRewards s.summary.currentEpochRewards.keys.card s.domainChainRewards).1 := by
    rw [BTreeMap.sum_entries, Finset.sum_add_distrib, Finset.sum_const_nat fun _ _ => rfl]
  refine ⟨?_, rewards, summary, others⟩
  -- the value held is read off the operators, which the final write keeps
  show acc.state.treasury + acc.toTreasury +
      ∑ o ∈ s.summary.currentEpochRewards.keys, acc.state.operatorValue o = _
  rw [treasury]
  simp only at routed
  rw [paid] at routed
  have initial : ∑ o ∈ s.summary.currentEpochRewards.keys,
      State.operatorValue { s with
        domainChainRewards := 0
        summary := { s.summary with currentEpochRewards := .empty 0 } } o =
      ∑ o ∈ s.summary.currentEpochRewards.keys, s.operatorValue o := rfl
  rw [initial] at routed
  omega

end Tax

/-- Reward and refund distribution move value without loss: rewards split by
weight never exceed the amount and the treasury gets the rest; a storage fee
refund whose paid sizes do not wrap their `u32` total reaches the funds and
the treasury in full; and the epoch's payout of rewards puts every unit of
the domain chain rewards and the epoch rewards in the treasury or in the value
the rewarded operators hold. -/
theorem reward_and_refund_distribution_conserves :
    (∀ {A : Type} (s : State A) (operators : List ℕ) (rewards : ℕ),
      ∃ s' allocated, doRewardOperators s operators rewards = .ok s' ∧ allocated ≤ rewards ∧
        ∑ k ∈ s'.summary.currentEpochRewards.keys, s'.summary.currentEpochRewards.val k =
          ∑ k ∈ s.summary.currentEpochRewards.keys, s.summary.currentEpochRewards.val k +
            allocated ∧
        s'.treasury = s.treasury + (rewards - allocated) ∧
        (∀ k ∈ s.summary.currentEpochRewards.keys, k ∈ s'.summary.currentEpochRewards.keys ∧
          s.summary.currentEpochRewards.val k ≤ s'.summary.currentEpochRewards.val k) ∧
        s' = { s with
          summary := { s.summary with
            currentEpochRewards := s'.summary.currentEpochRewards }
          treasury := s'.treasury }) ∧
    (∀ {A : Type} (s : State A) (totalStorageFee : ℕ) (paid : BTreeMap ℕ UInt32),
      paidTotal paid < 2 ^ 32 →
      ∃ s', refundStorageFee s totalStorageFee paid = .ok s' ∧
        ∑ operatorId ∈ paid.keys, s'.storageFundBalance operatorId + s'.treasury =
          ∑ operatorId ∈ paid.keys, s.storageFundBalance operatorId + s.treasury +
            totalStorageFee ∧
        ∀ operatorId ∉ paid.keys,
          s'.storageFundBalance operatorId = s.storageFundBalance operatorId) ∧
    ∀ {A : Type} [DecidableEq A] (s s' : State A) (rewardedOperatorCount : ℕ)
      (operatorsWithSelfDeposits : Finset ℕ),
      operatorTakeRewardTaxAndStake s =
        .ok (s', rewardedOperatorCount, operatorsWithSelfDeposits) →
      s'.treasury + ∑ o ∈ s.summary.currentEpochRewards.keys, s'.operatorValue o =
          s.treasury + ∑ o ∈ s.summary.currentEpochRewards.keys, s.operatorValue o +
            (s.domainChainRewards +
              ∑ o ∈ s.summary.currentEpochRewards.keys, s.summary.currentEpochRewards.val o) ∧
        s'.domainChainRewards = 0 ∧ s'.summary.currentEpochRewards = .empty 0 ∧
        ∀ o ∉ s.summary.currentEpochRewards.keys, s'.operators o = s.operators o :=
  ⟨doRewardOperators_conserves, refundStorageFee_conserves,
    fun _ _ _ _ taken => operatorTakeRewardTaxAndStake_routes taken⟩

/-- Two registered operators that paid for one and two units of storage share a fee of `10`.
After `nominateAndWithdraw`, a reward of `100` to operator `0` and `5` of chain rewards, the
epoch's tax and stake take both. -/
theorem reward_and_refund_distribution_conserves_two_operators :
    let s : State Bool := { State.empty with
      operators := fun _ => some ⟨0, PerThing.one, 0, 0, .registered, 0, 0, 0⟩ }
    let paid : BTreeMap ℕ UInt32 := ⟨{0, 1}, fun operatorId => if operatorId = 0 then 1 else 2⟩
    (paidTotal paid < 2 ^ 32 ∧
      ∃ s', refundStorageFee s 10 paid = .ok s' ∧
        ∑ operatorId ∈ paid.keys, s'.storageFundBalance operatorId + s'.treasury =
          ∑ operatorId ∈ paid.keys, s.storageFundBalance operatorId + s.treasury + 10 ∧
        ∀ operatorId ∉ paid.keys,
          s'.storageFundBalance operatorId = s.storageFundBalance operatorId) ∧
    ∃ s s' rewardedOperatorCount operatorsWithSelfDeposits, Reachable sampleConfig s ∧
      s.summary.currentEpochRewards.keys = {0} ∧ s.domainChainRewards = 5 ∧
      operatorTakeRewardTaxAndStake s =
        .ok (s', rewardedOperatorCount, operatorsWithSelfDeposits) ∧
      s'.treasury + ∑ o ∈ s.summary.currentEpochRewards.keys, s'.operatorValue o =
          s.treasury + ∑ o ∈ s.summary.currentEpochRewards.keys, s.operatorValue o +
            (s.domainChainRewards +
              ∑ o ∈ s.summary.currentEpochRewards.keys, s.summary.currentEpochRewards.val o) ∧
        s'.domainChainRewards = 0 ∧ s'.summary.currentEpochRewards = .empty 0 ∧
        ∀ o ∉ s.summary.currentEpochRewards.keys, s'.operators o = s.operators o := by
  intro s paid
  have paidBelow : paidTotal paid < 2 ^ 32 := by decide
  obtain ⟨reached, reachable, rewarded, chainRewards, taxed⟩ := exists_reachable_of_run sampleConfig
    (nominateAndWithdraw ++ [.rewardOperators [0] 100, .addDomainChainRewards 5])
    (P := fun s => s.summary.currentEpochRewards.keys = {0} ∧ s.domainChainRewards = 5 ∧
      (operatorTakeRewardTaxAndStake s).toBool = true) (by decide)
  refine ⟨⟨paidBelow, reward_and_refund_distribution_conserves.2.1 s 10 paid paidBelow⟩, ?_⟩
  cases taken : operatorTakeRewardTaxAndStake reached with
  | error e =>
    rw [taken] at taxed
    cases taxed
  | ok result =>
    obtain ⟨s', rewardedOperatorCount, operatorsWithSelfDeposits⟩ := result
    exact ⟨reached, s', rewardedOperatorCount, operatorsWithSelfDeposits, reachable, rewarded,
      chainRewards, taken, reward_and_refund_distribution_conserves.2.2 _ _ _ _ taken⟩

end Subspace.Staking
