import Subspace.Domains.Staking.EpochSpec
import Mathlib.Algebra.Order.Field.Basic
import Mathlib.Data.Rat.Cast.Order

/-!
# Share-price rounding favours the pool

`SharePrice::new(S, T)` floors `S / T` to a `Perquintill`; `stake_to_shares`
floors once more, and `shares_to_stake` rounds the price up by one part
(`plus_epsilon`) before flooring the reciprocal. Each direction of rounding
keeps the holder at or below the exact value: stake converts to at most
`x · S / T` shares, shares to at most `s · T / S` stake, and a round trip never
returns more stake than went in.

At the end of an epoch `do_finalize_operator_epoch_staking` settles the
epoch's withdrawals and deposits at that price. Because withdrawn shares
never take out more than their exact stake, the pool still has at least as
much stake as shares afterwards, and the subtraction never underflows.
-/

namespace Subspace.Staking

variable {A : Type}

namespace SharePrice

theorem sharesToStake_le_totalStake {totalShares totalStake shares : ℕ} {p : SharePrice}
    (built : new totalShares totalStake = .ok p) (within : shares ≤ totalShares) :
    p.sharesToStake shares ≤ totalStake := by
  obtain ⟨positive, -, -⟩ := new_eq_ok.mp built
  have exact := sharesToStake_mul_le built shares
  have scaled : p.sharesToStake shares * totalShares ≤ totalStake * totalShares :=
    exact.trans (by rw [Nat.mul_comm totalStake]; exact Nat.mul_le_mul_right _ within)
  exact Nat.le_of_mul_le_mul_right scaled positive

/-- What is left of the pool after `shares` leave at the price still has no
more shares than stake. -/
theorem remaining_shares_le_remaining_stake {totalShares totalStake shares : ℕ}
    {p : SharePrice} (built : new totalShares totalStake = .ok p) (within : shares ≤ totalShares) :
    totalShares - shares + p.sharesToStake shares ≤ totalStake := by
  obtain ⟨positive, below, -⟩ := new_eq_ok.mp built
  have exact := sharesToStake_mul_le built shares
  obtain ⟨rest, rfl⟩ : ∃ rest, totalShares = shares + rest := ⟨totalShares - shares, by omega⟩
  rw [Nat.add_sub_cancel_left]
  -- multiplied out by the shares: `rest · S + (stake of shares) · S ≤ T · S`
  have scaled : (rest + p.sharesToStake shares) * (shares + rest) ≤
      totalStake * (shares + rest) := by
    have restPart : rest * (shares + rest) ≤ rest * totalStake := Nat.mul_le_mul_left _ below
    calc (rest + p.sharesToStake shares) * (shares + rest)
        = rest * (shares + rest) + p.sharesToStake shares * (shares + rest) := Nat.add_mul _ _ _
      _ ≤ rest * totalStake + shares * totalStake := Nat.add_le_add restPart exact
      _ = totalStake * (shares + rest) := by rw [Nat.mul_comm totalStake, Nat.add_mul]; ac_rfl
  exact Nat.le_of_mul_le_mul_right scaled positive

end SharePrice

/-- The epoch's withdrawals of shares the pool holds always settle. -/
theorem settleEpochWithdrawals_of_within {operator : Operator} {p : SharePrice}
    (built : SharePrice.new operator.currentTotalShares operator.currentTotalStake = .ok p)
    (within : operator.withdrawalsInEpoch ≤ operator.currentTotalShares) :
    settleEpochWithdrawals p operator = .ok (operator.currentTotalStake -
      p.sharesToStake operator.withdrawalsInEpoch,
        operator.currentTotalShares - operator.withdrawalsInEpoch) := by
  have affordable := SharePrice.sharesToStake_le_totalStake built within
  unfold settleEpochWithdrawals
  split
  · rename_i none
    simp [none]
  · simp [checkedSub, affordable, within]

/-- `do_finalize_operator_epoch_staking` of an operator whose withdrawn
shares are part of its pool: the call succeeds, and the operator's new totals
are its shares less the withdrawn ones plus the shares bought by the deposits,
and its stake less the stake of the withdrawn shares plus the deposits. -/
theorem doFinalizeOperatorEpochStaking_totals {s : State A} {operatorId previousEpoch : ℕ}
    {checkStatus : Bool} {operator : Operator} {p : SharePrice}
    (present : s.operators operatorId = some operator)
    (registered : checkStatus = true → operator.status s operatorId = .registered)
    (built : SharePrice.new operator.currentTotalShares operator.currentTotalStake = .ok p)
    (within : operator.withdrawalsInEpoch ≤ operator.currentTotalShares) :
    ∃ s' changed, doFinalizeOperatorEpochStaking s operatorId previousEpoch checkStatus =
      .ok (s', operator.currentTotalStake - p.sharesToStake operator.withdrawalsInEpoch +
        operator.depositsInEpoch, changed) ∧
      s'.operators operatorId = some { operator with
        currentTotalShares := operator.currentTotalShares - operator.withdrawalsInEpoch +
          p.stakeToShares operator.depositsInEpoch
        currentTotalStake := operator.currentTotalStake -
          p.sharesToStake operator.withdrawalsInEpoch + operator.depositsInEpoch
        depositsInEpoch := 0
        withdrawalsInEpoch := 0 } := by
  have settled := settleEpochWithdrawals_of_within built within
  have guard : ensure (checkStatus = true → operator.status s operatorId = .registered)
      Error.operatorNotRegistered = .ok () := ensure_eq_ok.mpr registered
  by_cases unchanged : operator.depositsInEpoch = 0 ∧ operator.withdrawalsInEpoch = 0
  · -- nothing moved in the epoch: the source returns early and the record stays
    obtain ⟨noDeposits, noWithdrawals⟩ := unchanged
    refine ⟨s, false, ?_, ?_⟩
    · simp [doFinalizeOperatorEpochStaking, present, guard, noDeposits, noWithdrawals]
    · rw [present, noDeposits, noWithdrawals]
      cases operator
      simp_all
  · have computed : doFinalizeOperatorEpochStaking s operatorId previousEpoch checkStatus =
        .ok ((s.setSharePrice operatorId previousEpoch p).setOperator operatorId (some { operator with
          currentTotalShares := operator.currentTotalShares - operator.withdrawalsInEpoch +
            p.stakeToShares operator.depositsInEpoch
          currentTotalStake := operator.currentTotalStake -
            p.sharesToStake operator.withdrawalsInEpoch + operator.depositsInEpoch
          depositsInEpoch := 0
          withdrawalsInEpoch := 0 }), operator.currentTotalStake -
            p.sharesToStake operator.withdrawalsInEpoch + operator.depositsInEpoch, true) := by
      -- without deposits the source skips the deposit step; adding nothing agrees with that
      simp only [doFinalizeOperatorEpochStaking, present, guard, Except.ok_bind, if_neg unchanged,
        built, settled]
      by_cases noDeposits : operator.depositsInEpoch = 0 <;>
      · simp only [noDeposits, if_true, if_false, SharePrice.stakeToShares_zero, Nat.add_zero]
        rfl
    exact ⟨_, true, computed, by simp⟩

/-- `SharePrice::new` accepts every `0 < S ≤ T`, and at the price it builds no
conversion hands the holder more than the exact amount; an epoch settled at
that price leaves the pool with no more shares than stake. -/
theorem share_price_rounding_favours_pool {S T : ℕ} (positive : 0 < S) (within : S ≤ T) :
    ∃ p, SharePrice.new S T = .ok p ∧
      (∀ stake : ℕ, (p.stakeToShares stake : ℚ) ≤ stake * S / T) ∧
      (∀ shares : ℕ, shares ≤ S → (p.sharesToStake shares : ℚ) ≤ shares * T / S) ∧
      (∀ stake : ℕ, p.sharesToStake (p.stakeToShares stake) ≤ stake) ∧
      ∀ {A : Type} (s : State A) (operatorId previousEpoch : ℕ) (checkStatus : Bool)
        (operator : Operator), s.operators operatorId = some operator →
        (checkStatus = true → operator.status s operatorId = .registered) →
        operator.currentTotalShares = S → operator.currentTotalStake = T →
        operator.withdrawalsInEpoch ≤ S →
        S - operator.withdrawalsInEpoch + p.stakeToShares operator.depositsInEpoch ≤
          T - p.sharesToStake operator.withdrawalsInEpoch + operator.depositsInEpoch ∧
        ∃ s' changed, doFinalizeOperatorEpochStaking s operatorId previousEpoch checkStatus =
          .ok (s', T - p.sharesToStake operator.withdrawalsInEpoch + operator.depositsInEpoch,
            changed) ∧
          s'.operators operatorId = some { operator with
            currentTotalShares :=
              S - operator.withdrawalsInEpoch + p.stakeToShares operator.depositsInEpoch
            currentTotalStake :=
              T - p.sharesToStake operator.withdrawalsInEpoch + operator.depositsInEpoch
            depositsInEpoch := 0
            withdrawalsInEpoch := 0 } := by
  have built : SharePrice.new S T = .ok ⟨PerThing.fromRational S T⟩ :=
    SharePrice.new_eq_ok.mpr ⟨positive, within, rfl⟩
  refine ⟨_, built, ?stakeBound, ?sharesBound, ?roundTrip, ?finalized⟩
  case stakeBound =>
    intro stake
    have exact := SharePrice.stakeToShares_mul_le built stake
    rw [le_div_iff₀ (by exact_mod_cast (by omega : 0 < T))]
    exact_mod_cast exact
  case sharesBound =>
    intro shares _
    have exact := SharePrice.sharesToStake_mul_le built shares
    rw [le_div_iff₀ (by exact_mod_cast positive)]
    exact_mod_cast exact
  case roundTrip => exact SharePrice.sharesToStake_stakeToShares_le _
  case finalized =>
    intro A s operatorId previousEpoch checkStatus operator present registered shares stake
      withdrawn
    subst shares stake
    have remaining := SharePrice.remaining_shares_le_remaining_stake built withdrawn
    have affordable := SharePrice.sharesToStake_le_totalStake built withdrawn
    have bought := SharePrice.stakeToShares_le ⟨PerThing.fromRational operator.currentTotalShares
      operator.currentTotalStake⟩ operator.depositsInEpoch
    exact ⟨by omega, doFinalizeOperatorEpochStaking_totals present registered built withdrawn⟩

/-- At equal totals of one the price is one, and the rounding theorem applies. -/
theorem share_price_rounding_favours_pool_one :
    ∃ p, SharePrice.new 1 1 = .ok p ∧
      (∀ stake : ℕ, (p.stakeToShares stake : ℚ) ≤ stake * 1 / 1) ∧
      (∀ shares : ℕ, shares ≤ 1 → (p.sharesToStake shares : ℚ) ≤ shares * 1 / 1) ∧
      (∀ stake : ℕ, p.sharesToStake (p.stakeToShares stake) ≤ stake) ∧
      ∀ {A : Type} (s : State A) (operatorId previousEpoch : ℕ) (checkStatus : Bool)
        (operator : Operator), s.operators operatorId = some operator →
        (checkStatus = true → operator.status s operatorId = .registered) →
        operator.currentTotalShares = 1 → operator.currentTotalStake = 1 →
        operator.withdrawalsInEpoch ≤ 1 →
        1 - operator.withdrawalsInEpoch + p.stakeToShares operator.depositsInEpoch ≤
          1 - p.sharesToStake operator.withdrawalsInEpoch + operator.depositsInEpoch ∧
        ∃ s' changed, doFinalizeOperatorEpochStaking s operatorId previousEpoch checkStatus =
          .ok (s', 1 - p.sharesToStake operator.withdrawalsInEpoch + operator.depositsInEpoch,
            changed) ∧
          s'.operators operatorId = some { operator with
            currentTotalShares :=
              1 - operator.withdrawalsInEpoch + p.stakeToShares operator.depositsInEpoch
            currentTotalStake :=
              1 - p.sharesToStake operator.withdrawalsInEpoch + operator.depositsInEpoch
            depositsInEpoch := 0
            withdrawalsInEpoch := 0 } :=
  share_price_rounding_favours_pool Nat.one_pos le_rfl

end Subspace.Staking
