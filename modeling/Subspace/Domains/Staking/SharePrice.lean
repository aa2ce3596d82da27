import Subspace.Domains.Staking.Types

/-!
# ℕ prices and the storage fund redeem price

`SharePrice::new`, `stake_to_shares` and `shares_to_stake` (`staking.rs`),
and `StorageFundRedeemPrice::redeem` and the storage fee reserve of
`deposit_reserve_for_storage_fund` (`bundle_storage_fund.rs`), with the
bounds the later proofs use: a price built by `SharePrice::new` never
exceeds one, converting stake to shares never creates shares, and a redeem
of at most the total deposit never exceeds the fund balance.
-/

namespace Subspace.Staking

/-- `checked_sub(..).ok_or(e)`. -/
def checkedSub {ε : Type} (e : ε) (a b : ℕ) : Except ε ℕ :=
  if b ≤ a then .ok (a - b) else .error e

theorem checkedSub_eq_ok {ε : Type} {e : ε} {a b c : ℕ} :
    checkedSub e a b = .ok c ↔ b ≤ a ∧ c = a - b := by
  unfold checkedSub
  split
  · simp_all [eq_comm]
  · simp_all

theorem checkedSub_eq_error {ε : Type} {e e' : ε} {a b : ℕ} :
    checkedSub e a b = .error e' ↔ a < b ∧ e = e' := by
  unfold checkedSub
  split
  · simp only [reduceCtorEq, false_iff, not_and]
    omega
  · simp_all

namespace SharePrice

/-- `SharePrice::new`: rejects more shares than stake, and a zero side. -/
def new (totalShares : ℕ) (totalStake : ℕ) : Except Error SharePrice :=
  if totalStake < totalShares then .error .shareOverflow
  else if totalStake = 0 ∨ totalShares = 0 then .error .zeroSharePrice
  else .ok ⟨PerThing.fromRational totalShares totalStake⟩

/-- `stake_to_shares`: rounds down. -/
def stakeToShares (p : SharePrice) (stake : ℕ) : ℕ := p.price.mulFloor stake

/-- `shares_to_stake`: `shares / price`, with the price rounded up first
(`plus_epsilon`) so that the stake is rounded down. -/
def sharesToStake (p : SharePrice) (shares : ℕ) : ℕ :=
  p.price.plusEpsilon.saturatingReciprocalMulFloor shares balanceMax

/-- `SharePrice::one`. -/
def one : SharePrice := ⟨PerThing.one⟩

theorem new_eq_ok {totalShares : ℕ} {totalStake : ℕ} {p : SharePrice} :
    new totalShares totalStake = .ok p ↔
      0 < totalShares ∧ totalShares ≤ totalStake ∧
        p = ⟨PerThing.fromRational totalShares totalStake⟩ := by
  unfold new
  by_cases tooMany : totalStake < totalShares
  · simp only [tooMany, if_true, reduceCtorEq, false_iff]
    rintro ⟨-, within, -⟩
    omega
  · by_cases zero : totalStake = 0 ∨ totalShares = 0
    · simp only [tooMany, zero, if_true, if_false, reduceCtorEq, false_iff]
      rintro ⟨positive, within, -⟩
      omega
    · simp only [tooMany, zero, if_false, Except.ok.injEq]
      constructor
      · rintro rfl
        exact ⟨by omega, by omega, rfl⟩
      · rintro ⟨-, -, rfl⟩
        rfl

theorem new_eq_error {totalShares totalStake : ℕ} {e : Error}
    (failed : new totalShares totalStake = .error e) : e = .shareOverflow ∨ e = .zeroSharePrice := by
  unfold new at failed
  split at failed
  · cases failed
    exact .inl rfl
  · split at failed
    · cases failed
      exact .inr rfl
    · cases failed

theorem stakeToShares_le (p : SharePrice) (stake : ℕ) : p.stakeToShares stake ≤ stake :=
  PerThing.mulFloor_le_self _ _

theorem stakeToShares_add_le (p : SharePrice) (a b : ℕ) :
    p.stakeToShares a + p.stakeToShares b ≤ p.stakeToShares (a + b) :=
  PerThing.mulFloor_add_le _ _ _

@[simp] theorem stakeToShares_one (stake : ℕ) : one.stakeToShares stake = stake :=
  PerThing.mulFloor_one (by norm_num) stake

theorem sharesToStake_one {shares : ℕ} (fits : shares ≤ balanceMax) :
    one.sharesToStake shares = shares := by
  unfold sharesToStake one
  rw [PerThing.plusEpsilon_one]
  exact PerThing.saturatingReciprocalMulFloor_one (by norm_num) fits

/-- A price built from equal totals is one. -/
theorem new_self {total : ℕ} (positive : 0 < total) : new total total = .ok one := by
  rw [new_eq_ok]
  exact ⟨positive, le_refl _, by rw [PerThing.fromRational_self positive]; rfl⟩

@[simp] theorem stakeToShares_zero (p : SharePrice) : p.stakeToShares 0 = 0 := by
  simp [stakeToShares, PerThing.mulFloor]

@[simp] theorem sharesToStake_zero (p : SharePrice) : p.sharesToStake 0 = 0 :=
  PerThing.saturatingReciprocalMulFloor_zero _ _ (PerThing.plusEpsilon_parts_pos (by norm_num) _)

/-- `stake_to_shares` rounds down: it never exceeds `stake · S / T`. -/
theorem stakeToShares_mul_le {totalShares totalStake : ℕ} {p : SharePrice}
    (built : new totalShares totalStake = .ok p) (stake : ℕ) :
    p.stakeToShares stake * totalStake ≤ stake * totalShares := by
  obtain ⟨positive, within, rfl⟩ := new_eq_ok.mp built
  have price : (PerThing.fromRational totalShares totalStake : Perquintill).parts * totalStake ≤
      10 ^ 18 * totalShares := PerThing.fromRational_parts_mul_le (by omega) within
  have floor := PerThing.mulFloor_mul_le
    (PerThing.fromRational totalShares totalStake : Perquintill) stake
  have scaled : 10 ^ 18 * (stakeToShares ⟨PerThing.fromRational totalShares totalStake⟩ stake *
      totalStake) ≤ 10 ^ 18 * (stake * totalShares) := by
    calc 10 ^ 18 * (stakeToShares ⟨PerThing.fromRational totalShares totalStake⟩ stake * totalStake)
        = (PerThing.fromRational totalShares totalStake : Perquintill).mulFloor stake * 10 ^ 18 *
            totalStake := by rw [stakeToShares]; ac_rfl
      _ ≤ stake * (PerThing.fromRational totalShares totalStake : Perquintill).parts * totalStake :=
          Nat.mul_le_mul_right _ floor
      _ = stake * ((PerThing.fromRational totalShares totalStake : Perquintill).parts * totalStake) :=
          by ac_rfl
      _ ≤ stake * (10 ^ 18 * totalShares) := Nat.mul_le_mul_left _ price
      _ = 10 ^ 18 * (stake * totalShares) := by ac_rfl
  exact Nat.le_of_mul_le_mul_left scaled (by norm_num)

/-- `shares_to_stake` rounds down: it never exceeds `shares · T / S`, because
`plus_epsilon` rounds the price up before the reciprocal is floored. -/
theorem sharesToStake_mul_le {totalShares totalStake : ℕ} {p : SharePrice}
    (built : new totalShares totalStake = .ok p) (shares : ℕ) :
    p.sharesToStake shares * totalShares ≤ shares * totalStake := by
  obtain ⟨positive, within, rfl⟩ := new_eq_ok.mp built
  set rounded := (PerThing.fromRational totalShares totalStake : Perquintill).plusEpsilon
  have price : 10 ^ 18 * totalShares ≤ rounded.parts * totalStake :=
    PerThing.le_plusEpsilon_fromRational_mul (by omega) within
  have reciprocal : sharesToStake ⟨PerThing.fromRational totalShares totalStake⟩ shares *
      rounded.parts ≤ shares * 10 ^ 18 :=
    PerThing.saturatingReciprocalMulFloor_mul_le _ _ _ (PerThing.plusEpsilon_parts_pos (by norm_num) _)
  have scaled : 10 ^ 18 * (sharesToStake ⟨PerThing.fromRational totalShares totalStake⟩ shares *
      totalShares) ≤ 10 ^ 18 * (shares * totalStake) := by
    calc 10 ^ 18 * (sharesToStake ⟨PerThing.fromRational totalShares totalStake⟩ shares *
          totalShares)
        = sharesToStake ⟨PerThing.fromRational totalShares totalStake⟩ shares *
            (10 ^ 18 * totalShares) := by ac_rfl
      _ ≤ sharesToStake ⟨PerThing.fromRational totalShares totalStake⟩ shares *
            (rounded.parts * totalStake) := Nat.mul_le_mul_left _ price
      _ = sharesToStake ⟨PerThing.fromRational totalShares totalStake⟩ shares * rounded.parts *
            totalStake := by ac_rfl
      _ ≤ shares * 10 ^ 18 * totalStake := Nat.mul_le_mul_right _ reciprocal
      _ = 10 ^ 18 * (shares * totalStake) := by ac_rfl
  exact Nat.le_of_mul_le_mul_left scaled (by norm_num)

/-- Converting stake to shares and back never gives out more stake, at any
price. -/
theorem sharesToStake_stakeToShares_le (p : SharePrice) (stake : ℕ) :
    p.sharesToStake (p.stakeToShares stake) ≤ stake := by
  have positive : 0 < p.price.plusEpsilon.parts := PerThing.plusEpsilon_parts_pos (by norm_num) _
  have floor : p.stakeToShares stake * 10 ^ 18 ≤ stake * p.price.parts :=
    PerThing.mulFloor_mul_le _ _
  have reciprocal : p.sharesToStake (p.stakeToShares stake) * p.price.plusEpsilon.parts ≤
      p.stakeToShares stake * 10 ^ 18 :=
    PerThing.saturatingReciprocalMulFloor_mul_le _ _ _ positive
  have rounded : stake * p.price.parts ≤ stake * p.price.plusEpsilon.parts :=
    Nat.mul_le_mul_left _ (PerThing.parts_le_plusEpsilon _)
  exact Nat.le_of_mul_le_mul_right (reciprocal.trans (floor.trans rounded)) positive

end SharePrice

/-- `NewDeposit`: a deposit split into its staked part and its storage fee. -/
structure NewDeposit where
  staking : ℕ
  storageFeeDeposit : ℕ
deriving DecidableEq, Repr

/-- `STORAGE_FEE_RESERVE`: twenty percent, as a `Perquintill`. -/
def storageFeeReserve : Perquintill := PerThing.fromParts (2 * 10 ^ 17)

/-- The split `deposit_reserve_for_storage_fund` makes of `depositAmount`:
the reserve goes to the operator's storage fund, the rest is staked. -/
def NewDeposit.ofAmount (depositAmount : ℕ) : Except Error NewDeposit := do
  let reserve := storageFeeReserve.mulFloor depositAmount
  let staking ← checkedSub Error.balanceUnderflow depositAmount reserve
  return ⟨staking, reserve⟩

theorem NewDeposit.ofAmount_eq (depositAmount : ℕ) :
    NewDeposit.ofAmount depositAmount =
      .ok ⟨depositAmount - storageFeeReserve.mulFloor depositAmount,
        storageFeeReserve.mulFloor depositAmount⟩ := by
  have fits : storageFeeReserve.mulFloor depositAmount ≤ depositAmount :=
    PerThing.mulFloor_le_self _ _
  simp [NewDeposit.ofAmount, checkedSub, fits]

/-- The staked part of a nonzero deposit is never zero: the reserve is a
fraction strictly below one. -/
theorem NewDeposit.staking_pos {depositAmount : ℕ} (positive : 0 < depositAmount) :
    0 < depositAmount - storageFeeReserve.mulFloor depositAmount := by
  have below : storageFeeReserve.parts < 10 ^ 18 := by decide
  exact Nat.sub_pos_of_lt (PerThing.mulFloor_lt_self storageFeeReserve below positive)

/-- `StorageFundRedeemPrice((total_balance, total_deposit))`. -/
structure StorageFundRedeemPrice where
  totalBalance : ℕ
  totalDeposit : ℕ
deriving DecidableEq, Repr

/-- `StorageFundRedeemPrice::redeem`: `total_balance · deposit / total_deposit`. -/
def StorageFundRedeemPrice.redeem (p : StorageFundRedeemPrice) (deposit : ℕ) : ℕ :=
  if p.totalBalance = p.totalDeposit then deposit
  else (PerThing.fromRational deposit p.totalDeposit : Perquintill).mulFloor p.totalBalance

/-- A redeem of no more than the total deposit pays out no more than the fund holds. -/
theorem StorageFundRedeemPrice.redeem_le_totalBalance (p : StorageFundRedeemPrice)
    {deposit : ℕ} (within : deposit ≤ p.totalDeposit) : p.redeem deposit ≤ p.totalBalance := by
  unfold redeem
  split
  · rename_i same
    rw [same]
    exact within
  · exact PerThing.mulFloor_le_self _ _

end Subspace.Staking
